import Mathlib

/-!
# Loops with a bound on their rounds

A loop that may run for ever takes the number of rounds it may run, its fuel, and gives up with the
error `out` when the fuel is used up.
-/

namespace SdkNrf

variable {ε α β : Type}

def FuelStable (out : ε) (f : Nat → Except ε α) : Prop :=
  ∀ n, f n ≠ .error out → f (n + 1) = f n

def FuelEnds (out : ε) (f : Nat → Except ε α) : Prop := ∃ n, f n ≠ .error out

namespace FuelStable

variable {out : ε} {f : Nat → Except ε α} {g : α → Nat → Except ε β}

theorem const (x : Except ε α) : FuelStable out fun _ => x := fun _ _ => rfl

theorem of_le (hf : FuelStable out f) {m n : Nat} (hle : n ≤ m) (h : f n ≠ .error out) :
    f m = f n := by
  induction hle with
  | refl => rfl
  | step _ ih =>
    rw [← ih]
    apply hf
    rwa [ih]

/-- Two runs that came to an end agree. -/
theorem agree (hf : FuelStable out f) {m n : Nat} (hm : f m ≠ .error out)
    (hn : f n ≠ .error out) : f m = f n := by
  rcases Nat.le_total n m with hle | hle
  · exact hf.of_le hle hn
  · exact (hf.of_le hle hm).symm

theorem ok_unique (hf : FuelStable out f) {m n : Nat} {a b : α} (hm : f m = .ok a)
    (hn : f n = .ok b) : a = b := by
  have h := hf.agree (m := m) (n := n) (by simp [hm]) (by simp [hn])
  rw [hm, hn] at h
  exact Except.ok.inj h

theorem bind (hf : FuelStable out f) (hg : ∀ a, FuelStable out (g a)) :
    FuelStable out fun n => f n >>= fun a => g a n := by
  intro n h
  dsimp only at h ⊢
  have hfn : f n ≠ .error out := by
    intro he
    rw [he] at h
    exact h rfl
  rw [hf n hfn]
  cases ha : f n with
  | error e => rfl
  | ok a =>
    rw [ha] at h
    exact hg a n h

end FuelStable

namespace FuelEnds

variable {out : ε} {f : Nat → Except ε α} {g : α → Nat → Except ε β}

theorem bind (hf : FuelStable out f) (hg : ∀ a, FuelStable out (g a)) (hends : FuelEnds out f)
    (hrest : ∀ n a, f n = .ok a → FuelEnds out (g a)) :
    FuelEnds out fun n => f n >>= fun a => g a n := by
  obtain ⟨n, hn⟩ := hends
  cases ha : f n with
  | error e =>
    refine ⟨n, ?_⟩
    dsimp only
    rw [ha] at hn ⊢
    exact fun he => hn (congrArg Except.error (Except.error.inj he))
  | ok a =>
    obtain ⟨m, hm⟩ := hrest n a ha
    -- The larger of the two bounds is enough for both computations.
    refine ⟨max n m, ?_⟩
    dsimp only
    rw [hf.of_le (Nat.le_max_left n m) hn, ha]
    have hgm := (hg a).of_le (Nat.le_max_right n m) hm
    intro he
    apply hm
    rw [← hgm]
    exact he

end FuelEnds

/-! ### Weights

Where every node has finitely many successors and no chain of them goes on for ever, the nodes
have weights such that a node is heavier than all its successors together. -/

theorem exists_weight {next : α → List α} (h : WellFounded fun b a => b ∈ next a) :
    ∃ w : α → Nat, ∀ a, w a = 1 + ((next a).map w).sum := by
  let w : α → Nat := h.fix fun a rec => 1 + ((next a).attach.map fun b => rec b.1 b.2).sum
  refine ⟨w, fun a => ?_⟩
  have hw : w a = 1 + ((next a).attach.map fun b => w b.1).sum := h.fix_eq _ a
  rw [hw, List.attach_map_val]

/-- Replacing a member of a list by lighter ones, and then dropping duplicates, makes the list
lighter. -/
theorem sum_map_lt_of_replace [DecidableEq α] (w : α → Nat) {l parts result : List α} {p : α}
    (hp : p ∈ l ++ parts) (hlight : (parts.map w).sum < w p) (hnd : result.Nodup)
    (hsub : ∀ x ∈ result, x ∈ (l ++ parts).erase p) : (result.map w).sum < (l.map w).sum := by
  have hsubperm : result.Subperm ((l ++ parts).erase p) := hnd.subperm hsub
  have hle : (result.map w).sum ≤ (((l ++ parts).erase p).map w).sum := by
    obtain ⟨m, hperm, hm⟩ := hsubperm
    rw [← (hperm.map w).sum_eq]
    exact (hm.map w).sum_le_sum fun _ _ => Nat.zero_le _
  have htotal := ((List.perm_cons_erase hp).map w).sum_eq
  rw [List.map_append, List.sum_append, List.map_cons, List.sum_cons] at htotal
  omega

end SdkNrf
