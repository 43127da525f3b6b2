import Mathlib

/-!
# Selection sort

The sort of an array in place by a key: each place in turn is swapped with the first least element from
there on.
-/

namespace SdkNrf

variable {α : Type}

/-- The place of the first least key from `k` on, as the loop over the places behind `k` finds it. -/
def leastFrom (key : α → Nat) (l : List α) (k : Nat) : Nat :=
  (List.range' (k + 1) (l.length - (k + 1))).foldl
    (fun id j => if (l[j]?.map key).getD 0 < (l[id]?.map key).getD 0 then j else id) k

def swapAt (l : List α) (i j : Nat) : List α :=
  match l[i]?, l[j]? with
  | some a, some b => (l.set i b).set j a
  | _, _ => l

def selectionStep (key : α → Nat) (l : List α) (k : Nat) : List α := swapAt l k (leastFrom key l k)

def selectionSort (key : α → Nat) (l : List α) : List α :=
  (List.range l.length).foldl (selectionStep key) l

variable {key : α → Nat} {l : List α}

def keyAt (key : α → Nat) (l : List α) (i : Nat) : Nat := (l[i]?.map key).getD 0

theorem keyAt_of_lt {i : Nat} (h : i < l.length) : keyAt key l i = key l[i] := by
  simp [keyAt, h]

theorem leastFrom_loop (key : α → Nat) (l : List α) (k n : Nat) :
    let id := (List.range' (k + 1) n).foldl
      (fun id j => if keyAt key l j < keyAt key l id then j else id) k
    k ≤ id ∧ id ≤ k + n ∧ ∀ j, k ≤ j → j ≤ k + n → keyAt key l id ≤ keyAt key l j := by
  induction n with
  | zero =>
    refine ⟨Nat.le_refl k, Nat.le_refl k, fun j hk hj => ?_⟩
    obtain rfl : j = k := by omega
    exact Nat.le_refl _
  | succ n ih =>
    simp only [List.range'_concat, List.foldl_append, List.foldl_cons, List.foldl_nil,
      Nat.one_mul] at ih ⊢
    generalize (List.range' (k + 1) n).foldl
      (fun id j => if keyAt key l j < keyAt key l id then j else id) k = id at ih ⊢
    obtain ⟨hk, hn, hleast⟩ := ih
    split
    next hlt =>
      refine ⟨by omega, by omega, fun j hj hjn => ?_⟩
      rcases Nat.eq_or_lt_of_le hjn with rfl | hjlt
      · rw [Nat.add_right_comm, Nat.add_assoc]
      · exact hlt.le.trans (hleast j hj (by omega))
    next hge =>
      refine ⟨hk, by omega, fun j hj hjn => ?_⟩
      rcases Nat.eq_or_lt_of_le hjn with rfl | hjlt
      · rw [Nat.add_right_comm, Nat.add_assoc] at hge
        exact Nat.not_lt.mp hge
      · exact hleast j hj (by omega)

theorem leastFrom_spec (key : α → Nat) {k : Nat} (h : k < l.length) :
    k ≤ leastFrom key l k ∧ leastFrom key l k < l.length ∧
      ∀ j, k ≤ j → j < l.length → keyAt key l (leastFrom key l k) ≤ keyAt key l j := by
  obtain ⟨hk, hn, hleast⟩ := leastFrom_loop key l k (l.length - (k + 1))
  exact ⟨hk, hn.trans_lt (by omega), fun j hj hlt => hleast j hj (by omega)⟩

theorem swapAt_eq {i j : Nat} (hi : i < l.length) (hj : j < l.length) :
    swapAt l i j = (l.set i l[j]).set j l[i] := by
  simp [swapAt, hi, hj]

theorem perm_swapAt {i j : Nat} (hi : i < l.length) (hj : j < l.length) : (swapAt l i j).Perm l := by
  rw [swapAt_eq hi hj]
  exact List.set_set_perm hi hj

theorem keyAt_swapAt {i j : Nat} (hi : i < l.length) (hj : j < l.length) (m : Nat) :
    keyAt key (swapAt l i j) m =
      if m = j then keyAt key l i else if m = i then keyAt key l j else keyAt key l m := by
  rw [swapAt_eq hi hj, keyAt, keyAt, keyAt, keyAt, List.getElem?_set, List.getElem?_set]
  by_cases hmj : m = j
  · subst hmj
    simp [hi, hj]
  · by_cases hmi : m = i
    · subst hmi
      simp [hmj, Ne.symm hmj, hi, hj]
    · simp [hmj, hmi, Ne.symm hmj, Ne.symm hmi]

/-- Up to place `k` every element is a least one of those behind it. -/
def SortedTo (key : α → Nat) (l : List α) (k : Nat) : Prop :=
  ∀ i < k, ∀ j, i ≤ j → j < l.length → keyAt key l i ≤ keyAt key l j

theorem SortedTo.step {k : Nat} (h : SortedTo key l k) (hk : k < l.length) :
    SortedTo key (selectionStep key l k) (k + 1) := by
  obtain ⟨hle, hlt, hleast⟩ := leastFrom_spec key hk
  have hperm := perm_swapAt hk hlt
  intro i hi j hij hj
  rw [selectionStep, hperm.length_eq] at hj
  rw [selectionStep, keyAt_swapAt hk hlt, keyAt_swapAt hk hlt]
  generalize leastFrom key l k = least at *
  rcases Nat.eq_or_lt_of_le (Nat.le_of_lt_succ hi) with rfl | hik
  · -- the place that is sorted now holds the least element
    have hleft : (if i = least then keyAt key l i else if i = i then keyAt key l least
        else keyAt key l i) = keyAt key l least := by
      split
      next heq => rw [heq]
      next => rw [if_pos rfl]
    rw [hleft]
    split
    · exact hleast i (Nat.le_refl i) hk
    · split
      · exact Nat.le_refl _
      · exact hleast j hij hj
  · rw [if_neg (by omega), if_neg (by omega)]
    split
    · exact h i hik k hik.le hk
    · split
      · exact h i hik least (by omega) hlt
      · exact h i hik j hij hj

theorem selectionSort_loop (l : List α) {n : Nat} (hn : n ≤ l.length) :
    ((List.range n).foldl (selectionStep key) l).Perm l ∧
      SortedTo key ((List.range n).foldl (selectionStep key) l) n := by
  induction n with
  | zero => exact ⟨List.Perm.refl l, fun i hi => absurd hi (Nat.not_lt_zero i)⟩
  | succ n ih =>
    obtain ⟨hperm, hsorted⟩ := ih (by omega)
    rw [List.range_succ, List.foldl_append]
    simp only [List.foldl_cons, List.foldl_nil]
    generalize (List.range n).foldl (selectionStep key) l = sorted at *
    have hlt : n < sorted.length := by
      rw [hperm.length_eq]
      omega
    exact ⟨(perm_swapAt hlt (leastFrom_spec key hlt).2.1).trans hperm, hsorted.step hlt⟩

theorem perm_selectionSort (key : α → Nat) (l : List α) : (selectionSort key l).Perm l :=
  (selectionSort_loop l (Nat.le_refl _)).1

theorem sortedTo_selectionSort (key : α → Nat) (l : List α) :
    SortedTo key (selectionSort key l) l.length :=
  (selectionSort_loop l (Nat.le_refl _)).2

/-- The sorted array ascends. -/
theorem pairwise_selectionSort (key : α → Nat) (l : List α) :
    (selectionSort key l).Pairwise fun a b => key a ≤ key b := by
  rw [List.pairwise_iff_getElem]
  intro i j hi hj hij
  have hlength := (perm_selectionSort key l).length_eq
  have hle := sortedTo_selectionSort key l i (hlength ▸ hi) j hij.le hj
  rwa [keyAt_of_lt hi, keyAt_of_lt hj] at hle

end SdkNrf
