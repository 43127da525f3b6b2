import Mathlib

/-!
# Order of the members of a list

When one member of a list comes before another, how insertion next to a member fixes the order
of the two, and when the positions of a sublist are an interval.
-/

namespace SdkNrf

variable {α : Type*}

/-- `x` comes before `y` in the list. -/
def Precedes (l : List α) (x y : α) : Prop := [x, y].Sublist l

theorem Precedes.of_sublist {l m : List α} {x y : α} (h : Precedes l x y) (hlm : l.Sublist m) :
    Precedes m x y := List.Sublist.trans h hlm

theorem precedes_iff_getElem? {l : List α} {x y : α} :
    Precedes l x y ↔ ∃ i j : Nat, i < j ∧ l[i]? = some x ∧ l[j]? = some y := by
  induction l with
  | nil => simp [Precedes]
  | cons a l ih =>
    rw [Precedes, List.cons_sublist_cons', List.singleton_sublist]
    constructor
    · rintro (hl | ⟨rfl, hy⟩)
      · obtain ⟨i, j, hij, hi, hj⟩ := ih.mp hl
        exact ⟨i + 1, j + 1, Nat.succ_lt_succ hij, hi, hj⟩
      · obtain ⟨j, hj⟩ := List.mem_iff_getElem?.mp hy
        exact ⟨0, j + 1, Nat.succ_pos j, rfl, hj⟩
    · rintro ⟨i, j, hij, hi, hj⟩
      obtain ⟨j, rfl⟩ := Nat.exists_eq_succ_of_ne_zero (Nat.ne_zero_of_lt hij)
      rw [List.getElem?_cons_succ] at hj
      cases i with
      | zero => exact Or.inr ⟨(Option.some.inj hi).symm, List.mem_of_getElem? hj⟩
      | succ i => exact Or.inl (ih.mpr ⟨i, j, Nat.lt_of_succ_lt_succ hij, hi, hj⟩)

variable [DecidableEq α]

theorem idxOf_le_of_getElem? {l : List α} {a : α} {i : Nat} (hi : l[i]? = some a) :
    l.idxOf a ≤ i := by
  induction l generalizing i with
  | nil => simp at hi
  | cons b l ih =>
    by_cases hba : b = a
    · subst hba
      rw [List.idxOf_cons_self]
      exact Nat.zero_le i
    · rw [List.idxOf_cons_ne _ hba]
      cases i with
      | zero => exact absurd (Option.some.inj hi) hba
      | succ i => exact Nat.succ_le_succ (ih hi)

theorem eq_idxOf_of_count_le_one {l : List α} {a : α} (h : l.count a ≤ 1) {i : Nat}
    (hi : l[i]? = some a) : i = l.idxOf a := by
  refine (eq_or_lt_of_le (idxOf_le_of_getElem? hi)).elim Eq.symm fun hlt => ?_
  have hfirst : l[l.idxOf a]? = some a := List.getElem?_idxOf (List.mem_of_getElem? hi)
  have htwice : Precedes l a a := precedes_iff_getElem?.mpr ⟨_, i, hlt, hfirst, hi⟩
  have hcount := List.Sublist.count_le a htwice
  rw [List.count_cons_self, List.count_cons_self] at hcount
  omega

/-- Distinct members whose positions lie in a range of their number fill a segment of the list. -/
theorem exists_segment {l m : List α} (hnd : m.Nodup) (hin : ∀ p ∈ m, p ∈ l) {lo : Nat}
    (hlo : ∀ p ∈ m, lo ≤ l.idxOf p) (hhi : ∀ p ∈ m, l.idxOf p < lo + m.length) :
    ∃ a b c, l = a ++ b ++ c ∧ b.Perm m := by
  refine ⟨l.take lo, (l.drop lo).take m.length, (l.drop lo).drop m.length, ?_, ?_⟩
  · rw [List.append_assoc, List.take_append_drop, List.take_append_drop]
  · refine (List.Subperm.perm_of_length_le (List.subperm_of_subset hnd fun p hp => ?_) ?_).symm
    · apply List.mem_of_getElem? (i := l.idxOf p - lo)
      have h1 := hlo p hp
      have h2 := hhi p hp
      rw [List.getElem?_take_of_lt (by omega), List.getElem?_drop, Nat.add_sub_cancel' h1,
        List.getElem?_idxOf (hin p hp)]
    · exact List.length_take_le _ _

theorem precedes_insertIdx_idxOf {l : List α} (x : α) {a : α} (ha : a ∈ l) :
    Precedes (l.insertIdx (l.idxOf a) x) x a := by
  induction l with
  | nil => simp at ha
  | cons b l ih =>
    by_cases hab : b = a
    · subst hab
      rw [List.idxOf_cons_self, List.insertIdx_zero]
      exact (List.nil_sublist _).cons_cons b |>.cons_cons x
    · have hal : a ∈ l := (List.mem_cons.mp ha).resolve_left (Ne.symm hab)
      rw [List.idxOf_cons_ne _ hab, List.insertIdx_succ_cons]
      exact (ih hal).cons b

theorem precedes_insertIdx_succ_idxOf {l : List α} (x : α) {a : α} (ha : a ∈ l) :
    Precedes (l.insertIdx (l.idxOf a + 1) x) a x := by
  induction l with
  | nil => simp at ha
  | cons b l ih =>
    by_cases hab : b = a
    · subst hab
      rw [List.idxOf_cons_self, Nat.zero_add, List.insertIdx_succ_cons, List.insertIdx_zero]
      exact (List.nil_sublist _).cons_cons x |>.cons_cons b
    · have hal : a ∈ l := (List.mem_cons.mp ha).resolve_left (Ne.symm hab)
      rw [List.idxOf_cons_ne _ hab, List.insertIdx_succ_cons]
      exact (ih hal).cons b

omit [DecidableEq α]

theorem filter_insertIdx_of_neg {sel : α → Bool} {e : α} (he : sel e = false) (k : Nat)
    (l : List α) : (l.insertIdx k e).filter sel = l.filter sel := by
  induction k generalizing l with
  | zero => rw [List.insertIdx_zero, List.filter_cons_of_neg (by simp [he])]
  | succ k ih =>
    cases l with
    | nil => rfl
    | cons a l => rw [List.insertIdx_succ_cons, List.filter_cons, List.filter_cons, ih]

/-- When nothing that a filter drops stands between two things it keeps, what it keeps is a
segment of the list. -/
theorem exists_segment_of_filter {sel : α → Bool} {l m : List α} (hm : l.filter sel = m)
    (h : ∀ l₁ e l₂, l = l₁ ++ e :: l₂ → sel e = false → (∃ p ∈ l₁, sel p = true) →
      ∀ q ∈ l₂, sel q = false) : ∃ a c, l = a ++ m ++ c := by
  cases m with
  | nil => exact ⟨l, [], by simp⟩
  | cons b m =>
    obtain ⟨a, t, rfl, -, hb, ht⟩ := List.filter_eq_cons_iff.mp hm
    refine ⟨a, t.dropWhile sel, ?_⟩
    have hkept : t.takeWhile sel = m := by
      have hnone : (t.dropWhile sel).filter sel = [] := by
        rw [List.filter_eq_nil_iff]
        cases hd : t.dropWhile sel with
        | nil => simp
        | cons e u =>
          have he : sel e = false := by
            have := List.head_dropWhile_not sel (w := by rw [hd]; simp) (l := t)
            simpa [hd] using this
          have hq := h (a ++ b :: t.takeWhile sel) e u
            (by rw [List.append_assoc, List.cons_append, ← hd, List.takeWhile_append_dropWhile])
            he ⟨b, by simp, hb⟩
          intro q hqm
          rcases List.mem_cons.mp hqm with rfl | hqm
          · simp [he]
          · simp [hq q hqm]
      calc t.takeWhile sel
          _ = (t.takeWhile sel).filter sel :=
            (List.filter_eq_self.mpr fun _ hx => List.mem_takeWhile_imp hx).symm
          _ = (t.takeWhile sel ++ t.dropWhile sel).filter sel := by
            rw [List.filter_append, hnone, List.append_nil]
          _ = m := by rw [List.takeWhile_append_dropWhile, ht]
    rw [← hkept, List.append_assoc, List.cons_append, List.takeWhile_append_dropWhile]

section Extrema

variable {β : Type*} [LinearOrder β]

theorem le_foldl_max (l : List β) (b : β) : b ≤ l.foldl max b ∧ ∀ a ∈ l, a ≤ l.foldl max b := by
  induction l generalizing b with
  | nil => simp
  | cons c l ih =>
    obtain ⟨h1, h2⟩ := ih (max b c)
    refine ⟨le_trans (le_max_left _ _) h1, fun a ha => ?_⟩
    rcases List.mem_cons.mp ha with rfl | ha
    · exact le_trans (le_max_right _ _) h1
    · exact h2 a ha

theorem foldl_min_le (l : List β) (b : β) : l.foldl min b ≤ b ∧ ∀ a ∈ l, l.foldl min b ≤ a := by
  induction l generalizing b with
  | nil => simp
  | cons c l ih =>
    obtain ⟨h1, h2⟩ := ih (min b c)
    refine ⟨le_trans h1 (min_le_left _ _), fun a ha => ?_⟩
    rcases List.mem_cons.mp ha with rfl | ha
    · exact le_trans h1 (min_le_right _ _)
    · exact h2 a ha

theorem foldl_min_mem (l : List β) (b : β) : l.foldl min b ∈ b :: l := by
  induction l generalizing b with
  | nil => simp
  | cons c l ih =>
    rcases List.mem_cons.mp (ih (min b c)) with h | h
    · rcases min_choice b c with hm | hm
      · rw [List.foldl_cons, h, hm]
        exact List.mem_cons_self ..
      · rw [List.foldl_cons, h, hm]
        exact List.mem_cons_of_mem _ (List.mem_cons_self ..)
    · exact List.mem_cons_of_mem _ (List.mem_cons_of_mem _ h)

end Extrema

/-- Distinct numbers that fill the range from the least to the greatest of them. -/
theorem mem_of_between {ns : List Nat} (hnd : ns.Nodup) {b : Nat}
    (hlen : ns.foldl max 0 + 1 - ns.foldl min b = ns.length) {i j k : Nat} (hi : i ∈ ns)
    (hj : j ∈ ns) (hik : i ≤ k) (hkj : k ≤ j) : k ∈ ns := by
  have hsub : ns.toFinset ⊆ Finset.Icc (ns.foldl min b) (ns.foldl max 0) := by
    intro n hn
    rw [List.mem_toFinset] at hn
    rw [Finset.mem_Icc]
    exact ⟨(foldl_min_le ns b).2 n hn, (le_foldl_max ns 0).2 n hn⟩
  have hcard : (Finset.Icc (ns.foldl min b) (ns.foldl max 0)).card ≤ ns.toFinset.card := by
    rw [Nat.card_Icc, hlen, List.toFinset_card_of_nodup hnd]
  have heq := Finset.eq_of_subset_of_card_le hsub hcard
  rw [← List.mem_toFinset, heq, Finset.mem_Icc]
  exact ⟨le_trans ((foldl_min_le ns b).2 i hi) hik, le_trans hkj ((le_foldl_max ns 0).2 j hj)⟩

end SdkNrf
