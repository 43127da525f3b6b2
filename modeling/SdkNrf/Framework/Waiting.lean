import Mathlib

/-!
# Numbered items that wait in queues

Items get numbers in the order in which they arrive.
-/

namespace SdkNrf

variable {α κ ι : Type*}

structure Waiting (number : α → Nat) (key : α → κ) (left : List α) (queue : ι → List α) (arrivals : Nat) :
    Prop where
  ascending : ∀ i, (queue i).Pairwise fun x y => number x < number y
  arrived : ∀ x, (x ∈ left ∨ ∃ i, x ∈ queue i) → number x < arrivals
  home : ∀ i j, ∀ x ∈ queue i, ∀ y ∈ queue j, key x = key y → i = j
  order : left.Pairwise fun x y => key x = key y → number x < number y
  past : ∀ i, ∀ x ∈ queue i, ∀ y ∈ left, key y = key x → number y < number x
  accounted : ∀ n < arrivals, ∃ x, number x = n ∧ (x ∈ left ∨ ∃ i, x ∈ queue i)

namespace Waiting

variable {number : α → Nat} {key : α → κ} {left : List α} {queue : ι → List α} {arrivals : Nat}

theorem start : Waiting number key [] (fun _ : ι => []) 0 where
  ascending _ := List.Pairwise.nil
  arrived x hx := by simp at hx
  home _ _ _ hx := absurd hx List.not_mem_nil
  order := List.Pairwise.nil
  past _ _ hx := absurd hx List.not_mem_nil
  accounted n hn := absurd hn (Nat.not_lt_zero n)

/-- An item leaves as it arrives, while none with its key waits. -/
theorem pass (h : Waiting number key left queue arrivals) {x : α} (hnumber : number x = arrivals)
    (hnone : ∀ i, ∀ y ∈ queue i, key y ≠ key x) :
    Waiting number key (left ++ [x]) queue (arrivals + 1) where
  ascending := h.ascending
  arrived y hy := by
    rcases hy with hy | hy
    · rcases List.mem_append.mp hy with hy | hy
      · exact Nat.lt_succ_of_lt (h.arrived y (Or.inl hy))
      · rw [List.mem_singleton.mp hy, hnumber]
        exact Nat.lt_succ_self arrivals
    · exact Nat.lt_succ_of_lt (h.arrived y (Or.inr hy))
  home := h.home
  order := by
    refine List.pairwise_append.mpr ⟨h.order, List.pairwise_singleton .., fun y hy z hz _ => ?_⟩
    rw [List.mem_singleton.mp hz, hnumber]
    exact h.arrived y (Or.inl hy)
  past i y hy z hz hkey := by
    rcases List.mem_append.mp hz with hz | hz
    · exact h.past i y hy z hz hkey
    · rw [List.mem_singleton.mp hz] at hkey
      exact absurd hkey.symm (hnone i y hy)
  accounted n hn := by
    rcases Nat.lt_succ_iff_lt_or_eq.mp hn with hn | rfl
    · obtain ⟨y, hy, hwhere⟩ := h.accounted n hn
      exact ⟨y, hy, hwhere.imp (List.mem_append_left [x]) id⟩
    · exact ⟨x, hnumber, Or.inl (by simp)⟩

variable [DecidableEq ι]

theorem join (h : Waiting number key left queue arrivals) {x : α} {i : ι} (hnumber : number x = arrivals)
    (hhome : ∀ j, ∀ y ∈ queue j, key y = key x → j = i) :
    Waiting number key left (Function.update queue i (queue i ++ [x])) (arrivals + 1) := by
  have hmem {j : ι} {y : α} (hy : y ∈ Function.update queue i (queue i ++ [x]) j) :
      y ∈ queue j ∨ (j = i ∧ y = x) := by
    by_cases hj : j = i
    · subst hj
      simpa using hy
    · exact Or.inl (by simpa [hj] using hy)
  refine ⟨fun j => ?_, fun y hy => ?_, fun j k y hy z hz hkey => ?_, h.order, fun j y hy z hz hkey => ?_,
    fun n hn => ?_⟩
  · by_cases hj : j = i
    · subst hj
      rw [Function.update_self]
      refine List.pairwise_append.mpr ⟨h.ascending j, List.pairwise_singleton .., fun y hy z hz => ?_⟩
      rw [List.mem_singleton.mp hz, hnumber]
      exact h.arrived y (Or.inr ⟨j, hy⟩)
    · rw [Function.update_of_ne hj]
      exact h.ascending j
  · rcases hy with hy | ⟨j, hy⟩
    · exact Nat.lt_succ_of_lt (h.arrived y (Or.inl hy))
    · rcases hmem hy with hold | ⟨-, rfl⟩
      · exact Nat.lt_succ_of_lt (h.arrived y (Or.inr ⟨j, hold⟩))
      · rw [hnumber]
        exact Nat.lt_succ_self arrivals
  · rcases hmem hy with hold | ⟨rfl, rfl⟩
    · rcases hmem hz with hz | ⟨rfl, rfl⟩
      · exact h.home j k y hold z hz hkey
      · exact hhome j y hold hkey
    · rcases hmem hz with hz | ⟨rfl, -⟩
      · exact (hhome k z hz hkey.symm).symm
      · rfl
  · rcases hmem hy with hy | ⟨-, rfl⟩
    · exact h.past j y hy z hz hkey
    · rw [hnumber]
      exact h.arrived z (Or.inl hz)
  · rcases Nat.lt_succ_iff_lt_or_eq.mp hn with hn | rfl
    · obtain ⟨y, hy, hwhere⟩ := h.accounted n hn
      refine ⟨y, hy, hwhere.imp id ?_⟩
      rintro ⟨j, hj⟩
      refine ⟨j, ?_⟩
      by_cases hji : j = i
      · subst hji
        simp [hj]
      · simpa [hji] using hj
    · exact ⟨x, hnumber, Or.inr ⟨i, by simp⟩⟩

theorem leave (h : Waiting number key left queue arrivals) {x : α} {i : ι} {rest : List α}
    (hqueue : queue i = x :: rest) :
    Waiting number key (left ++ [x]) (Function.update queue i rest) arrivals := by
  have hfirst : x ∈ queue i := by simp [hqueue]
  have hmem {j : ι} {y : α} (hy : y ∈ Function.update queue i rest j) : y ∈ queue j := by
    by_cases hj : j = i
    · subst hj
      rw [Function.update_self] at hy
      exact hqueue ▸ List.mem_cons_of_mem x hy
    · simpa [hj] using hy
  have hascending := h.ascending i
  rw [hqueue, List.pairwise_cons] at hascending
  refine ⟨fun j => ?_, fun y hy => ?_, fun j k y hy z hz => h.home j k y (hmem hy) z (hmem hz), ?_,
    fun j y hy z hz hkey => ?_, fun n hn => ?_⟩
  · by_cases hj : j = i
    · subst hj
      rw [Function.update_self]
      exact hascending.2
    · rw [Function.update_of_ne hj]
      exact h.ascending j
  · rcases hy with hy | ⟨j, hy⟩
    · rcases List.mem_append.mp hy with hy | hy
      · exact h.arrived y (Or.inl hy)
      · rw [List.mem_singleton.mp hy]
        exact h.arrived x (Or.inr ⟨i, hfirst⟩)
    · exact h.arrived y (Or.inr ⟨j, hmem hy⟩)
  · refine List.pairwise_append.mpr ⟨h.order, List.pairwise_singleton .., fun y hy z hz hkey => ?_⟩
    obtain rfl := List.mem_singleton.mp hz
    exact h.past i z hfirst y hy hkey
  · rcases List.mem_append.mp hz with hz | hz
    · exact h.past j y (hmem hy) z hz hkey
    · obtain rfl := List.mem_singleton.mp hz
      -- only an item of the same queue has the key of the one that leaves
      obtain rfl := h.home i j z hfirst y (hmem hy) hkey
      rw [Function.update_self] at hy
      exact hascending.1 y hy
  · obtain ⟨y, hy, hwhere⟩ := h.accounted n hn
    refine ⟨y, hy, ?_⟩
    rcases hwhere with hleft | ⟨j, hj⟩
    · exact Or.inl (List.mem_append_left [x] hleft)
    · by_cases hji : j = i
      · subst hji
        rw [hqueue] at hj
        rcases List.mem_cons.mp hj with rfl | hj
        · exact Or.inl (by simp)
        · exact Or.inr ⟨j, by simpa using hj⟩
      · exact Or.inr ⟨j, by simpa [hji] using hj⟩

theorem empty (h : Waiting number key left queue arrivals) (i : ι) :
    Waiting number key (left ++ queue i) (Function.update queue i []) arrivals := by
  generalize hitems : queue i = items
  induction items generalizing left queue with
  | nil =>
    rw [List.append_nil, ← hitems, Function.update_eq_self]
    exact h
  | cons x rest ih =>
    have hrest := ih (h.leave hitems) (Function.update_self ..)
    rwa [Function.update_idem, List.append_assoc, List.singleton_append] at hrest

theorem clear (h : Waiting number key left queue arrivals) {is : List ι} (hnodup : is.Nodup)
    {queue' : ι → List α} (hcleared : ∀ i ∈ is, queue' i = []) (hkept : ∀ i, i ∉ is → queue' i = queue i) :
    Waiting number key (left ++ is.flatMap queue) queue' arrivals := by
  induction is generalizing left queue with
  | nil =>
    obtain rfl : queue' = queue := funext fun i => hkept i List.not_mem_nil
    simpa using h
  | cons i is ih =>
    obtain ⟨hnot, hnodup⟩ := List.nodup_cons.mp hnodup
    have hflat : is.flatMap (Function.update queue i []) = is.flatMap queue := by
      apply List.flatMap_congr
      intro j hj
      have hne : j ≠ i := by
        rintro rfl
        exact hnot hj
      exact Function.update_of_ne hne ..
    have hrest := ih (h.empty i) hnodup (fun j hj => hcleared j (List.mem_cons_of_mem i hj)) fun j hj => by
      by_cases hji : j = i
      · rw [hji, Function.update_self]
        exact hcleared i List.mem_cons_self
      · rw [Function.update_of_ne hji]
        exact hkept j (by simp [hji, hj])
    rwa [hflat, List.append_assoc, ← List.flatMap_cons] at hrest

end Waiting

end SdkNrf
