import Mathlib

/-!
# Segments of a list

The elements of a list from one position up to another one. Adjacent segments add up.
-/

namespace SdkNrf

variable {α : Type}

/-- The elements at the positions from `a` on and below `b`. -/
def segment (l : List α) (a b : Nat) : List α := (l.drop a).take (b - a)

@[simp] theorem segment_self (l : List α) (a : Nat) : segment l a a = [] := by
  simp [segment]

theorem length_segment {l : List α} {a b : Nat} (hb : b ≤ l.length) :
    (segment l a b).length = b - a := by
  rw [segment, List.length_take, List.length_drop]
  omega

theorem segment_append (l : List α) {a b c : Nat} (hab : a ≤ b) (hbc : b ≤ c) :
    segment l a b ++ segment l b c = segment l a c := by
  rw [segment, segment, segment, show c - a = (b - a) + (c - b) by omega, List.take_add,
    List.drop_drop, show a + (b - a) = b by omega]

theorem take_segment (l : List α) {a b k : Nat} (h : a + k ≤ b) :
    (segment l a b).take k = segment l a (a + k) := by
  rw [segment, segment, List.take_take, show min k (b - a) = a + k - a by omega]

theorem drop_segment (l : List α) (a b k : Nat) :
    (segment l a b).drop k = segment l (a + k) b := by
  rw [segment, segment, List.drop_take, List.drop_drop, Nat.sub_sub]

theorem segment_length (l : List α) (a : Nat) : segment l a l.length = l.drop a := by
  rw [segment, List.take_of_length_le (by rw [List.length_drop])]

end SdkNrf
