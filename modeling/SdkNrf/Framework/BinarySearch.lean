import Mathlib

/-!
# Binary search

The search of a list that ascends by a key, with both ends of the interval inclusive.
-/

namespace SdkNrf

variable {α : Type}

/-- The position of an element with the key `k` between `lower` and `upper`. -/
def searchBetween (key : α → Nat) (l : List α) (k : Nat) : Nat → Int → Int → Option Nat
  | 0, _, _ => none
  | fuel + 1, lower, upper =>
    if upper < lower then none
    else
      let m := ((lower + upper) / 2).toNat
      match l[m]? with
      | none => none
      | some a =>
        if key a < k then searchBetween key l k fuel (m + 1) upper
        else if k < key a then searchBetween key l k fuel lower (m - 1)
        else some m

def searchByKey (key : α → Nat) (l : List α) (k : Nat) : Option Nat :=
  searchBetween key l k l.length 0 (l.length - 1)

variable {key : α → Nat} {l : List α}

theorem searchBetween_sound {k : Nat} {fuel : Nat} {lower upper : Int} {i : Nat}
    (h : searchBetween key l k fuel lower upper = some i) : ∃ a, l[i]? = some a ∧ key a = k := by
  induction fuel generalizing lower upper with
  | zero => cases h
  | succ fuel ih =>
    rw [searchBetween] at h
    split_ifs at h
    dsimp only at h
    split at h
    · cases h
    · next a ha =>
      split_ifs at h with hlt hgt
      · exact ih h
      · exact ih h
      · obtain rfl := Option.some.inj h
        exact ⟨a, ha, by omega⟩

/-- An element whose key no other one has is found. -/
theorem searchBetween_unique (hl : l.Pairwise fun a b => key a ≤ key b) {i : Nat} {a : α}
    (ha : l[i]? = some a) (hunique : ∀ j b, l[j]? = some b → key b = key a → j = i) {fuel : Nat}
    {lower upper : Int} (hlower : 0 ≤ lower) (hi : lower ≤ i) (hupper : i ≤ upper)
    (hlength : upper < l.length) (hfuel : upper - lower < fuel) :
    searchBetween key l (key a) fuel lower upper = some i := by
  obtain ⟨hlt, rfl⟩ := List.getElem?_eq_some_iff.mp ha
  induction fuel generalizing lower upper with
  | zero => omega
  | succ fuel ih =>
    rw [searchBetween, if_neg (by omega)]
    dsimp only
    generalize hm : ((lower + upper) / 2).toNat = m
    have hmid : m < l.length := by omega
    have hget : l[m]? = some l[m] := List.getElem?_eq_getElem hmid
    rw [hget]
    dsimp only
    rw [List.pairwise_iff_getElem] at hl
    rcases Nat.lt_trichotomy m i with hmi | rfl | him
    · have hle := hl m i hmid hlt hmi
      have hne : key l[m] ≠ key l[i] := fun heq => hmi.ne (hunique m _ hget heq)
      rw [if_pos (by omega)]
      exact ih (by omega) (by omega) hupper hlength (by omega)
    · simp
    · have hle := hl i m hlt hmid him
      have hne : key l[m] ≠ key l[i] := fun heq => him.ne' (hunique m _ hget heq)
      rw [if_neg (by omega), if_pos (by omega)]
      exact ih hlower hi (by omega) (by omega) (by omega)

theorem searchByKey_unique (hl : l.Pairwise fun a b => key a ≤ key b) {i : Nat} {a : α}
    (ha : l[i]? = some a) (hunique : ∀ j b, l[j]? = some b → key b = key a → j = i) :
    searchByKey key l (key a) = some i := by
  obtain ⟨hlt, -⟩ := List.getElem?_eq_some_iff.mp ha
  exact searchBetween_unique hl ha hunique (by omega) (by omega) (by omega) (by omega) (by omega)

theorem searchByKey_of_getElem? (hl : l.Pairwise fun a b => key a < key b) {i : Nat} {a : α}
    (ha : l[i]? = some a) : searchByKey key l (key a) = some i := by
  apply searchByKey_unique (hl.imp Nat.le_of_lt) ha
  intro j b hb heq
  obtain ⟨hj, rfl⟩ := List.getElem?_eq_some_iff.mp hb
  obtain ⟨hi, rfl⟩ := List.getElem?_eq_some_iff.mp ha
  rw [List.pairwise_iff_getElem] at hl
  rcases Nat.lt_trichotomy j i with hji | rfl | hij
  · exact absurd heq (hl j i hj hi hji).ne
  · rfl
  · exact absurd heq (hl i j hi hj hij).ne'

theorem searchByKey_append_cons {l₁ l₂ : List α} {a : α}
    (hl : (l₁ ++ a :: l₂).Pairwise fun a b => key a < key b) :
    searchByKey key (l₁ ++ a :: l₂) (key a) = some l₁.length :=
  searchByKey_of_getElem? hl (by simp)

end SdkNrf
