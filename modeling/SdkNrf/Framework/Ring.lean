import Mathlib

/-!
# Ring buffers

A queue in an array with the index of the next free slot, the index of the first entry and the number of
entries, all of which are kept by hand.
-/

namespace SdkNrf

variable {α : Type}

structure Ring (α : Type) where
  slots : List α
  back : Nat
  front : Nat
  count : Nat
  deriving DecidableEq

namespace Ring

def size (r : Ring α) : Nat := r.slots.length

/-- The index behind `i`. -/
def next (r : Ring α) (i : Nat) : Nat := if r.size ≤ i + 1 then 0 else i + 1

def clear (r : Ring α) : Ring α := { r with back := 0, front := 0, count := 0 }

def push (r : Ring α) (x : α) : Ring α :=
  { r with slots := r.slots.set r.back x, back := r.next r.back, count := r.count + 1 }

def drop (r : Ring α) : Ring α := { r with front := r.next r.front, count := r.count - 1 }

def frontSlot [Inhabited α] (r : Ring α) : α := r.slots.getD r.front default

def head? [Inhabited α] (r : Ring α) : Option α := if r.count = 0 then none else some r.frontSlot

/-- The index of the entry number `i`. -/
def index (r : Ring α) (i : Nat) : Nat := (r.front + i) % r.size

def contents [Inhabited α] (r : Ring α) : List α :=
  (List.range r.count).map fun i => r.slots.getD (r.index i) default

/-- The indices agree, and no more entries are in use than there are slots. -/
structure Agrees (r : Ring α) : Prop where
  front_lt : 0 < r.size → r.front < r.size
  back_eq : r.back = (r.front + r.count) % r.size
  count_le : r.count ≤ r.size

/-- An empty ring of `n` slots. -/
def empty [Inhabited α] (n : Nat) : Ring α := ⟨List.replicate n default, 0, 0, 0⟩

variable {r : Ring α}

@[simp] theorem size_push (x : α) : (r.push x).size = r.size := by simp [push, size]

@[simp] theorem size_drop : r.drop.size = r.size := rfl

@[simp] theorem size_clear : r.clear.size = r.size := rfl

theorem next_eq {i : Nat} (h : i < r.size) : r.next i = (i + 1) % r.size := by
  rw [next]
  split
  · have heq : i + 1 = r.size := by omega
    rw [heq, Nat.mod_self]
  · rw [Nat.mod_eq_of_lt (by omega)]

theorem add_mod_inj {n f i j : Nat} (hi : i < n) (hj : j < n) (h : (f + i) % n = (f + j) % n) :
    i = j := by
  have hmod : i ≡ j [MOD n] := Nat.ModEq.add_left_cancel' f h
  rwa [Nat.ModEq, Nat.mod_eq_of_lt hi, Nat.mod_eq_of_lt hj] at hmod

section Inhabited

variable [Inhabited α]

@[simp] theorem length_contents : r.contents.length = r.count := by simp [contents]

@[simp] theorem contents_clear : r.clear.contents = [] := rfl

@[simp] theorem size_empty (n : Nat) : (empty n : Ring α).size = n := by simp [empty, size]

@[simp] theorem contents_empty (n : Nat) : (empty n : Ring α).contents = [] := rfl

theorem contents_push (h : r.Agrees) (hroom : r.count < r.size) (x : α) :
    (r.push x).contents = r.contents ++ [x] := by
  have hback : r.back < r.slots.length := by
    rw [h.back_eq]
    exact Nat.mod_lt _ (by omega)
  have hlast : (r.push x).slots.getD ((r.push x).index r.count) default = x := by
    have hindex : (r.push x).index r.count = r.back := by
      rw [index, size_push]
      exact h.back_eq.symm
    rw [hindex, List.getD_eq_getElem?_getD]
    simp [push, hback]
  have hold : ∀ i ∈ List.range r.count, (r.push x).slots.getD ((r.push x).index i) default =
      r.slots.getD (r.index i) default := by
    intro i hi
    rw [List.mem_range] at hi
    have hne : r.back ≠ r.index i := by
      rw [h.back_eq, index]
      intro heq
      have := add_mod_inj hroom (hi.trans hroom) heq
      omega
    have hindex : (r.push x).index i = r.index i := by
      rw [index, size_push]
      rfl
    rw [hindex, List.getD_eq_getElem?_getD, List.getD_eq_getElem?_getD, push,
      List.getElem?_set_ne hne]
  calc (r.push x).contents
      = (List.range (r.count + 1)).map fun i => (r.push x).slots.getD ((r.push x).index i) default :=
        rfl
    _ = r.contents ++ [x] := by
        rw [List.range_succ, List.map_append, List.map_congr_left hold, List.map_singleton, hlast]
        rfl

theorem contents_drop (h : r.Agrees) (hcount : 0 < r.count) : r.drop.contents = r.contents.tail := by
  have hsize : 0 < r.size := hcount.trans_le h.count_le
  have hindex : ∀ i, r.drop.index i = r.index (i + 1) := by
    intro i
    rw [index, size_drop, drop, next_eq (h.front_lt hsize), Nat.mod_add_mod, index, Nat.add_assoc,
      Nat.add_comm 1 i]
  obtain ⟨n, hn⟩ : ∃ n, r.count = n + 1 := ⟨r.count - 1, by omega⟩
  have hcontents : r.contents = r.slots.getD (r.index 0) default ::
      (List.range n).map fun i => r.slots.getD (r.index (i + 1)) default := by
    rw [contents, hn, List.range_succ_eq_map, List.map_cons, List.map_map]
    rfl
  rw [hcontents, List.tail_cons, contents, show r.drop.count = n by simp [drop, hn]]
  simp only [hindex]
  rfl

theorem frontSlot_eq (h : r.Agrees) (hcount : 0 < r.count) :
    r.contents.head? = some r.frontSlot := by
  have hsize : 0 < r.size := hcount.trans_le h.count_le
  obtain ⟨n, hn⟩ : ∃ n, r.count = n + 1 := ⟨r.count - 1, by omega⟩
  rw [contents, hn, List.range_succ_eq_map, List.map_cons, List.head?_cons, index, Nat.add_zero,
    Nat.mod_eq_of_lt (h.front_lt hsize)]
  rfl

theorem head?_eq (h : r.Agrees) : r.head? = r.contents.head? := by
  rw [head?]
  split
  · next hzero => simp [contents, hzero]
  · next hcount => exact (frontSlot_eq h (by omega)).symm

end Inhabited

namespace Agrees

theorem clear (r : Ring α) : r.clear.Agrees :=
  ⟨fun hsize => hsize, by simp [Ring.clear], by simp [Ring.clear]⟩

theorem empty [Inhabited α] (n : Nat) : (Ring.empty n : Ring α).Agrees :=
  ⟨fun hsize => hsize, by simp [Ring.empty], by simp [Ring.empty]⟩

theorem push (h : r.Agrees) (hroom : r.count < r.size) (x : α) : (r.push x).Agrees := by
  have hback : r.back < r.size := by
    rw [h.back_eq]
    exact Nat.mod_lt _ (by omega)
  refine ⟨fun hsize => ?_, ?_, ?_⟩
  · rw [size_push] at hsize ⊢
    exact h.front_lt hsize
  · rw [size_push, Ring.push, next_eq hback, h.back_eq, Nat.mod_add_mod, Nat.add_assoc]
  · rw [size_push]
    exact hroom

theorem drop (h : r.Agrees) (hcount : 0 < r.count) : r.drop.Agrees := by
  have hsize : 0 < r.size := hcount.trans_le h.count_le
  have hcountle := h.count_le
  refine ⟨fun _ => ?_, ?_, ?_⟩
  · rw [size_drop, Ring.drop, next_eq (h.front_lt hsize)]
    exact Nat.mod_lt _ hsize
  · have heq : r.front + 1 + (r.count - 1) = r.front + r.count := by omega
    rw [size_drop, Ring.drop, next_eq (h.front_lt hsize), Nat.mod_add_mod, h.back_eq, heq]
  · exact (Nat.sub_le r.count 1).trans h.count_le

end Agrees

end Ring

end SdkNrf
