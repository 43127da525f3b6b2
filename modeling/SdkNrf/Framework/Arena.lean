import SdkNrf.Framework.Bytes

/-!
# Allocation in a buffer

An arena hands out a memory from its start on and never takes anything back.
-/

namespace SdkNrf

namespace Memory

@[simp] theorem length_write {mem : Memory} {off : Nat} {bytes : List UInt8}
    (h : off + bytes.length ≤ mem.length) : (mem.write off bytes).length = mem.length := by
  simp only [write, List.length_append, List.length_take, List.length_drop]
  omega

theorem take_write_zero (mem : Memory) (bytes : List UInt8) :
    (mem.write 0 bytes).take bytes.length = bytes := by
  simp only [write, List.take_zero, List.nil_append, List.take_left]

theorem slice_write {mem : Memory} {off : Nat} (bytes : List UInt8) (h : off ≤ mem.length) :
    (mem.write off bytes).slice off bytes.length = bytes := by
  rw [write, List.append_assoc]
  exact slice_field (List.length_take_of_le h).symm rfl

/-- A write leaves what is stored in front of it. -/
theorem slice_write_of_le {mem : Memory} {off pos len : Nat} (bytes : List UInt8)
    (hpos : pos + len ≤ off) (h : off ≤ mem.length) :
    (mem.write off bytes).slice pos len = mem.slice pos len := by
  have hlen : (mem.take off).length = off := List.length_take_of_le h
  simp only [slice, write, List.append_assoc]
  rw [List.drop_append_of_le_length (by omega),
    List.take_append_of_le_length (by rw [List.length_drop]; omega), List.drop_take, List.take_take,
    min_eq_left (by omega)]

end Memory

/-- A memory of `size` bytes, of which `len` have been handed out. -/
structure Arena where
  mem : Memory
  len : Nat
  size : Nat

namespace Arena

def tailroom (a : Arena) : Nat := a.size - a.len

/-- The offset of `n` fresh bytes, unless there are too few. -/
def alloc (a : Arena) (n : Nat) : Option (Nat × Arena) :=
  if a.tailroom < n then none else some (a.len, { a with len := a.len + n })

def store (a : Arena) (bytes : List UInt8) : Option (Nat × Arena) :=
  (a.alloc bytes.length).map fun (off, a) => (off, { a with mem := a.mem.write off bytes })

variable {a : Arena}

theorem alloc_of_le {n : Nat} (h : a.len + n ≤ a.size) :
    a.alloc n = some (a.len, { a with len := a.len + n }) :=
  if_neg (by unfold tailroom; omega)

theorem alloc_of_lt {n : Nat} (hle : a.len ≤ a.size) (h : a.size < a.len + n) :
    a.alloc n = none :=
  if_pos (by unfold tailroom; omega)

theorem store_of_le {bytes : List UInt8} (h : a.len + bytes.length ≤ a.size) :
    a.store bytes = some (a.len, ⟨a.mem.write a.len bytes, a.len + bytes.length, a.size⟩) := by
  rw [store, alloc_of_le h]
  rfl

theorem store_of_lt {bytes : List UInt8} (hle : a.len ≤ a.size)
    (h : a.size < a.len + bytes.length) : a.store bytes = none := by
  rw [store, alloc_of_lt hle h]
  rfl

end Arena

end SdkNrf
