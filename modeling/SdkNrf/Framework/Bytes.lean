import Mathlib

/-!
# Byte memories

A memory is the list of bytes from a pointer on.
-/

namespace SdkNrf

abbrev Memory := List UInt8

/-- `a + b` in `uint32_t`. -/
def addU32 (a b : Nat) : Nat := (a + b) % 2 ^ 32

/-- `a - b` in `uint32_t`. -/
def subU32 (a b : Nat) : Nat := (a + (2 ^ 32 - b % 2 ^ 32)) % 2 ^ 32

theorem addU32_of_lt {a b : Nat} (h : a + b < 2 ^ 32) : addU32 a b = a + b := Nat.mod_eq_of_lt h

theorem subU32_of_le {a b : Nat} (h : b ≤ a) (ha : a < 2 ^ 32) : subU32 a b = a - b := by
  unfold subU32
  omega

namespace Memory

/-- Copy `bytes` to offset `off`. -/
def write (mem : Memory) (off : Nat) (bytes : List UInt8) : Memory :=
  mem.take off ++ bytes ++ mem.drop (off + bytes.length)

/-- The `len` bytes at offset `off`. -/
def slice (mem : Memory) (off len : Nat) : List UInt8 := (mem.drop off).take len

theorem write_field {pre old post bytes : List UInt8} {off : Nat} (hoff : off = pre.length)
    (hlen : bytes.length = old.length) :
    write (pre ++ (old ++ post)) off bytes = pre ++ (bytes ++ post) := by
  subst hoff
  rw [write, List.take_left, hlen, ← List.drop_drop, List.drop_left, List.drop_left,
    List.append_assoc]

theorem slice_field {pre field post : List UInt8} {off len : Nat} (hoff : off = pre.length)
    (hlen : len = field.length) : slice (pre ++ (field ++ post)) off len = field := by
  subst hoff hlen
  rw [slice, List.drop_left, List.take_left]

theorem exists_field (mem : Memory) (n : Nat) (h : n ≤ mem.length) :
    ∃ field rest, mem = field ++ rest ∧ field.length = n :=
  ⟨mem.take n, mem.drop n, (List.take_append_drop n mem).symm, List.length_take_of_le h⟩

end Memory

/-- The bytes that `sys_put_be16` writes. -/
def be16 (v : Nat) : List UInt8 := [UInt8.ofNat (v / 2 ^ 8), UInt8.ofNat v]

/-- `sys_get_be16`, on the two bytes it reads. -/
def be16Value (b1 b0 : UInt8) : Nat := b1.toNat * 2 ^ 8 + b0.toNat

theorem be16Value_lt (b1 b0 : UInt8) : be16Value b1 b0 < 2 ^ 16 := by
  have h1 := b1.toNat_lt
  have h0 := b0.toNat_lt
  unfold be16Value
  omega

theorem be16Value_be16 {v : Nat} (h : v < 2 ^ 16) :
    be16Value (UInt8.ofNat (v / 2 ^ 8)) (UInt8.ofNat v) = v := by
  simp only [be16Value, UInt8.toNat_ofNat']
  omega

theorem be16_be16Value (b1 b0 : UInt8) : be16 (be16Value b1 b0) = [b1, b0] := by
  have h1 := b1.toNat_lt
  have h0 := b0.toNat_lt
  simp only [be16, List.cons.injEq, and_true]
  constructor <;> apply UInt8.toNat.inj <;> simp only [be16Value, UInt8.toNat_ofNat'] <;> omega

/-- The bytes of `sys_cpu_to_be32`, in memory order. -/
def be32 (v : Nat) : List UInt8 :=
  [UInt8.ofNat (v / 2 ^ 24), UInt8.ofNat (v / 2 ^ 16), UInt8.ofNat (v / 2 ^ 8), UInt8.ofNat v]

/-- `sys_get_be32`, on the four bytes it reads. -/
def be32Value (b3 b2 b1 b0 : UInt8) : Nat :=
  b3.toNat * 2 ^ 24 + b2.toNat * 2 ^ 16 + b1.toNat * 2 ^ 8 + b0.toNat

@[simp] theorem length_be32 (v : Nat) : (be32 v).length = 4 := rfl

theorem be32Value_be32 {v : Nat} (h : v < 2 ^ 32) :
    be32Value (UInt8.ofNat (v / 2 ^ 24)) (UInt8.ofNat (v / 2 ^ 16)) (UInt8.ofNat (v / 2 ^ 8))
      (UInt8.ofNat v) = v := by
  simp only [be32Value, UInt8.toNat_ofNat']
  omega

end SdkNrf
