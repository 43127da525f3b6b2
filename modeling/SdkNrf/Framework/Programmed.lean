import SdkNrf.Framework.WriteOnce
import SdkNrf.Framework.Words

/-!
# Programming an erased memory

The words of an erased memory into which bytes have been programmed from an address on.
-/

namespace SdkNrf

/-- The byte at `a` when `data` is programmed at `address` and everything else is erased. -/
def programmedByte (address : Nat) (data : List UInt8) (a : Nat) : UInt8 :=
  if a < address then 0xFF else data.getD (a - address) 0xFF

def programmed (address : Nat) (data : List UInt8) : WordMemory := fun w =>
  BitVec.ofNat 32 (leValue [programmedByte address data (4 * w),
    programmedByte address data (4 * w + 1), programmedByte address data (4 * w + 2),
    programmedByte address data (4 * w + 3)])

@[simp] theorem lowHalf_ofNat (n : Nat) : lowHalf (BitVec.ofNat 32 n) = BitVec.ofNat 16 n := by
  apply BitVec.eq_of_getLsbD_eq
  intro i hi
  have hi32 : i < 32 := by omega
  rw [getLsbD_lowHalf _ hi, BitVec.getLsbD_ofNat, BitVec.getLsbD_ofNat]
  simp [hi, hi32]

@[simp] theorem highHalf_ofNat (n : Nat) :
    highHalf (BitVec.ofNat 32 n) = BitVec.ofNat 16 (n / 65536) := by
  apply BitVec.eq_of_getLsbD_eq
  intro i hi
  have hi32 : 16 + i < 32 := by omega
  rw [getLsbD_highHalf _ hi, BitVec.getLsbD_ofNat, BitVec.getLsbD_ofNat,
    show 65536 = 2 ^ 16 from rfl, Nat.testBit_div_two_pow, Nat.add_comm i 16]
  simp [hi, hi32]

private theorem ofNat_congr {m n k : Nat} (h : m % 2 ^ k = n % 2 ^ k) :
    BitVec.ofNat k m = BitVec.ofNat k n := by
  apply BitVec.eq_of_toNat_eq
  simpa using h

theorem lowHalf_programmed (address : Nat) (data : List UInt8) (w : Nat) :
    lowHalf (programmed address data w) = BitVec.ofNat 16
      (leValue [programmedByte address data (4 * w), programmedByte address data (4 * w + 1)]) := by
  rw [programmed, lowHalf_ofNat]
  apply ofNat_congr
  simp only [leValue]
  omega

theorem highHalf_programmed (address : Nat) (data : List UInt8) (w : Nat) :
    highHalf (programmed address data w) = BitVec.ofNat 16 (leValue
      [programmedByte address data (4 * w + 2), programmedByte address data (4 * w + 3)]) := by
  rw [programmed, highHalf_ofNat]
  apply ofNat_congr
  have h0 := (programmedByte address data (4 * w)).toNat_lt
  have h1 := (programmedByte address data (4 * w + 1)).toNat_lt
  simp only [leValue]
  omega

theorem programmedByte_at (address : Nat) (data : List UInt8) (off : Nat) :
    programmedByte address data (address + off) = data.getD off 0xFF := by
  rw [programmedByte, if_neg (by omega), Nat.add_sub_cancel_left]

theorem programmedByte_of_prefix {address : Nat} {data field : List UInt8} {off i : Nat}
    (h : field <+: data.drop off) (hi : i < field.length) :
    programmedByte address data (address + off + i) = field[i] := by
  obtain ⟨rest, hrest⟩ := h
  rw [Nat.add_assoc, programmedByte_at, List.getD_eq_getElem?_getD, ← List.getElem?_drop, ← hrest,
    List.getElem?_append_left hi, List.getElem?_eq_getElem hi, Option.getD_some]

theorem programmed_word {address : Nat} {data : List UInt8} {off : Nat} (haddr : address % 4 = 0)
    (hoff : off % 4 = 0) {bytes : List UInt8} (hlen : bytes.length = 4)
    (h : bytes <+: data.drop off) :
    programmed address data ((address + off) / 4) = BitVec.ofNat 32 (leValue bytes) := by
  have hw : 4 * ((address + off) / 4) = address + off := by omega
  obtain ⟨b₀, b₁, b₂, b₃, rfl⟩ := List.length_eq_four.mp hlen
  have h0 : programmedByte address data (address + off) = b₀ :=
    programmedByte_of_prefix (i := 0) h (by simp)
  rw [programmed, hw, h0, programmedByte_of_prefix h (by simp),
    programmedByte_of_prefix h (by simp), programmedByte_of_prefix h (by simp)]
  rfl

end SdkNrf
