import Mathlib

/-!
# Write-once word memory

Flash that is not erased between writes: a word write can only clear bits, so what is stored afterwards is the
conjunction of the old and the written word.
-/

namespace SdkNrf

abbrev WordMemory := Nat → BitVec 32

namespace WordMemory

def wordWrite (mem : WordMemory) (w : Nat) (val : BitVec 32) : WordMemory :=
  Function.update mem w (mem w &&& val)

@[simp] theorem wordWrite_self (mem : WordMemory) (w : Nat) (val : BitVec 32) :
    mem.wordWrite w val w = mem w &&& val :=
  Function.update_self ..

theorem wordWrite_of_ne (mem : WordMemory) {w u : Nat} (val : BitVec 32) (h : u ≠ w) :
    mem.wordWrite w val u = mem u :=
  Function.update_of_ne h ..

end WordMemory

def lowHalf (word : BitVec 32) : BitVec 16 := (word &&& 0x0000FFFF#32).setWidth 16

def highHalf (word : BitVec 32) : BitVec 16 := ((word >>> 16) &&& 0x0000FFFF#32).setWidth 16

/-- A word whose lower half is `val` and whose upper half is all ones. -/
def lowWord (val : BitVec 16) : BitVec 32 := val.setWidth 32 ||| 0xFFFF0000#32

/-- A word whose upper half is `val` and whose lower half is all ones. -/
def highWord (val : BitVec 16) : BitVec 32 := (val.setWidth 32 <<< 16) ||| 0x0000FFFF#32

variable {i : Nat}

private theorem getLsbD_lowMask (hi : i < 16) : (0x0000FFFF#32).getLsbD i = true := by
  interval_cases i <;> rfl

private theorem getLsbD_lowMask_high (hi : i < 16) :
    (0x0000FFFF#32).getLsbD (16 + i) = false := by
  interval_cases i <;> rfl

private theorem getLsbD_highMask_low (hi : i < 16) :
    (0xFFFF0000#32).getLsbD i = false := by
  interval_cases i <;> rfl

private theorem getLsbD_highMask (hi : i < 16) :
    (0xFFFF0000#32).getLsbD (16 + i) = true := by
  interval_cases i <;> rfl

variable (word : BitVec 32)

theorem getLsbD_lowHalf (hi : i < 16) :
    (lowHalf word).getLsbD i = word.getLsbD i := by
  rw [lowHalf, BitVec.getLsbD_setWidth, BitVec.getLsbD_and, getLsbD_lowMask hi]
  simp [hi]

theorem getLsbD_highHalf (hi : i < 16) :
    (highHalf word).getLsbD i = word.getLsbD (16 + i) := by
  rw [highHalf, BitVec.getLsbD_setWidth, BitVec.getLsbD_and, getLsbD_lowMask hi,
    BitVec.getLsbD_ushiftRight]
  simp [hi]

/-- A word is determined by its halves. -/
theorem word_ext {word word' : BitVec 32} (hlow : lowHalf word = lowHalf word')
    (hhigh : highHalf word = highHalf word') : word = word' := by
  apply BitVec.eq_of_getLsbD_eq
  intro i hi
  by_cases hlt : i < 16
  · rw [← getLsbD_lowHalf word hlt, hlow, getLsbD_lowHalf word' hlt]
  · obtain ⟨j, rfl⟩ := Nat.exists_eq_add_of_le (Nat.not_lt.mp hlt)
    have hj : j < 16 := by omega
    rw [← getLsbD_highHalf word hj, hhigh, getLsbD_highHalf word' hj]

theorem lowHalf_and_lowWord (val : BitVec 16) :
    lowHalf (word &&& lowWord val) = lowHalf word &&& val := by
  apply BitVec.eq_of_getLsbD_eq
  intro i hi
  have hi32 : i < 32 := by omega
  rw [getLsbD_lowHalf _ hi, BitVec.getLsbD_and, BitVec.getLsbD_and, getLsbD_lowHalf _ hi, lowWord,
    BitVec.getLsbD_or, getLsbD_highMask_low hi]
  simp [hi32]

theorem highHalf_and_lowWord (val : BitVec 16) :
    highHalf (word &&& lowWord val) = highHalf word := by
  apply BitVec.eq_of_getLsbD_eq
  intro i hi
  rw [getLsbD_highHalf _ hi, BitVec.getLsbD_and, getLsbD_highHalf _ hi, lowWord,
    BitVec.getLsbD_or, getLsbD_highMask hi]
  simp

theorem lowHalf_and_highWord (val : BitVec 16) :
    lowHalf (word &&& highWord val) = lowHalf word := by
  apply BitVec.eq_of_getLsbD_eq
  intro i hi
  rw [getLsbD_lowHalf _ hi, BitVec.getLsbD_and, getLsbD_lowHalf _ hi, highWord,
    BitVec.getLsbD_or, getLsbD_lowMask hi]
  simp

theorem highHalf_and_highWord (val : BitVec 16) :
    highHalf (word &&& highWord val) = highHalf word &&& val := by
  apply BitVec.eq_of_getLsbD_eq
  intro i hi
  have hi32 : 16 + i < 32 := by omega
  rw [getLsbD_highHalf _ hi, BitVec.getLsbD_and, BitVec.getLsbD_and, getLsbD_highHalf _ hi, highWord,
    BitVec.getLsbD_or, getLsbD_lowMask_high hi, BitVec.getLsbD_shiftLeft]
  simp [hi32, show i < 32 by omega]

end SdkNrf
