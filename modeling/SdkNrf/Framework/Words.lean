import Mathlib

/-!
# Fixed-width integers and little-endian bytes

Values of C integer types are integers here, and a conversion to a type of `w` bits is explicit.
-/

namespace SdkNrf

/-- The value converted to an unsigned type of `w` bits. -/
def toUnsigned (w : Nat) (x : Int) : Int := x % 2 ^ w

/-- The value converted to a signed type of `w` bits. -/
def toSigned (w : Nat) (x : Int) : Int := x.bmod (2 ^ w)

theorem toUnsigned_nonneg (w : Nat) (x : Int) : 0 ≤ toUnsigned w x :=
  Int.emod_nonneg x (by positivity)

theorem toUnsigned_lt (w : Nat) (x : Int) : toUnsigned w x < 2 ^ w :=
  Int.emod_lt_of_pos x (by positivity)

theorem toUnsigned_of_nonneg {w : Nat} {x : Int} (hx : 0 ≤ x) (hlt : x < 2 ^ w) :
    toUnsigned w x = x :=
  Int.emod_eq_of_lt hx hlt

/-- Both conversions keep the value modulo `2 ^ w`. -/
theorem toUnsigned_toSigned (w : Nat) (x : Int) : toUnsigned w (toSigned w x) = toUnsigned w x := by
  simp only [toUnsigned, toSigned]
  have h := Int.bmod_emod (x := x) (m := 2 ^ w)
  push_cast at h
  exact h

theorem toSigned_toUnsigned (w : Nat) (x : Int) : toSigned w (toUnsigned w x) = toSigned w x := by
  have h := Int.emod_bmod (x := x) (n := 2 ^ w)
  push_cast at h
  exact h

theorem toSigned_of_mem {w : Nat} {x : Int} (hge : -2 ^ w ≤ x) (hlt : x < 2 ^ w) :
    toSigned (w + 1) x = x := by
  have hpow : ((2 ^ (w + 1) : Nat) : Int) = 2 * 2 ^ w := by
    push_cast
    ring
  apply Int.bmod_eq_of_le <;> rw [hpow] <;> omega

/-- The low `count` bytes of `n`, the lowest first. -/
def leBytes : Nat → Nat → List UInt8
  | 0, _ => []
  | count + 1, n => UInt8.ofNat n :: leBytes count (n / 256)

def leValue : List UInt8 → Nat
  | [] => 0
  | b :: bytes => b.toNat + 256 * leValue bytes

@[simp] theorem length_leBytes (count n : Nat) : (leBytes count n).length = count := by
  induction count generalizing n with
  | zero => rfl
  | succ count ih => rw [leBytes, List.length_cons, ih]

theorem leValue_leBytes (count n : Nat) : leValue (leBytes count n) = n % 2 ^ (8 * count) := by
  induction count generalizing n with
  | zero => rw [leBytes, leValue, Nat.mul_zero, Nat.pow_zero, Nat.mod_one]
  | succ count ih =>
    have hpow : 2 ^ (8 * (count + 1)) = 256 * 2 ^ (8 * count) := by
      rw [Nat.mul_add, Nat.pow_add, Nat.mul_comm]
    rw [leBytes, leValue, ih, UInt8.toNat_ofNat', hpow, Nat.mod_mul]

theorem leValue_lt (bytes : List UInt8) : leValue bytes < 2 ^ (8 * bytes.length) := by
  induction bytes with
  | nil => simp [leValue]
  | cons b bytes ih =>
    have hb := b.toNat_lt
    rw [leValue, List.length_cons, Nat.mul_add, Nat.pow_add]
    omega

theorem leBytes_leValue {bytes : List UInt8} {count : Nat} (h : bytes.length = count) :
    leBytes count (leValue bytes) = bytes := by
  subst h
  induction bytes with
  | nil => rfl
  | cons b bytes ih =>
    have hb := b.toNat_lt
    rw [leValue, List.length_cons, leBytes, Nat.add_mul_div_left _ _ (by decide),
      Nat.div_eq_of_lt hb, Nat.zero_add, ih, UInt8.ofNat_add, UInt8.ofNat_mul]
    simp

theorem leBytes_inj {count m n : Nat} (hm : m < 2 ^ (8 * count)) (hn : n < 2 ^ (8 * count))
    (h : leBytes count m = leBytes count n) : m = n := by
  have hvalue := congrArg leValue h
  rwa [leValue_leBytes, leValue_leBytes, Nat.mod_eq_of_lt hm, Nat.mod_eq_of_lt hn] at hvalue

end SdkNrf
