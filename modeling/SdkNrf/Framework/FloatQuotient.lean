import Mathlib

/-!
# Truncated floating-point quotients

Dividing two integers with `/` and converting the result back with `int(...)` goes through a binary64 number:
the exact quotient is rounded to 53 significant bits, ties to even, and the result is truncated towards zero.
-/

namespace SdkNrf

/-- The quotient `n / d` rounded to the nearest integer, ties to even. -/
def roundHalfEven (n d : Nat) : Nat :=
  let q := n / d
  let r := n % d
  if 2 * r < d then q
  else if d < 2 * r then q + 1
  else if q % 2 = 0 then q else q + 1

/-- `int(n / d)` for natural numbers. The integer part of the quotient has `bits` bits, which
leaves `53 - bits` bits for the fraction. -/
def truncQuotientNat (n d : Nat) : Nat :=
  let bits := Nat.size (n / d)
  if bits ≤ 53 then roundHalfEven (n * 2 ^ (53 - bits)) d / 2 ^ (53 - bits)
  else roundHalfEven n (d * 2 ^ (bits - 53)) * 2 ^ (bits - 53)

/-- `int(n / d)` for an integer `n` and a positive `d`. -/
def truncQuotient (n : Int) (d : Nat) : Int := n.sign * truncQuotientNat n.natAbs d

theorem truncQuotient_nonneg {n : Int} (d : Nat) (h : 0 ≤ n) : 0 ≤ truncQuotient n d :=
  Int.mul_nonneg (Int.sign_nonneg_iff.mpr h) (Int.natCast_nonneg _)

theorem roundHalfEven_le (n d : Nat) : roundHalfEven n d ≤ n / d + 1 := by
  rw [roundHalfEven]
  split_ifs <;> omega

theorem le_roundHalfEven (n d : Nat) : n / d ≤ roundHalfEven n d := by
  rw [roundHalfEven]
  split_ifs <;> omega

/-- A quotient is rounded up only when its fraction is at least one half. -/
theorem le_two_mul_mod {n d : Nat} (h : roundHalfEven n d = n / d + 1) : d ≤ 2 * (n % d) := by
  rw [roundHalfEven] at h
  split_ifs at h <;> omega

/-- Rounding to 53 bits does not reach the next integer. -/
theorem truncQuotientNat_eq_div {n d : Nat} (hd : 0 < d) (hn : n < 2 ^ 53) (hd' : d ≤ 2 ^ 53) :
    truncQuotientNat n d = n / d := by
  have hbits : Nat.size (n / d) ≤ 53 := Nat.size_le.mpr ((Nat.div_le_self n d).trans_lt hn)
  rw [truncQuotientNat, if_pos hbits]
  set M := 2 ^ (53 - Nat.size (n / d)) with hM
  have hMpos : 0 < M := Nat.two_pow_pos _
  have hfloor : n * M / d / M = n / d := by
    rw [Nat.div_div_eq_div_mul, Nat.mul_div_mul_right n d hMpos]
  by_cases hup : roundHalfEven (n * M) d = n * M / d + 1
  · have hlarge := le_two_mul_mod hup
    rw [hup]
    by_contra hne
    -- The fraction is so close to one that the divisor is larger than it can be.
    have hnext : n * M / d + 1 = n / d * M + M := by
      have hle := Nat.div_mul_le_self (n * M / d) M
      have hlt := Nat.lt_div_mul_add (a := n * M / d) hMpos
      rw [hfloor] at hle hlt
      by_contra hless
      apply hne
      rw [Nat.div_eq_iff hMpos]
      constructor <;> omega
    have hrem := Nat.div_add_mod (n * M) d
    have hlt : n < d * (n / d + 1) := Nat.lt_mul_div_succ n hd
    have htwo : 2 * M ≤ d := by nlinarith
    rcases Nat.eq_zero_or_pos (Nat.size (n / d)) with hzero | hpos
    · rw [hM, hzero] at htwo
      omega
    · have hq : 2 ^ (Nat.size (n / d) - 1) ≤ n / d := by
        rw [← Nat.lt_size]
        omega
      have hprod : 2 * M * 2 ^ (Nat.size (n / d) - 1) = 2 ^ 53 := by
        rw [hM, ← pow_succ', ← pow_add]
        congr 1
        omega
      have hmul := Nat.mul_le_mul htwo hq
      have hle := Nat.mul_div_le n d
      omega
  · have hdown : roundHalfEven (n * M) d = n * M / d := by
      have h1 := roundHalfEven_le (n * M) d
      have h2 := le_roundHalfEven (n * M) d
      omega
    rw [hdown, hfloor]

theorem truncQuotient_eq_ediv {n : Int} {d : Nat} (hd : 0 < d) (hn0 : 0 ≤ n) (hn : n < 2 ^ 53)
    (hd' : d ≤ 2 ^ 53) : truncQuotient n d = n / (d : Int) := by
  obtain ⟨m, rfl⟩ := Int.eq_ofNat_of_zero_le hn0
  have hm : m < 2 ^ 53 := by exact_mod_cast hn
  rw [truncQuotient, Int.natAbs_natCast, truncQuotientNat_eq_div hd hm hd']
  rcases Nat.eq_zero_or_pos m with rfl | hpos
  · simp
  · rw [Int.sign_natCast_of_ne_zero (by omega), one_mul, Int.natCast_ediv]

end SdkNrf
