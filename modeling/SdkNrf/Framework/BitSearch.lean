import Mathlib

/-!
# Search from the highest bit

The largest number that is not too big, found by setting its bits from the highest one down.
-/

namespace SdkNrf

variable (tooBig : Nat → Prop) [DecidablePred tooBig]

/-- Set the bit `i` of `factor` unless the result is too big. -/
def bitStep (factor i : Nat) : Nat := if tooBig (factor ||| 2 ^ i) then factor else factor ||| 2 ^ i

/-- Set the `n` lowest bits of `factor`, from the highest of them down. -/
def bitSearch (n factor : Nat) : Nat := (List.range n).reverse.foldl (bitStep tooBig) factor

theorem bitSearch_succ (n factor : Nat) :
    bitSearch tooBig (n + 1) factor = bitSearch tooBig n (bitStep tooBig factor n) := by
  simp [bitSearch, List.range_succ]

theorem or_two_pow_of_dvd {n factor : Nat} (h : 2 ^ (n + 1) ∣ factor) :
    factor ||| 2 ^ n = factor + 2 ^ n := by
  obtain ⟨a, rfl⟩ := h
  apply (Nat.two_pow_add_eq_or_of_lt _ a).symm
  exact Nat.pow_lt_pow_right (by decide) (Nat.lt_succ_self n)

/-- The number that is found is the last one that is not too big. -/
theorem bitSearch_spec {n factor : Nat} (hdvd : 2 ^ n ∣ factor) (hlow : ¬ tooBig factor)
    (hhigh : tooBig (factor + 2 ^ n)) :
    ¬ tooBig (bitSearch tooBig n factor) ∧ tooBig (bitSearch tooBig n factor + 1) := by
  induction n generalizing factor with
  | zero => exact ⟨hlow, hhigh⟩
  | succ n ih =>
    have hset := or_two_pow_of_dvd hdvd
    have hpow : 2 ^ (n + 1) = 2 ^ n + 2 ^ n := by rw [pow_succ, Nat.mul_two]
    have hdvd' : 2 ^ n ∣ factor := (pow_dvd_pow 2 (Nat.le_succ n)).trans hdvd
    rw [bitSearch_succ, bitStep, hset]
    split
    · next hbig =>
      apply ih
      · exact hdvd'
      · exact hlow
      · exact hbig
    · next hsmall =>
      apply ih
      · exact Nat.dvd_add hdvd' (Nat.dvd_refl _)
      · exact hsmall
      · rwa [Nat.add_assoc, ← hpow]

end SdkNrf
