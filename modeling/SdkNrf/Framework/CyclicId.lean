import Mathlib

/-!
# Cyclic ids

Epochs are numbered without end, but what is sent in an epoch carries only a cyclic id of it.
-/

namespace SdkNrf

/-- Epochs that are less than `window` apart have different ids. -/
def Distinguishes {ι : Type} (id : Nat → ι) (window : Nat) : Prop :=
  ∀ ⦃m n⦄, m ≤ n → n < m + window → id m = id n → m = n

/-- The id starts at 0, and afterwards it takes the values from 1 to `period` in turn. -/
def cyclicId (period : Nat) : Nat → Nat
  | 0 => 0
  | n + 1 => n % period + 1

namespace Distinguishes

variable {ι κ : Type} {id : Nat → ι} {window m n : Nat}

theorem eq_iff (h : Distinguishes id window) (hle : m ≤ n) (hlt : n < m + window) :
    id m = id n ↔ m = n := by
  constructor
  · exact h hle hlt
  · rintro rfl
    rfl

theorem of_comp (f : κ → ι) {id' : Nat → κ} (h : Distinguishes id window) (hid : ∀ n, f (id' n) = id n) :
    Distinguishes id' window := by
  intro m n hle hlt heq
  apply h hle hlt
  rw [← hid m, heq, hid n]

end Distinguishes

section

variable {period : Nat}

theorem cyclicId_le (hperiod : 0 < period) (n : Nat) : cyclicId period n ≤ period := by
  cases n with
  | zero => exact Nat.zero_le _
  | succ n => exact Nat.mod_lt n hperiod

theorem cyclicId_succ (hperiod : 0 < period) (n : Nat) :
    cyclicId period (n + 1) = if cyclicId period n = period then 1 else cyclicId period n + 1 := by
  cases n with
  | zero =>
    have hne : ¬ 0 = period := by omega
    simp [cyclicId, hne]
  | succ n =>
    have hlt := Nat.mod_lt n hperiod
    by_cases hlast : n % period + 1 = period
    · have hmod : (n + 1) % period = 0 := by
        rw [← Nat.mod_add_mod, hlast, Nat.mod_self]
      simp [cyclicId, hlast, hmod]
    · have hmod : (n + 1) % period = n % period + 1 := by
        rw [← Nat.mod_add_mod]
        exact Nat.mod_eq_of_lt (by omega)
      simp [cyclicId, hlast, hmod]

theorem cyclicId_distinguishes (period : Nat) : Distinguishes (cyclicId period) period := by
  intro m n hle hlt heq
  cases m with
  | zero =>
    cases n with
    | zero => rfl
    | succ n => simp [cyclicId] at heq
  | succ m =>
    cases n with
    | zero => simp [cyclicId] at heq
    | succ n =>
      have hmod : m ≡ n [MOD period] := Nat.succ_injective heq
      have hdvd := (Nat.modEq_iff_dvd' (by omega)).mp hmod
      have hzero := Nat.eq_zero_of_dvd_of_lt hdvd (by omega)
      omega

end

end SdkNrf
