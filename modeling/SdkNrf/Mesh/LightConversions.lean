import SdkNrf.Framework.BitSearch
import SdkNrf.Mesh.LevelServers

/-!
# The two representations of light

The square root of `lightness_internal.h` is exact, and both conversions keep the order and the ends of the
range.
-/

namespace SdkNrf.Mesh

theorem lightnessSqrt32_eq_bitSearch (val : Nat) :
    lightnessSqrt32 val = if val = 0 then 0 else bitSearch (fun x => val < x * x) 16 0 := rfl

theorem lightnessSqrt32_eq_sqrt {val : Nat} (h : val < 2 ^ 32) :
    lightnessSqrt32 val = Nat.sqrt val := by
  rw [lightnessSqrt32_eq_bitSearch]
  split
  · next hzero => simp [hzero]
  · have hfound := bitSearch_spec (fun x => val < x * x) (n := 16) (Nat.dvd_zero _)
      (Nat.not_lt_zero val) (by simpa using h)
    exact Nat.eq_sqrt.mpr ⟨Nat.not_lt.mp hfound.1, hfound.2⟩

theorem linearToActual_toNat (linear : UInt16) :
    (linearToActual linear).toNat = Nat.sqrt (65535 * linear.toNat) := by
  have hlt := linear.toNat_lt
  have hroot : Nat.sqrt (65535 * linear.toNat) < 2 ^ 16 := by
    rw [Nat.sqrt_lt]
    omega
  rw [linearToActual, lightnessSqrt32_eq_sqrt (by omega), UInt16.toNat_ofNat']
  exact Nat.mod_eq_of_lt hroot

variable (actual : UInt16)

theorem sq_le : actual.toNat * actual.toNat ≤ 65535 * 65535 := by
  have hlt := actual.toNat_lt
  exact Nat.mul_le_mul (by omega) (by omega)

theorem actualToLinear_toNat :
    (actualToLinear actual).toNat = (actual.toNat * actual.toNat + 65534) / 65535 := by
  have hle := sq_le actual
  rw [actualToLinear, UInt16.toNat_ofNat']
  apply Nat.mod_eq_of_lt
  omega

theorem linearToActual_mono {l l' : UInt16} (h : l ≤ l') : linearToActual l ≤ linearToActual l' := by
  rw [UInt16.le_iff_toNat_le] at h ⊢
  simp only [linearToActual_toNat]
  exact Nat.sqrt_le_sqrt (Nat.mul_le_mul_left _ h)

theorem actualToLinear_mono {a a' : UInt16} (h : a ≤ a') : actualToLinear a ≤ actualToLinear a' := by
  rw [UInt16.le_iff_toNat_le] at h ⊢
  simp only [actualToLinear_toNat]
  apply Nat.div_le_div_right
  exact Nat.add_le_add_right (Nat.mul_le_mul h h) _

@[simp] theorem linearToActual_zero : linearToActual 0 = 0 := by
  rw [← UInt16.toNat_inj, linearToActual_toNat]
  rfl

@[simp] theorem actualToLinear_zero : actualToLinear 0 = 0 := rfl

@[simp] theorem linearToActual_max : linearToActual 65535 = 65535 := by
  rw [← UInt16.toNat_inj, linearToActual_toNat]
  exact Nat.sqrt_eq 65535

@[simp] theorem actualToLinear_max : actualToLinear 65535 = 65535 := rfl

theorem linearToActual_ne_zero {linear : UInt16} (h : linear ≠ 0) : linearToActual linear ≠ 0 := by
  have hpos : 0 < linear.toNat := Nat.pos_of_ne_zero fun hzero => h (UInt16.toNat_inj.mp hzero)
  have hroot : 0 < Nat.sqrt (65535 * linear.toNat) := Nat.sqrt_pos.mpr (by omega)
  intro hzero
  rw [← UInt16.toNat_inj, linearToActual_toNat] at hzero
  exact hroot.ne' hzero

theorem actualToLinear_ne_zero {actual : UInt16} (h : actual ≠ 0) : actualToLinear actual ≠ 0 := by
  have hpos : 0 < actual.toNat := Nat.pos_of_ne_zero fun hzero => h (UInt16.toNat_inj.mp hzero)
  have hsq : 0 < actual.toNat * actual.toNat := Nat.mul_pos hpos hpos
  intro hzero
  rw [← UInt16.toNat_inj, actualToLinear_toNat, UInt16.toNat_zero] at hzero
  omega

theorem sq_le_actualToLinear :
    actual.toNat * actual.toNat ≤ 65535 * (actualToLinear actual).toNat
      ∧ 65535 * (actualToLinear actual).toNat < actual.toNat * actual.toNat + 65535 := by
  rw [actualToLinear_toNat]
  omega

theorem actualToLinear_le_iff (actual linear : UInt16) :
    actualToLinear actual ≤ linear ↔ actual ≤ linearToActual linear := by
  rw [UInt16.le_iff_toNat_le, UInt16.le_iff_toNat_le, actualToLinear_toNat, linearToActual_toNat,
    Nat.le_sqrt]
  omega

theorem le_linearToActual_actualToLinear :
    actual ≤ linearToActual (actualToLinear actual) := by
  apply (actualToLinear_le_iff _ _).mp
  exact UInt16.le_refl _

theorem linearToActual_actualToLinear_iff :
    linearToActual (actualToLinear actual) = actual
      ↔ 65535 * (actualToLinear actual).toNat < (actual.toNat + 1) * (actual.toNat + 1) := by
  have hlow := (sq_le_actualToLinear actual).1
  rw [← UInt16.toNat_inj, linearToActual_toNat, eq_comm, Nat.eq_sqrt]
  exact and_iff_right hlow

theorem linearToActual_actualToLinear {actual : UInt16} (h : 32767 ≤ actual.toNat) :
    linearToActual (actualToLinear actual) = actual := by
  have hhigh := (sq_le_actualToLinear actual).2
  rw [linearToActual_actualToLinear_iff]
  have hnext : (actual.toNat + 1) * (actual.toNat + 1)
      = actual.toNat * actual.toNat + (2 * actual.toNat + 1) := by ring
  omega

/-- The conversions keep the order, the ends of the range and what is not zero; the way from an
actual level to a linear one and back never lowers it, and is exact where the linear representation
is fine enough. -/
structure ConvertsLight : Prop where
  sqrt : ∀ val : UInt32, lightnessSqrt32 val.toNat = Nat.sqrt val.toNat
  toActual_mono : ∀ l l', l ≤ l' → linearToActual l ≤ linearToActual l'
  toLinear_mono : ∀ a a', a ≤ a' → actualToLinear a ≤ actualToLinear a'
  zero : linearToActual 0 = 0 ∧ actualToLinear 0 = 0
  max : linearToActual 65535 = 65535 ∧ actualToLinear 65535 = 65535
  toActual_ne_zero : ∀ l, l ≠ 0 → linearToActual l ≠ 0
  toLinear_ne_zero : ∀ a, a ≠ 0 → actualToLinear a ≠ 0
  back_le : ∀ a, a ≤ linearToActual (actualToLinear a)
  back_iff : ∀ a, linearToActual (actualToLinear a) = a
    ↔ 65535 * ((a.toNat * a.toNat + 65534) / 65535) < (a.toNat + 1) * (a.toNat + 1)
  back_high : ∀ a, 32767 ≤ a.toNat → linearToActual (actualToLinear a) = a

/-- The conversions of the light lightness are monotone, keep the ends, and are inverse from the
middle of the range on. -/
theorem convertsLight : ConvertsLight where
  sqrt val := lightnessSqrt32_eq_sqrt val.toNat_lt
  toActual_mono _ _ := linearToActual_mono
  toLinear_mono _ _ := actualToLinear_mono
  zero := ⟨linearToActual_zero, actualToLinear_zero⟩
  max := ⟨linearToActual_max, actualToLinear_max⟩
  toActual_ne_zero _ := linearToActual_ne_zero
  toLinear_ne_zero _ := actualToLinear_ne_zero
  back_le := le_linearToActual_actualToLinear
  back_iff a := by rw [linearToActual_actualToLinear_iff, actualToLinear_toNat]
  back_high _ := linearToActual_actualToLinear

/-- The lowest levels share a linear level, which stands for the highest of them. -/
theorem not_back_one : linearToActual (actualToLinear 1) = 255 ∧
    ¬ ∀ a, linearToActual (actualToLinear a) = a := by
  have hone : linearToActual (actualToLinear 1) = 255 := by decide
  refine ⟨hone, fun hall => ?_⟩
  have hback := hall 1
  rw [hone] at hback
  cases hback

end SdkNrf.Mesh
