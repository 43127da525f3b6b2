import SdkNrf.Mesh.LevelDelta
import SdkNrf.Mesh.LightCtrl

/-!
# One step of the illuminance regulator

The regulator should leave the light alone in a dead zone around the target, move its sum towards the target
otherwise, and run again after its interval.
-/

namespace SdkNrf.Mesh.LightCtrl

/-- The input of the regulator before it is narrowed to `int16_t`. -/
def regDiff (lux ambient : UInt32) (accuracy : UInt8) : Option UInt32 :=
  let error := lux - ambient
  let accuracy := accuracy.toUInt32 * lux / 200
  if error > accuracy then some (error - accuracy)
  else if error < -accuracy then some (error + accuracy)
  else none

theorem regInput_eq (lux ambient : UInt32) (accuracy : UInt8) :
    regInput lux ambient accuracy =
      (regDiff lux ambient accuracy).map fun diff => asSigned 16 diff.toNat := by
  simp only [regInput, regDiff]
  split
  · rfl
  · split <;> rfl

section Step

variable (C : LightCtrlConfig) (srv : LightCtrl) (input : Int)

def regProduct : Int :=
  input * C.regInterval.toNat * (if 0 ≤ input then srv.regCfg.kiu else srv.regCfg.kid).toNat

def regSum : Int :=
  if 0 ≤ input then min 65535 (srv.regI.toNat + regIntegral C input srv.regCfg.kiu)
  else max 0 (srv.regI.toNat + regIntegral C input srv.regCfg.kid)

def regResult : Int :=
  let regI := (UInt16.ofInt (srv.regSum C input)).toNat
  if 0 ≤ input then min 65535 (regI + input * srv.regCfg.kpu.toNat)
  else max 0 (regI + input * srv.regCfg.kpd.toNat)

theorem regOutput_eq : srv.regOutput C input =
    (.ofInt (srv.regSum C input), .ofInt (srv.regResult C input)) := by
  rw [regOutput, regResult, regSum]
  split <;> rfl

structure RegExact (diff : UInt32) : Prop where
  input : asSigned 16 diff.toNat = asSigned 32 diff.toNat
  product : -2 ^ 31 ≤ srv.regProduct C (asSigned 16 diff.toNat) ∧
    srv.regProduct C (asSigned 16 diff.toNat) < 2 ^ 31
  integral : regIntegral C (asSigned 16 diff.toNat)
      (if 0 ≤ asSigned 16 diff.toNat then srv.regCfg.kiu else srv.regCfg.kid) =
    (srv.regProduct C (asSigned 16 diff.toNat)).tdiv 1000
  sum : 0 ≤ srv.regSum C (asSigned 16 diff.toNat) ∧
    srv.regSum C (asSigned 16 diff.toNat) ≤ 65535
  result : 0 ≤ srv.regResult C (asSigned 16 diff.toNat) ∧
    srv.regResult C (asSigned 16 diff.toNat) ≤ 65535

def regError : Int := srv.luxGet.val1 - srv.ambientLux.val1

/-- One step does what the regulator is for. -/
structure StepRight : Prop where
  deadZone : 200 * |srv.regError| ≤ srv.regCfg.accuracy.toNat * srv.luxGet.val1 →
    (srv.regStep C).lightness = srv.lightness
  up : srv.regCfg.accuracy.toNat * srv.luxGet.val1 < 200 * srv.regError →
    srv.regI ≤ (srv.regStep C).regI
  down : srv.regCfg.accuracy.toNat * srv.luxGet.val1 < -(200 * srv.regError) →
    (srv.regStep C).regI ≤ srv.regI
  exact : ∀ diff, regDiff (.ofInt srv.luxGet.val1) (.ofInt srv.ambientLux.val1)
    srv.regCfg.accuracy = some diff → srv.RegExact C diff
  scheduled : (srv.regStep C).regTimer = some C.regInterval

end Step

theorem toNat_ofInt32 (v : Int) : ((UInt32.ofInt v).toNat : Int) = v % 2 ^ 32 := by
  rw [UInt32.ofInt, UInt32.toNat_ofNat']
  omega

theorem asSigned_ofInt {n : Nat} (hn : n ≤ 32) (v : Int) :
    asSigned n (UInt32.ofInt v).toNat = v.bmod (2 ^ n) := by
  have hdvd : ((2 ^ n : Nat) : Int) ∣ 2 ^ 32 := by exact_mod_cast pow_dvd_pow 2 hn
  rw [asSigned, BitVec.toInt_ofNat', toNat_ofInt32, ← Int.emod_bmod, Int.emod_emod_of_dvd v hdvd,
    Int.emod_bmod]

theorem asSigned_of_fits {n : Nat} {v : Int} (hn : n ≤ 32) (hlo : -2 ^ n ≤ v * 2)
    (hhi : v * 2 < 2 ^ n) : asSigned n (UInt32.ofInt v).toNat = v := by
  rw [asSigned_ofInt hn]
  exact Int.bmod_eq_of_le_mul_two (by exact_mod_cast hlo) (by exact_mod_cast hhi)

theorem fits_of_asSigned {v : Int} (h : asSigned 16 (UInt32.ofInt v).toNat = v) :
    -2 ^ 15 ≤ v ∧ v < 2 ^ 15 := by
  have hle := BitVec.le_toInt (BitVec.ofNat 16 (UInt32.ofInt v).toNat)
  have hlt := BitVec.toInt_lt (x := BitVec.ofNat 16 (UInt32.ofInt v).toNat)
  rw [asSigned] at h
  omega

section Step

variable (C : LightCtrlConfig) {srv : LightCtrl}

theorem regIntegral_eq (input : Int) (k : UInt16) :
    regIntegral C input k = input * C.regInterval.toNat * k.toNat % 2 ^ 32 / 1000 := by
  have hread := toNat_ofInt32 (input * C.regInterval.toNat * k.toNat)
  have hquot : ((UInt32.ofInt (input * C.regInterval.toNat * k.toNat) / 1000).toNat : Int) =
      input * C.regInterval.toNat * k.toNat % 2 ^ 32 / 1000 := by
    rw [UInt32.toNat_div, Int.natCast_ediv, hread]
    rfl
  rw [regIntegral, asSigned, BitVec.toInt_ofNat', hquot]
  apply Int.bmod_eq_of_le_mul_two <;> omega

theorem regStep_of_diff {diff : UInt32} (henabled : srv.controlled = true)
    (h : regDiff (.ofInt srv.luxGet.val1) (.ofInt srv.ambientLux.val1) srv.regCfg.accuracy
      = some diff) :
    srv.regStep C =
      { ({ srv with regI := .ofInt (srv.regSum C (asSigned 16 diff.toNat)) }.regLightSet C
          (.ofInt (srv.regResult C (asSigned 16 diff.toNat)))) with
        regTimer := some C.regInterval } := by
  have hinput : regInput (.ofInt srv.luxGet.val1) (.ofInt srv.ambientLux.val1)
      srv.regCfg.accuracy = some (asSigned 16 diff.toNat) := by
    rw [regInput_eq, h]
    rfl
  simp only [regStep, hinput, regOutput_eq, henabled]
  rfl

theorem regStep_of_none (h : regDiff (.ofInt srv.luxGet.val1) (.ofInt srv.ambientLux.val1)
    srv.regCfg.accuracy = none) : srv.regStep C = srv := by
  have hinput : regInput (.ofInt srv.luxGet.val1) (.ofInt srv.ambientLux.val1)
      srv.regCfg.accuracy = none := by
    rw [regInput_eq, h]
    rfl
  simp only [regStep, hinput, ite_self]

theorem regI_regStep {diff : UInt32} (henabled : srv.controlled = true)
    (h : regDiff (.ofInt srv.luxGet.val1) (.ofInt srv.ambientLux.val1) srv.regCfg.accuracy
      = some diff) :
    (srv.regStep C).regI = .ofInt (srv.regSum C (asSigned 16 diff.toNat)) := by
  rw [regStep_of_diff C henabled h]
  obtain ⟨_, _, heq⟩ := regLightSet_frame C
    { srv with regI := .ofInt (srv.regSum C (asSigned 16 diff.toNat)) }
    (.ofInt (srv.regResult C (asSigned 16 diff.toNat)))
  rw [heq]

end Step

/-- What one step reads of the configuration, the sensor and the regulator; the illuminance of the
states is left out of the configuration, as the target follows from it. -/
structure RegInputs where
  cfg : LightCtrlRegCfg
  target : Nat
  ambient : Nat
  regI : UInt16
  accuracy_le : cfg.accuracy ≤ 100
  target_lt : target < 2 ^ 24
  ambient_lt : ambient < 2 ^ 24

namespace RegInputs

variable (C : LightCtrlConfig) (x : RegInputs)

structure Of (srv : LightCtrl) : Prop where
  enabled : srv.controlled = true
  expired : srv.regTimer = none
  cfg : srv.regCfg = { x.cfg with lux := srv.regCfg.lux }
  target : srv.luxGet.val1 = x.target
  ambient : srv.ambientLux.val1 = x.ambient
  regI : srv.regI = x.regI

def error : Int := x.target - x.ambient

def deadZone : Nat := x.cfg.accuracy.toNat * x.target / 200

/-- The target is above the dead zone, and the integral part fits; or it is below the dead zone, and
there is no integral part. -/
def Fits : Prop :=
  (x.deadZone < x.error ∧ x.error - x.deadZone < 2 ^ 15 ∧
    (x.error - x.deadZone) * C.regInterval.toNat * x.cfg.kiu.toNat < 2 ^ 31) ∨
  (x.error < -x.deadZone ∧ -2 ^ 15 ≤ x.error - x.deadZone ∧ x.cfg.kid = 0)

/-- A server that reads these values: the regulator has raised the light above a level that cannot
be raised any more, and the lamp has been off since. -/
def server : LightCtrl :=
  { blank C with
    controlled := true
    flags := { (blank C).flags with regulator := true }
    cfg := { C.cfg with light := ⟨65535, 65535, 65535⟩ }
    regCfg := { x.cfg with lux := ⟨⟨x.target, 0⟩, ⟨x.target, 0⟩, ⟨x.target, 0⟩⟩ }
    ambientLux := ⟨x.ambient, 0⟩
    regI := x.regI }

theorem of_server : x.Of (x.server C) := ⟨rfl, rfl, rfl, rfl, rfl, rfl⟩

theorem deadZone_lt : x.deadZone < 2 ^ 23 + 1 := by
  have hacc : x.cfg.accuracy.toNat ≤ 100 := UInt8.le_iff_toNat_le.mp x.accuracy_le
  have hmul : x.cfg.accuracy.toNat * x.target ≤ 100 * 2 ^ 24 :=
    Nat.mul_le_mul hacc x.target_lt.le
  simp only [deadZone]
  omega

theorem toNat_accuracy : (x.cfg.accuracy.toUInt32 * .ofInt x.target / 200).toNat = x.deadZone := by
  have hacc : x.cfg.accuracy.toNat ≤ 100 := UInt8.le_iff_toNat_le.mp x.accuracy_le
  have hmul : x.cfg.accuracy.toNat * x.target ≤ 100 * 2 ^ 24 :=
    Nat.mul_le_mul hacc x.target_lt.le
  have htarget := x.target_lt
  have hread : (UInt32.ofInt x.target).toNat = x.target := by
    have := toNat_ofInt32 x.target
    omega
  rw [UInt32.toNat_div, UInt32.toNat_mul, hread, UInt8.toNat_toUInt32, Nat.mod_eq_of_lt (by omega)]
  rfl

theorem regDiff_eq : regDiff (.ofInt x.target) (.ofInt x.ambient) x.cfg.accuracy =
    if x.deadZone < x.error ∨ x.error < 0 then some (.ofInt (x.error - x.deadZone))
    else if 0 < x.deadZone then some (.ofInt (x.error + x.deadZone))
    else none := by
  have htarget := x.target_lt
  have hambient := x.ambient_lt
  have hzone := x.deadZone_lt
  have herror : x.error = x.target - x.ambient := rfl
  have hacc : x.cfg.accuracy.toUInt32 * .ofInt x.target / 200 = .ofInt x.deadZone := by
    apply UInt32.toNat_inj.mp
    have := toNat_ofInt32 x.deadZone
    have := x.toNat_accuracy
    omega
  have hdiff : UInt32.ofInt x.target - .ofInt x.ambient = .ofInt x.error := by
    rw [herror, Int.sub_eq_add_neg, UInt32.ofInt_add, UInt32.ofInt_neg, UInt32.sub_eq_add_neg]
  have herr := toNat_ofInt32 x.error
  have hdz := toNat_ofInt32 x.deadZone
  have hneg := toNat_ofInt32 (-x.deadZone)
  have hupper : UInt32.ofInt x.error > .ofInt x.deadZone ↔ x.deadZone < x.error ∨ x.error < 0 := by
    rw [gt_iff_lt, UInt32.lt_iff_toNat_lt]
    omega
  simp only [regDiff, hacc, hdiff, hupper]
  split
  · rw [Int.sub_eq_add_neg, UInt32.ofInt_add, UInt32.ofInt_neg, UInt32.sub_eq_add_neg]
  · next hnot =>
    have hlower : UInt32.ofInt x.error < -UInt32.ofInt x.deadZone ↔ 0 < x.deadZone := by
      rw [← UInt32.ofInt_neg, UInt32.lt_iff_toNat_lt]
      omega
    simp only [hlower, UInt32.ofInt_add]

namespace Of

variable {C x} {srv : LightCtrl} (h : x.Of srv)
include h

theorem regDiff_eq : regDiff (.ofInt srv.luxGet.val1) (.ofInt srv.ambientLux.val1)
    srv.regCfg.accuracy =
      if x.deadZone < x.error ∨ x.error < 0 then some (.ofInt (x.error - x.deadZone))
      else if 0 < x.deadZone then some (.ofInt (x.error + x.deadZone))
      else none := by
  rw [h.target, h.ambient, h.cfg]
  exact x.regDiff_eq

theorem regError_eq : srv.regError = x.error := by
  rw [regError, h.target, h.ambient, error]

theorem kiu_eq : srv.regCfg.kiu = x.cfg.kiu := by rw [h.cfg]

theorem kid_eq : srv.regCfg.kid = x.cfg.kid := by rw [h.cfg]

theorem zone_eq : (srv.regCfg.accuracy.toNat * srv.luxGet.val1 : Int) =
    (x.cfg.accuracy.toNat * x.target : Nat) := by
  rw [h.target, h.cfg]
  simp

end Of

theorem zone_lt_iff (e : Int) :
    ((x.cfg.accuracy.toNat * x.target : Nat) : Int) < 200 * e ↔ x.deadZone < e := by
  rw [deadZone]
  omega

theorem zone_nonneg : 0 ≤ ((x.cfg.accuracy.toNat * x.target : Nat) : Int) := Int.natCast_nonneg _

variable {C x} {srv : LightCtrl}

theorem right_of_above (h : x.Of srv) (habove : x.deadZone < x.error)
    (hinput : x.error - x.deadZone < 2 ^ 15)
    (hproduct : (x.error - x.deadZone) * C.regInterval.toNat * x.cfg.kiu.toNat < 2 ^ 31) :
    StepRight C srv := by
  have hdiff := h.regDiff_eq
  rw [if_pos (.inl habove)] at hdiff
  have h16 : asSigned 16 (UInt32.ofInt (x.error - x.deadZone)).toNat = x.error - x.deadZone :=
    asSigned_of_fits (by decide) (by omega) (by omega)
  have h32 : asSigned 32 (UInt32.ofInt (x.error - x.deadZone)).toNat = x.error - x.deadZone :=
    asSigned_of_fits (by decide) (by omega) (by omega)
  have hnonneg : 0 ≤ x.error - x.deadZone := by omega
  have hproduct0 : 0 ≤ (x.error - x.deadZone) * C.regInterval.toNat * x.cfg.kiu.toNat := by
    positivity
  have hproduct_eq : srv.regProduct C (x.error - x.deadZone) =
      (x.error - x.deadZone) * C.regInterval.toNat * x.cfg.kiu.toNat := by
    rw [regProduct, if_pos hnonneg, h.kiu_eq]
  have hintegral : regIntegral C (x.error - x.deadZone) x.cfg.kiu =
      (x.error - x.deadZone) * C.regInterval.toNat * x.cfg.kiu.toNat / 1000 := by
    rw [regIntegral_eq, Int.emod_eq_of_lt hproduct0 (by omega)]
  have hsum : srv.regSum C (x.error - x.deadZone) = min 65535 (srv.regI.toNat +
      (x.error - x.deadZone) * C.regInterval.toNat * x.cfg.kiu.toNat / 1000) := by
    rw [regSum, if_pos hnonneg, h.kiu_eq, hintegral]
  have hregI := srv.regI.toNat_lt
  have hzone := x.zone_nonneg
  constructor
  · intro hdead
    rw [h.regError_eq, h.zone_eq] at hdead
    have := (x.zone_lt_iff x.error).mpr habove
    have := le_abs_self x.error
    omega
  · intro _
    rw [regI_regStep C h.enabled hdiff, h16, UInt16.le_iff_toNat_le]
    have hstored := toNat_ofInt (srv.regSum C (x.error - x.deadZone))
    omega
  · intro hbelow
    rw [h.regError_eq, h.zone_eq] at hbelow
    omega
  · intro diff hsome
    obtain rfl := Option.some.inj (hdiff.symm.trans hsome)
    constructor
    · rw [h16, h32]
    · rw [h16, hproduct_eq]
      omega
    · rw [h16, if_pos hnonneg, h.kiu_eq, hintegral, hproduct_eq, Int.tdiv_eq_ediv_of_nonneg hproduct0]
    · rw [h16]
      omega
    · rw [h16, regResult, if_pos hnonneg]
      have : 0 ≤ (x.error - x.deadZone) * (srv.regCfg.kpu.toNat : Int) := by positivity
      omega
  · rw [regStep_of_diff C h.enabled hdiff]

theorem right_of_below (h : x.Of srv) (hbelow : x.error < -x.deadZone)
    (hinput : -2 ^ 15 ≤ x.error - x.deadZone) (hkid : x.cfg.kid = 0) : StepRight C srv := by
  have hdiff := h.regDiff_eq
  rw [if_pos (.inr (by omega))] at hdiff
  have h16 : asSigned 16 (UInt32.ofInt (x.error - x.deadZone)).toNat = x.error - x.deadZone :=
    asSigned_of_fits (by decide) (by omega) (by omega)
  have h32 : asSigned 32 (UInt32.ofInt (x.error - x.deadZone)).toNat = x.error - x.deadZone :=
    asSigned_of_fits (by decide) (by omega) (by omega)
  have hneg : ¬ 0 ≤ x.error - x.deadZone := by omega
  have hproduct_eq : srv.regProduct C (x.error - x.deadZone) = 0 := by
    rw [regProduct, if_neg hneg, h.kid_eq, hkid]
    simp
  have hintegral : regIntegral C (x.error - x.deadZone) x.cfg.kid = 0 := by
    rw [regIntegral_eq, hkid]
    simp
  have hsum : srv.regSum C (x.error - x.deadZone) = srv.regI.toNat := by
    rw [regSum, if_neg hneg, h.kid_eq, hintegral]
    omega
  have hregI := srv.regI.toNat_lt
  have hzone := x.zone_nonneg
  have hfar := (x.zone_lt_iff (-x.error)).mpr (by omega)
  constructor
  · intro hdead
    rw [h.regError_eq, h.zone_eq] at hdead
    have := neg_le_abs x.error
    omega
  · intro habove
    rw [h.regError_eq, h.zone_eq] at habove
    omega
  · intro _
    rw [regI_regStep C h.enabled hdiff, h16, UInt16.le_iff_toNat_le]
    have hstored := toNat_ofInt (srv.regSum C (x.error - x.deadZone))
    omega
  · intro diff hsome
    obtain rfl := Option.some.inj (hdiff.symm.trans hsome)
    constructor
    · rw [h16, h32]
    · rw [h16, hproduct_eq]
      decide
    · rw [h16, if_neg hneg, h.kid_eq, hintegral, hproduct_eq]
      rfl
    · rw [h16]
      omega
    · rw [h16, regResult, if_neg hneg]
      have hpos : 0 ≤ (x.deadZone - x.error) * (srv.regCfg.kpd.toNat : Int) := by
        apply Int.mul_nonneg
        · omega
        · omega
      have hmul : (x.error - x.deadZone) * (srv.regCfg.kpd.toNat : Int) =
          -((x.deadZone - x.error) * srv.regCfg.kpd.toNat) := by ring
      have := (UInt16.ofInt (srv.regSum C (x.error - x.deadZone))).toNat_lt
      omega
  · rw [regStep_of_diff C h.enabled hdiff]

theorem isOn_regLightSet (regI output : UInt16) :
    (({ x.server C with regI := regI } : LightCtrl).regLightSet C output).lightness.isOn = true := by
  have hlvl : ({ x.server C with regI := regI } : LightCtrl).lightGet = 65535 := rfl
  have hle : ¬ output > 65535 := by
    rw [gt_iff_lt, UInt16.lt_iff_toNat_lt]
    have := output.toNat_lt
    have : (65535 : UInt16).toNat = 65535 := rfl
    omega
  have hrepr : lightToRepr C.lightRepr .linear 65535 = 65535 := by
    cases C.lightRepr <;> decide
  simp only [regLightSet, hlvl, hle, if_false, lightSet, hrepr]
  rfl

theorem not_right_of_deadZone (hupper : x.error ≤ x.deadZone) (hlower : -x.deadZone ≤ x.error) :
    ¬ StepRight C (x.server C) := by
  intro h
  have hof := x.of_server C
  have hdiff := hof.regDiff_eq
  by_cases hdrives : x.error < 0 ∨ 0 < x.deadZone
  · obtain ⟨diff, hsome⟩ : ∃ diff, regDiff (.ofInt (x.server C).luxGet.val1)
        (.ofInt (x.server C).ambientLux.val1) (x.server C).regCfg.accuracy = some diff := by
      rw [hdiff]
      split
      · exact ⟨_, rfl⟩
      · rw [if_pos (by omega)]
        exact ⟨_, rfl⟩
    have hzone : 200 * |(x.server C).regError| ≤
        (x.server C).regCfg.accuracy.toNat * (x.server C).luxGet.val1 := by
      rw [hof.regError_eq, hof.zone_eq]
      have := (x.zone_lt_iff |x.error|).not.mpr (by
        rw [not_lt, abs_le]
        exact ⟨hlower, hupper⟩)
      omega
    have hsame := congrArg LevelSettings.isOn
      (congrArg LevelSrv.toLevelSettings (h.deadZone hzone))
    rw [regStep_of_diff C hof.enabled hsome] at hsame
    exact Bool.false_ne_true (hsame.symm.trans (isOn_regLightSet _ _))
  · have hnone : regDiff (.ofInt (x.server C).luxGet.val1)
        (.ofInt (x.server C).ambientLux.val1) (x.server C).regCfg.accuracy = none := by
      rw [hdiff, if_neg (by omega), if_neg (by omega)]
    have hscheduled := h.scheduled
    rw [regStep_of_none C hnone] at hscheduled
    cases hscheduled

theorem fits_of_right (hinterval : C.regInterval ≠ 0) (h : StepRight C (x.server C)) :
    x.Fits C := by
  have hof := x.of_server C
  have hexact := fun houtside : x.deadZone < x.error ∨ x.error < 0 =>
    h.exact _ (hof.regDiff_eq.trans (if_pos houtside))
  have htarget := x.target_lt
  have hambient := x.ambient_lt
  have hzone := x.deadZone_lt
  have herror : x.error = x.target - x.ambient := rfl
  have h32 : asSigned 32 (UInt32.ofInt (x.error - x.deadZone)).toNat = x.error - x.deadZone :=
    asSigned_of_fits (by decide) (by omega) (by omega)
  by_cases hupper : x.deadZone < x.error
  · obtain ⟨hinput, hproduct, -, -, -⟩ := hexact (.inl hupper)
    have h16 := hinput.trans h32
    have hfits := fits_of_asSigned h16
    rw [h16, regProduct, if_pos (by omega), hof.kiu_eq] at hproduct
    exact .inl ⟨hupper, hfits.2, hproduct.2⟩
  · by_cases hlower : x.error < -x.deadZone
    · obtain ⟨hinput, hproduct, hintegral, -, -⟩ := hexact (.inr (by omega))
      have h16 := hinput.trans h32
      have hfits := fits_of_asSigned h16
      have hneg : ¬ 0 ≤ x.error - x.deadZone := by omega
      rw [h16, regProduct, if_neg hneg, hof.kid_eq] at hproduct
      rw [h16, regProduct, if_neg hneg, regIntegral_eq, hof.kid_eq] at hintegral
      refine .inr ⟨hlower, hfits.1, ?_⟩
      -- a negative product is a large positive number for the division
      by_contra hkid
      have hk : 0 < x.cfg.kid.toNat :=
        Nat.pos_of_ne_zero fun hzero => hkid (UInt16.toNat_inj.mp hzero)
      have hi : 0 < C.regInterval.toNat :=
        Nat.pos_of_ne_zero fun hzero => hinterval (UInt32.toNat_inj.mp hzero)
      have hnegative : (x.error - x.deadZone) * C.regInterval.toNat * x.cfg.kid.toNat < 0 := by
        apply Int.mul_neg_of_neg_of_pos
        · exact Int.mul_neg_of_neg_of_pos (by omega) (by omega)
        · omega
      have hquot : ((x.error - x.deadZone) * C.regInterval.toNat * x.cfg.kid.toNat).tdiv 1000
          ≤ 0 := by
        have := Int.neg_tdiv ((x.error - x.deadZone) * C.regInterval.toNat * x.cfg.kid.toNat) 1000
        have := Int.tdiv_nonneg (a := -((x.error - x.deadZone) * C.regInterval.toNat *
          x.cfg.kid.toNat)) (b := 1000) (by omega) (by decide)
        omega
      omega
    · exact absurd h (not_right_of_deadZone (by omega) (by omega))

/-- What the regulator is for is what it does, in every state, exactly where the target is above the
dead zone and nothing overflows, or below it and there is no integral part. -/
theorem stepRight_iff (hinterval : 10 ≤ C.regInterval ∧ C.regInterval ≤ 100) :
    (∀ srv : LightCtrl, x.Of srv → StepRight C srv) ↔ x.Fits C := by
  constructor
  · intro h
    apply fits_of_right
    · rintro hzero
      rw [hzero] at hinterval
      exact absurd hinterval.1 (by decide)
    · exact h (x.server C) (x.of_server C)
  · rintro (⟨habove, hinput, hproduct⟩ | ⟨hbelow, hinput, hkid⟩) srv hof
    · exact right_of_above hof habove hinput hproduct
    · exact right_of_below hof hbelow hinput hkid

theorem default_accuracy_le : LightCtrlConfig.default.regCfg.accuracy ≤ 100 := by decide

theorem fiveHundred_lt : 500 < 2 ^ 24 := by decide

theorem sixHundred_lt : 600 < 2 ^ 24 := by decide

def dusk : RegInputs :=
  ⟨LightCtrlConfig.default.regCfg, 600, 500, 1000, default_accuracy_le, sixHundred_lt,
    fiveHundred_lt⟩

theorem dusk_right : StepRight .default (dusk.server .default) :=
  (dusk.stepRight_iff (C := .default) ⟨by decide, by decide⟩).mpr
    (.inl ⟨by decide, by decide, by decide⟩) _ (dusk.of_server .default)

def noon : RegInputs :=
  ⟨LightCtrlConfig.default.regCfg, 500, 600, 1000, default_accuracy_le, fiveHundred_lt,
    sixHundred_lt⟩

/-- It is too bright, and the sum of the regulator goes up. -/
theorem not_right_noon : noon.Of (noon.server .default) ∧
    (noon.server .default).regI = 1000 ∧ ((noon.server .default).regStep .default).regI = 35864 ∧
    ¬ StepRight .default (noon.server .default) := by
  have hup : ((noon.server .default).regStep .default).regI = 35864 := by decide
  refine ⟨noon.of_server .default, rfl, hup, fun h => ?_⟩
  have hdown := h.down (by decide)
  rw [hup] at hdown
  exact absurd hdown (by decide)

end RegInputs

end SdkNrf.Mesh.LightCtrl
