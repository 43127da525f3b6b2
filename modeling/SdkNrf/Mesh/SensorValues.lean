import SdkNrf.Mesh.SensorStatus

/-!
# Sensor values as decimals

A sensor value stands for a number of millionths.
-/

namespace SdkNrf.Mesh

namespace SensorValue

/-- The parts are of type `int32_t`, have one sign, and the second one is less than a whole. -/
structure Normal (value : SensorValue) : Prop where
  val1_ge : -2 ^ 31 ≤ value.val1
  val1_lt : value.val1 < 2 ^ 31
  val2_gt : -1000000 < value.val2
  val2_lt : value.val2 < 1000000
  sign : (0 ≤ value.val1 ∧ 0 ≤ value.val2) ∨ (value.val1 ≤ 0 ∧ value.val2 ≤ 0)

/-- The comparison of `sensor_cadence_decode`. -/
def lexLt (a b : SensorValue) : Bool := a.val1 < b.val1 || a.val1 = b.val1 && a.val2 < b.val2

theorem lexLt_iff {a b : SensorValue} (ha : a.Normal) (hb : b.Normal) :
    a.lexLt b = true ↔ sensorMill a < sensorMill b := by
  have hasign := ha.sign
  have hbsign := hb.sign
  have hage := ha.val2_gt
  have halt := ha.val2_lt
  have hbge := hb.val2_gt
  have hblt := hb.val2_lt
  simp only [lexLt, sensorMill, Bool.or_eq_true, Bool.and_eq_true, decide_eq_true_eq]
  omega

end SensorValue

def SensorThreshold.exactDelta (threshold : SensorThreshold) (prev limit : SensorValue) : Int :=
  if threshold.deltaType = .percent then |sensorMill prev| * sensorMill limit / (100 * 1000000)
  else sensorMill limit

/-- The value has risen by more than the upper or has fallen by more than the lower threshold. -/
def DeltaExceeds (sensor : Sensor) (curr : SensorValue) : Prop :=
  (sensorMill sensor.prev < sensorMill curr ∧
    sensor.threshold.exactDelta sensor.prev sensor.threshold.deltaUp <
      sensorMill curr - sensorMill sensor.prev) ∨
  (sensorMill curr < sensorMill sensor.prev ∧
    sensor.threshold.exactDelta sensor.prev sensor.threshold.deltaDown <
      sensorMill sensor.prev - sensorMill curr)

/-- The limit for a change to `curr`. -/
def Sensor.deltaLimit (sensor : Sensor) (curr : SensorValue) : SensorValue :=
  if sensorMill curr < sensorMill sensor.prev then sensor.threshold.deltaDown
  else sensor.threshold.deltaUp

/-- The integer types are wide enough: the difference of the first parts fits `int32_t`, and for a
percentage the previous value in millionths fits `int` and its product with the limit fits `int64_t`. -/
structure DeltaFits (sensor : Sensor) (curr : SensorValue) : Prop where
  diff_ge : -2 ^ 31 ≤ curr.val1 - sensor.prev.val1
  diff_lt : curr.val1 - sensor.prev.val1 < 2 ^ 31
  prev_lt : sensor.threshold.deltaType = .percent → |sensorMill sensor.prev| < 2 ^ 31
  product_lt : sensor.threshold.deltaType = .percent →
    |sensorMill sensor.prev| * |sensorMill (sensor.deltaLimit curr)| < 2 ^ 63

/-- The upper threshold is not below zero, where a percentage is cut towards zero. -/
def SensorThreshold.UpNotNegative (threshold : SensorThreshold) (prev : SensorValue) : Prop :=
  if threshold.deltaType = .percent then
    -(100 * 1000000) < |sensorMill prev| * sensorMill threshold.deltaUp
  else 0 ≤ sensorMill threshold.deltaUp

section Delta

variable {sensor : Sensor} {curr : SensorValue}

def SensorThreshold.cutDelta (threshold : SensorThreshold) (prev limit : SensorValue) : Int :=
  if threshold.deltaType = .percent then
    (|sensorMill prev| * sensorMill limit).tdiv (100 * 1000000)
  else sensorMill limit

theorem sensorDeltaThreshold_of_fits (hprev : sensor.prev.Normal) (hcurr : curr.Normal)
    (hfits : DeltaFits sensor curr) :
    sensorDeltaThreshold sensor curr = true ↔
      sensor.threshold.cutDelta sensor.prev (sensor.deltaLimit curr) <
        |sensorMill curr - sensorMill sensor.prev| := by
  have hdiff := hfits.diff_ge
  have hdiff' := hfits.diff_lt
  have hprev2 := hprev.val2_gt
  have hprev2' := hprev.val2_lt
  have hcurr2 := hcurr.val2_gt
  have hcurr2' := hcurr.val2_lt
  have hdelta : sensorMill ⟨toSigned 32 (curr.val1 - sensor.prev.val1),
      toSigned 32 (curr.val2 - sensor.prev.val2)⟩ = sensorMill curr - sensorMill sensor.prev := by
    rw [toSigned_of_mem (w := 31) hdiff hdiff', toSigned_of_mem (w := 31) (by omega) (by omega)]
    unfold sensorMill
    ring
  have hfall : sensorMill curr - sensorMill sensor.prev < 0 ↔
      sensorMill curr < sensorMill sensor.prev := sub_neg
  unfold sensorDeltaThreshold SensorThreshold.cutDelta
  simp only [hdelta, hfall, ← Sensor.deltaLimit.eq_1, gt_iff_lt, decide_eq_true_eq]
  by_cases hpercent : sensor.threshold.deltaType = .percent
  · have hint := abs_lt.mp (hfits.prev_lt hpercent)
    have hproduct := hfits.product_lt hpercent
    rw [← abs_abs (sensorMill sensor.prev), ← abs_mul] at hproduct
    have hlong := abs_lt.mp hproduct
    rw [if_pos hpercent, if_pos hpercent, toSigned_of_mem (w := 31) hint.1.le hint.2]
    rw [toSigned_of_mem (w := 63) hlong.1.le hlong.2]
  · rw [if_neg hpercent, if_neg hpercent]

theorem cutDelta_lt_iff (threshold : SensorThreshold) (prev limit : SensorValue) {change : Int}
    (hpos : 0 < change) :
    threshold.cutDelta prev limit < change ↔ threshold.exactDelta prev limit < change := by
  unfold SensorThreshold.cutDelta SensorThreshold.exactDelta
  split_ifs
  · generalize |sensorMill prev| * sensorMill limit = product
    by_cases hnonneg : 0 ≤ product
    · rw [Int.tdiv_eq_ediv_of_nonneg hnonneg]
    · have hcut := Int.neg_tdiv product (100 * 1000000)
      rw [Int.tdiv_eq_ediv_of_nonneg (by omega)] at hcut
      omega
  · rfl

theorem cutDelta_neg_iff (threshold : SensorThreshold) (prev : SensorValue) :
    threshold.cutDelta prev threshold.deltaUp < 0 ↔ ¬ threshold.UpNotNegative prev := by
  unfold SensorThreshold.cutDelta SensorThreshold.UpNotNegative
  split_ifs
  · generalize |sensorMill prev| * sensorMill threshold.deltaUp = product
    have hcut := Int.neg_tdiv product (100 * 1000000)
    by_cases hneg : product < 0
    · rw [Int.tdiv_eq_ediv_of_nonneg (by omega)] at hcut
      omega
    · rw [Int.tdiv_eq_ediv_of_nonneg (by omega)]
      omega
  · omega

/-- Where the integer types are wide enough, the delta threshold is right exactly for a value that has
changed and for an upper threshold that is not negative. -/
theorem sensorDeltaThreshold_iff (hprev : sensor.prev.Normal) (hcurr : curr.Normal)
    (hfits : DeltaFits sensor curr) :
    (sensorDeltaThreshold sensor curr = true ↔ DeltaExceeds sensor curr) ↔
      sensorMill curr ≠ sensorMill sensor.prev ∨ sensor.threshold.UpNotNegative sensor.prev := by
  rw [sensorDeltaThreshold_of_fits hprev hcurr hfits]
  unfold DeltaExceeds Sensor.deltaLimit
  rcases lt_trichotomy (sensorMill curr) (sensorMill sensor.prev) with hfall | hsame | hrise
  · rw [if_pos hfall, abs_of_neg (by omega), cutDelta_lt_iff _ _ _ (by omega), neg_sub]
    simp only [hfall, hfall.ne, hfall.not_gt, ne_eq, not_false_eq_true, true_or, false_and,
      false_or, true_and]
  · rw [if_neg (by omega), hsame, sub_self, abs_zero, cutDelta_neg_iff]
    simp
  · rw [if_neg (by omega), abs_of_pos (by omega), cutDelta_lt_iff _ _ _ (by omega)]
    simp only [hrise, hrise.ne', hrise.not_gt, ne_eq, not_false_eq_true, true_or, false_and,
      or_false, true_and]

end Delta

def countedPeople (deltaType : SensorDelta) (up down prev : Int) : Sensor :=
  { initialSensor peopleCount with
    prev := ⟨prev, 0⟩
    threshold := { (initialSensor peopleCount).threshold with
      deltaType := deltaType
      deltaUp := ⟨up, 0⟩
      deltaDown := ⟨down, 0⟩ } }

/-- A rise by a quarter of 2000 people and a threshold of one fifth. -/
theorem countedPeople_delta :
    sensorDeltaThreshold (countedPeople .percent 20 20 2000) ⟨2500, 0⟩ = true ↔
      DeltaExceeds (countedPeople .percent 20 20 2000) ⟨2500, 0⟩ :=
  (sensorDeltaThreshold_iff ⟨by decide, by decide, by decide, by decide, by decide⟩
    ⟨by decide, by decide, by decide, by decide, by decide⟩
    ⟨by decide, by decide, fun _ => by decide, fun _ => by decide⟩).mpr (.inl (by decide))

/-- A rise over the whole range is taken for a fall by one; one fifth above 5000 people is taken for
more than a half; fifty times 2000 people is taken for a negative number; and no change at all exceeds
a negative threshold. -/
theorem countedPeople_delta_wrong :
    (sensorDeltaThreshold (countedPeople .value 1 10 (-2 ^ 31)) ⟨2 ^ 31 - 1, 0⟩ = false ∧
      DeltaExceeds (countedPeople .value 1 10 (-2 ^ 31)) ⟨2 ^ 31 - 1, 0⟩) ∧
    (sensorDeltaThreshold (countedPeople .percent 50 50 5000) ⟨6000, 0⟩ = true ∧
      ¬ DeltaExceeds (countedPeople .percent 50 50 5000) ⟨6000, 0⟩) ∧
    (sensorDeltaThreshold (countedPeople .percent 5000 5000 2000) ⟨2001, 0⟩ = true ∧
      ¬ DeltaExceeds (countedPeople .percent 5000 5000 2000) ⟨2001, 0⟩) ∧
    (sensorDeltaThreshold (countedPeople .value (-1) 1 7) ⟨7, 0⟩ = true ∧
      ¬ DeltaExceeds (countedPeople .value (-1) 1 7) ⟨7, 0⟩) := by
  unfold DeltaExceeds
  decide

end SdkNrf.Mesh
