import SdkNrf.Mesh.ScalarRoundTrip
import SdkNrf.Mesh.Sensor

/-!
# What the receiver of a scalar reads

`scalar_encode` cuts a value to a raw value and replaces one that is out of range by a code that
depends on the width of the format.
-/

namespace SdkNrf.Mesh

def nearestRaw (format : Format) (val : SensorValue) : Int :=
  if format.userData.flags.divide then (sensorMill val * format.userData.value).tdiv 1000000
  else (sensorMill val).tdiv (1000000 * format.userData.value)

def InRange (format : Format) (raw : Int) : Prop := scalarMin format ≤ raw ∧ raw ≤ scalarMax format

instance (format : Format) (raw : Int) : Decidable (InRange format raw) :=
  inferInstanceAs (Decidable (_ ∧ _))

def valueOf (format : Format) (raw : Int) : SensorValue :=
  ⟨(mulScalar (raw * 1000000) format.userData).tdiv 1000000,
    (mulScalar (raw * 1000000) format.userData).tmod 1000000⟩

/-- The receiver reads the nearest value towards zero, or, if this is out of range, nothing or the highest
value of the format. -/
def ReadRight (format : Format) (val : SensorValue) (rest : NetBuf)
    (read : Except Errno (SensorValue × NetBuf)) : Prop :=
  if InRange format (nearestRaw format val) then
    read = .ok (valueOf format (nearestRaw format val), rest)
  else (∃ e, read = .error e) ∨ read = .ok (valueOf format (scalarMax format), rest)

/-- Whatever bytes the encoder adds, the receiver reads them right. -/
def NeverMisread (format : Format) (val : SensorValue) : Prop :=
  ∀ (buf : NetBuf) (sent rest : List UInt8) (size : Nat),
    scalarEncode format val buf = .ok ⟨buf.data ++ sent, buf.size⟩ →
      ReadRight format val ⟨rest, size⟩ (scalarDecode format ⟨sent ++ rest, size⟩)

/-- What the two parts of a value leave behind whole raw values, as a numerator over `leftoverUnit`. -/
def leftover (format : Format) (val : SensorValue) : Int :=
  if format.userData.flags.divide then (val.val2 * format.userData.value).tmod 1000000
  else val.val1.tmod format.userData.value * 1000000 +
    val.val2.tmod (1000000 * format.userData.value)

def leftoverUnit (format : Format) : Int :=
  if format.userData.flags.divide then 1000000 else 1000000 * format.userData.value

def PartsAdd (format : Format) (val : SensorValue) : Prop :=
  |leftover format val| < leftoverUnit format ∧ 0 ≤ leftover format val * sensorMill val

instance (format : Format) (val : SensorValue) : Decidable (PartsAdd format val) :=
  inferInstanceAs (Decidable (_ ∧ _))

/-- The raw value and its value fit `int32_t`. -/
def RawReadable (format : Format) (raw : Int) : Prop :=
  0 ≤ raw ∧ raw < 2 ^ 31 ∧
    (format.userData.flags.divide = true ∨ raw * format.userData.value < 2 ^ 31)

instance (format : Format) (raw : Int) : Decidable (RawReadable format raw) :=
  inferInstanceAs (Decidable (_ ∧ _ ∧ _))

def Saturates (format : Format) : Bool :=
  format.userData.flags.hasHigherThan || format.userData.flags.hasInvalid ||
    format.userData.flags.hasUndefined

def saturationCode (format : Format) : Int :=
  2 ^ (8 * format.size) - 1 -
    if format.userData.flags.hasHigherThan || format.userData.flags.hasInvalid then 2 else 1

/-- When the receiver reads the value right. Where the parts do not add up, the encoder is one raw value
off, and this is only right where it leaves the range by it. -/
def SendsRight (format : Format) (val : SensorValue) : Prop :=
  if InRange format (nearestRaw format val) then
    if PartsAdd format val then RawReadable format (nearestRaw format val)
    else
      (0 < sensorMill val ∧ nearestRaw format val = scalarMax format ∧
        (Saturates format = true →
          saturationCode format = scalarMax format ∧ RawReadable format (scalarMax format))) ∨
      (sensorMill val < 0 ∧ nearestRaw format val = scalarMin format ∧ Saturates format = false)
  else format ≠ luminousEnergy

section Rounding

variable {k n x : Int}

private theorem tdiv_add_eq_iff_of_nonneg (hk : 0 < k) (hnonneg : 0 ≤ k * n + x) :
    (k * n + x).tdiv k = n ↔ |x| < k ∧ 0 ≤ x * (k * n + x) := by
  have hbounds : (k * n + x).tdiv k = n ↔ 0 ≤ x ∧ x < k := by
    rw [Int.tdiv_eq_ediv_of_nonneg hnonneg, add_comm, Int.add_mul_ediv_left _ _ hk.ne']
    have hmod := Int.emod_add_mul_ediv x k
    have hmodNonneg := Int.emod_nonneg x hk.ne'
    have hmodLt := Int.emod_lt_of_pos x hk
    constructor
    · intro h
      have hzero : x / k = 0 := by omega
      rw [hzero, mul_zero] at hmod
      omega
    · intro h
      rw [Int.ediv_eq_zero_of_lt h.1 h.2, zero_add]
  rw [hbounds, abs_lt]
  constructor
  · intro h
    exact ⟨⟨by omega, h.2⟩, mul_nonneg h.1 hnonneg⟩
  · intro h
    refine ⟨?_, h.1.2⟩
    by_contra hneg
    -- A negative remainder would have to belong to the value zero, which has none.
    have hzero : k * n + x = 0 := by nlinarith [h.2]
    have hn : 1 ≤ n := by nlinarith
    nlinarith

theorem tdiv_add_eq_iff (hk : 0 < k) :
    (k * n + x).tdiv k = n ↔ |x| < k ∧ 0 ≤ x * (k * n + x) := by
  by_cases hnonneg : 0 ≤ k * n + x
  · exact tdiv_add_eq_iff_of_nonneg hk hnonneg
  · have hopposite := tdiv_add_eq_iff_of_nonneg (n := -n) (x := -x) hk (by linarith)
    have hneg : k * -n + -x = -(k * n + x) := by ring
    rw [hneg, Int.neg_tdiv, neg_inj, abs_neg, neg_mul_neg] at hopposite
    exact hopposite

theorem tdiv_add_of_opposite (hlt : |x| < k) (hopposite : x * (k * n + x) < 0) :
    (k * n + x).tdiv k = if 0 < k * n + x then n - 1 else n + 1 := by
  have hbounds := abs_lt.mp hlt
  have hk : 0 < k := by omega
  split_ifs with hpos
  · have hx : x < 0 := by nlinarith
    have hshift : k * n + x = k * (n - 1) + (x + k) := by ring
    rw [hshift]
    apply (tdiv_add_eq_iff hk).mpr
    rw [abs_of_pos (by omega), ← hshift]
    exact ⟨by omega, mul_nonneg (by omega) (by omega)⟩
  · have hx : 0 < x := by nlinarith
    have hshift : k * n + x = k * (n + 1) + (x - k) := by ring
    rw [hshift]
    apply (tdiv_add_eq_iff hk).mpr
    rw [abs_of_neg (by omega), ← hshift]
    exact ⟨by omega, mul_nonneg_of_nonpos_of_nonpos (by omega) (by omega)⟩

theorem tdiv_tdiv_of_pos {a b c : Int} (hb : 0 < b) :
    (a.tdiv b).tdiv c = a.tdiv (c * b) := by
  have hnonneg {d : Int} (hd : 0 ≤ d) : (d.tdiv b).tdiv c = d.tdiv (c * b) := by
    rw [Int.tdiv_eq_ediv_of_nonneg hd, Int.tdiv_eq_ediv_of_nonneg hd,
      Int.tdiv_eq_ediv_of_nonneg (Int.ediv_nonneg hd hb.le), Int.ediv_ediv, if_neg (by omega),
      sub_zero, mul_comm]
  by_cases ha : 0 ≤ a
  · exact hnonneg ha
  · have h : ((-a).tdiv b).tdiv c = (-a).tdiv (c * b) := hnonneg (by omega)
    rwa [Int.neg_tdiv, Int.neg_tdiv, Int.neg_tdiv, neg_inj] at h

end Rounding

section Raw

variable {format : Format} {val : SensorValue}

theorem sensorMill_eq (htab : Tabled format) (val : SensorValue) :
    (if format.userData.flags.divide then sensorMill val * format.userData.value
      else sensorMill val) =
      leftoverUnit format * encodedRaw format val + leftover format val := by
  unfold leftoverUnit encodedRaw leftover divScalar sensorMill
  split_ifs with hdivide
  · have h := Int.mul_tdiv_add_tmod (val.val2 * format.userData.value) 1000000
    linarith
  · have h := Int.mul_tdiv_add_tmod val.val1 format.userData.value
    have h' := Int.mul_tdiv_add_tmod val.val2 (1000000 * format.userData.value)
    rw [tdiv_tdiv_of_pos htab.value_pos]
    linarith

theorem leftoverUnit_pos (htab : Tabled format) : 0 < leftoverUnit format := by
  have hvalue := htab.value_pos
  unfold leftoverUnit
  split_ifs
  · decide
  · omega

theorem nearestRaw_eq (htab : Tabled format) (val : SensorValue) :
    nearestRaw format val =
      (leftoverUnit format * encodedRaw format val + leftover format val).tdiv
        (leftoverUnit format) := by
  rw [← sensorMill_eq htab, nearestRaw, leftoverUnit]
  split_ifs <;> rfl

theorem sum_sign (htab : Tabled format) (val : SensorValue) :
    (0 < leftoverUnit format * encodedRaw format val + leftover format val ↔ 0 < sensorMill val) ∧
      (leftover format val *
          (leftoverUnit format * encodedRaw format val + leftover format val) < 0 ↔
        leftover format val * sensorMill val < 0) := by
  have hvalue := htab.value_pos
  rw [← sensorMill_eq htab]
  split_ifs
  · rw [← mul_assoc]
    refine ⟨mul_pos_iff_of_pos_right hvalue, ?_⟩
    rw [← not_le, ← not_le, mul_nonneg_iff_of_pos_right hvalue]
  · exact ⟨Iff.rfl, Iff.rfl⟩

theorem encodedRaw_eq_nearestRaw_iff (htab : Tabled format) :
    encodedRaw format val = nearestRaw format val ↔ PartsAdd format val := by
  have hsign := (sum_sign htab val).2
  rw [nearestRaw_eq htab, eq_comm, tdiv_add_eq_iff (leftoverUnit_pos htab), PartsAdd]
  apply and_congr_right
  intro _
  rw [← not_lt, ← not_lt, hsign]

theorem abs_leftover_lt (htab : Tabled format) (hluminous : format ≠ luminousEnergy) :
    |leftover format val| < leftoverUnit format := by
  have habs (a : Int) {b : Int} (hb : 0 < b) : |a.tmod b| < b := by
    rw [abs_lt]
    have h := Int.tmod_lt_of_pos a hb
    have h' := Int.tmod_lt_of_pos (-a) hb
    rw [Int.neg_tmod] at h'
    omega
  unfold leftover leftoverUnit
  split_ifs with hdivide
  · exact habs _ (by decide)
  · have hone : format.userData.value = 1 := (htab.multiply hdivide).resolve_right hluminous
    rw [hone, Int.tmod_one, zero_mul, zero_add]
    exact habs _ (by decide)

theorem encodedRaw_of_not_partsAdd (htab : Tabled format) (hluminous : format ≠ luminousEnergy)
    (hparts : ¬ PartsAdd format val) :
    (0 < sensorMill val ∧ encodedRaw format val = nearestRaw format val + 1) ∨
      (sensorMill val < 0 ∧ encodedRaw format val = nearestRaw format val - 1) := by
  have hlt : |leftover format val| < leftoverUnit format := abs_leftover_lt htab hluminous
  obtain ⟨hpos, hneg⟩ := sum_sign htab val
  have hopposite : leftover format val * sensorMill val < 0 := by
    by_contra h
    exact hparts ⟨hlt, not_lt.mp h⟩
  have hround := tdiv_add_of_opposite hlt (hneg.mpr hopposite)
  rw [← nearestRaw_eq htab] at hround
  rcases lt_trichotomy (sensorMill val) 0 with hval | hval | hval
  · rw [if_neg (by rw [hpos]; omega)] at hround
    exact Or.inr ⟨hval, by omega⟩
  · rw [hval, mul_zero] at hopposite
    exact absurd hopposite (lt_irrefl 0)
  · rw [if_pos (hpos.mpr hval)] at hround
    exact Or.inl ⟨hval, by omega⟩

theorem nearestRaw_nonneg (htab : Tabled format) (h : 0 ≤ sensorMill val) :
    0 ≤ nearestRaw format val := by
  have hvalue := htab.value_pos
  unfold nearestRaw
  split_ifs
  · exact Int.tdiv_nonneg (mul_nonneg h hvalue.le) (by decide)
  · exact Int.tdiv_nonneg h (by omega)

theorem nearestRaw_nonpos (htab : Tabled format) (h : sensorMill val ≤ 0) :
    nearestRaw format val ≤ 0 := by
  have hvalue := htab.value_pos
  unfold nearestRaw
  split_ifs
  · rw [← neg_nonneg, ← Int.neg_tdiv]
    exact Int.tdiv_nonneg (by nlinarith) (by decide)
  · rw [← neg_nonneg, ← Int.neg_tdiv]
    exact Int.tdiv_nonneg (by omega) (by omega)

end Raw

section Codes

variable {format : Format}

theorem scalarMin_nonpos (htab : Tabled format) : scalarMin format ≤ 0 := by
  by_cases hs : format.userData.flags.signed = true
  · rw [(htab.signed hs).2.2]
    have : (0 : Int) < 2 ^ (8 * format.size - 1) := by positivity
    omega
  · exact le_of_eq (scalarMin_of_unsigned hs)

private theorem table_evaluated : ∀ format ∈ scalarFormats, 0 < scalarMax format ∧
    (Saturates format = true →
      (InRange format (saturationCode format) → saturationCode format = scalarMax format) ∧
      (¬ InRange format (saturationCode format) →
        scalarDecode format ⟨rawBytes format (saturationCode format), 0⟩ = .error .ERANGE)) ∧
    (if format.userData.flags.hasHigherThan || format.userData.flags.hasInvalid then
        toUnsigned 32 (toUnsigned 32 (2 ^ (8 * format.size) - 1) - 2)
      else toUnsigned 32 (toUnsigned 32 (2 ^ (8 * format.size) - 1) - 1)) = saturationCode format ∧
    (format ≠ luminousEnergy → scalarMax format < 2 ^ 31 →
      format.userData.flags.divide = true ∨
        scalarMax format * format.userData.value < 2 ^ 31) := by
  decide +kernel

theorem scalarMax_pos (hformat : format ∈ scalarFormats) : 0 < scalarMax format :=
  (table_evaluated format hformat).1

theorem saturationCode_of_inRange (hformat : format ∈ scalarFormats)
    (hsaturates : Saturates format = true) (hcode : InRange format (saturationCode format)) :
    saturationCode format = scalarMax format :=
  ((table_evaluated format hformat).2.1 hsaturates).1 hcode

theorem scalarDecode_saturationCode (hformat : format ∈ scalarFormats)
    (hsaturates : Saturates format = true) (hcode : ¬ InRange format (saturationCode format)) :
    scalarDecode format ⟨rawBytes format (saturationCode format), 0⟩ = .error .ERANGE :=
  ((table_evaluated format hformat).2.1 hsaturates).2 hcode

theorem clampRaw_of_not_inRange (hformat : format ∈ scalarFormats) {raw : Int}
    (hraw : ¬ InRange format raw) :
    clampRaw format raw =
      if Saturates format then .ok (saturationCode format) else .error .ERANGE := by
  have hout : raw > scalarMax format ∨ raw < scalarMin format := by
    unfold InRange at hraw
    omega
  have hcode := (table_evaluated format hformat).2.2.1
  unfold clampRaw Saturates
  dsimp only
  rw [if_pos hout]
  split_ifs at hcode ⊢ <;> simp_all

theorem readable_scalarMax (hformat : format ∈ scalarFormats) (hluminous : format ≠ luminousEnergy)
    (hlt : scalarMax format < 2 ^ 31) : RawReadable format (scalarMax format) :=
  ⟨(scalarMax_pos hformat).le, hlt, (table_evaluated format hformat).2.2.2 hluminous hlt⟩

private theorem luminousEnergy_evaluated : luminousEnergy.userData.value = 1000 ∧
    scalarMax luminousEnergy = 16777214 ∧ scalarMin luminousEnergy = 0 ∧
    luminousEnergy.userData.flags.divide = false ∧ Saturates luminousEnergy = true ∧
    InRange luminousEnergy (saturationCode luminousEnergy) := by
  decide +kernel

theorem not_readable_luminousEnergy : ¬ RawReadable luminousEnergy (scalarMax luminousEnergy) := by
  obtain ⟨hvalue, hmax, -, hdivide, -⟩ := luminousEnergy_evaluated
  intro h
  have hfits := h.2.2
  rw [hvalue, hmax, hdivide, or_iff_right Bool.false_ne_true] at hfits
  exact absurd hfits (by decide)

theorem scalarDecode_of_inRange (htab : Tabled format) {raw : Int} (hraw : InRange format raw)
    (rest : List UInt8) (size : Nat) :
    scalarDecode format ⟨rawBytes format raw ++ rest, size⟩ =
      if 0 ≤ raw ∧ raw < 2 ^ 31 then .ok (decoded format raw, ⟨rest, size⟩) else .error .ERANGE := by
  split_ifs with hfits
  · exact scalarDecode_rawBytes htab hraw.1 hraw.2 hfits.1 hfits.2 rest size
  · exact scalarDecode_eq_error htab hraw.1 hraw.2 hfits rest size

private theorem tdiv_million_inj {value code raw : Int} (hpos : 0 < value) (hle : value ≤ 1000000)
    (hnonneg : 0 ≤ code) (h : (code * 1000000).tdiv value = (raw * 1000000).tdiv value) :
    code = raw := by
  rw [Int.tdiv_eq_ediv_of_nonneg (by omega)] at h
  have hcode := Int.emod_add_mul_ediv (code * 1000000) value
  have hcodeNonneg := Int.emod_nonneg (code * 1000000) hpos.ne'
  have hcodeLt := Int.emod_lt_of_pos (code * 1000000) hpos
  by_cases hraw : 0 ≤ raw
  · rw [Int.tdiv_eq_ediv_of_nonneg (by omega)] at h
    have hrawMod := Int.emod_add_mul_ediv (raw * 1000000) value
    have hrawNonneg := Int.emod_nonneg (raw * 1000000) hpos.ne'
    have hrawLt := Int.emod_lt_of_pos (raw * 1000000) hpos
    rw [← h] at hrawMod
    omega
  · -- The quotient of a negative raw value is negative.
    have hneg : 1 ≤ (-(raw * 1000000)) / value := by
      rw [Int.le_ediv_iff_mul_le hpos]
      omega
    have hquot := Int.ediv_nonneg (a := code * 1000000) (by omega) hpos.le
    rw [← neg_neg (raw * 1000000), Int.neg_tdiv, Int.tdiv_eq_ediv_of_nonneg (by omega)] at h
    omega

theorem valueOf_inj_divide (htab : Tabled format) (hdivide : format.userData.flags.divide = true)
    {code raw : Int} (hnonneg : 0 ≤ code) (h : valueOf format code = valueOf format raw) :
    code = raw := by
  simp only [valueOf, SensorValue.mk.injEq, mulScalar, hdivide, if_true] at h
  apply tdiv_million_inj htab.value_pos htab.value_le hnonneg
  rw [← Int.mul_tdiv_add_tmod ((code * 1000000).tdiv format.userData.value) 1000000, h.1, h.2,
    Int.mul_tdiv_add_tmod]

theorem decoded_eq_valueOf_divide (htab : Tabled format)
    (hdivide : format.userData.flags.divide = true) {code : Int} (hnonneg : 0 ≤ code)
    (hlt : code < 2 ^ 31) : decoded format code = valueOf format code := by
  have hvalue := htab.value_pos
  have hq : 0 ≤ code * 1000000 / format.userData.value := Int.ediv_nonneg (by omega) (by omega)
  have hqle : code * 1000000 / format.userData.value ≤ code * 1000000 :=
    Int.ediv_le_self _ (by omega)
  unfold decoded valueOf mulScalar
  simp only [hdivide, if_true]
  rw [Int.tdiv_eq_ediv_of_nonneg (a := code * 1000000) (by omega), Int.tdiv_eq_ediv_of_nonneg hq,
    Int.tmod_eq_emod_of_nonneg hq, toSigned_of_mem (w := 31) (by omega) (by omega),
    toSigned_of_mem (w := 31) (by omega) (by omega)]

theorem decoded_eq_valueOf_multiply (hdivide : ¬ format.userData.flags.divide = true)
    {code raw : Int} :
    decoded format code = valueOf format raw ↔
      toSigned 32 (code * format.userData.value) = raw * format.userData.value := by
  have hswap (x : Int) : x * 1000000 * format.userData.value = x * format.userData.value * 1000000 := by
    ring
  unfold decoded valueOf mulScalar
  simp only [hdivide, if_false, Bool.false_eq_true, hswap, SensorValue.mk.injEq, Int.mul_tmod_left]
  rw [Int.mul_tdiv_cancel _ (by decide), Int.mul_tdiv_cancel _ (by decide)]
  exact and_iff_left rfl

theorem decoded_eq_valueOf_iff (htab : Tabled format) {code raw : Int} (hnonneg : 0 ≤ code)
    (hlt : code < 2 ^ 31) (hcode : InRange format code) (hraw : InRange format raw) :
    decoded format code = valueOf format raw ↔ code = raw ∧ RawReadable format raw := by
  by_cases hdivide : format.userData.flags.divide = true
  · rw [decoded_eq_valueOf_divide htab hdivide hnonneg hlt]
    constructor
    · intro h
      obtain rfl := valueOf_inj_divide htab hdivide hnonneg h
      exact ⟨rfl, hnonneg, hlt, Or.inl hdivide⟩
    · rintro ⟨rfl, -⟩
      rfl
  · rw [decoded_eq_valueOf_multiply hdivide, RawReadable, or_iff_right hdivide]
    rcases htab.multiply hdivide with hone | rfl
    · rw [hone, mul_one, mul_one, toSigned_of_mem (w := 31) (by omega) hlt]
      omega
    · obtain ⟨hthousand, hscalarMax, hscalarMin, -⟩ := luminousEnergy_evaluated
      obtain ⟨hrawMin, hrawMax⟩ := hraw
      have hcodeMax := hcode.2
      have hcongr : toSigned 32 (code * 1000) % 2 ^ 32 = code * 1000 % 2 ^ 32 :=
        toUnsigned_toSigned 32 _
      have hhigh : toSigned 32 (code * 1000) < 2 ^ 31 := Int.bmod_lt (by decide)
      rw [hthousand]
      constructor
      · intro h
        omega
      · rintro ⟨rfl, -, -, hfits⟩
        exact toSigned_of_mem (w := 31) (by omega) hfits

end Codes

section Receiver

variable {format : Format} {val : SensorValue}

theorem inRange_scalarMax (hformat : format ∈ scalarFormats) : InRange format (scalarMax format) :=
  ⟨(scalarMin_nonpos (tabled_of_mem format hformat)).trans (scalarMax_pos hformat).le,
    le_refl _⟩

theorem readRight_of_inRange (hformat : format ∈ scalarFormats) {code : Int}
    (hcode : InRange format code) (rest : List UInt8) (size : Nat) :
    ReadRight format val ⟨rest, size⟩ (scalarDecode format ⟨rawBytes format code ++ rest, size⟩) ↔
      if InRange format (nearestRaw format val) then
        code = nearestRaw format val ∧ RawReadable format (nearestRaw format val)
      else ¬ (0 ≤ code ∧ code < 2 ^ 31) ∨ code = scalarMax format ∧ RawReadable format code := by
  have htab := tabled_of_mem format hformat
  have hread {raw : Int} (hraw : InRange format raw) (hfits : 0 ≤ code ∧ code < 2 ^ 31) :
      (Except.ok (decoded format code, (⟨rest, size⟩ : NetBuf)) : Except Errno _) =
        .ok (valueOf format raw, ⟨rest, size⟩) ↔ code = raw ∧ RawReadable format raw := by
    rw [Except.ok.injEq, Prod.mk.injEq, and_iff_left rfl]
    exact decoded_eq_valueOf_iff htab hfits.1 hfits.2 hcode hraw
  rw [scalarDecode_of_inRange htab hcode, ReadRight]
  by_cases hfits : 0 ≤ code ∧ code < 2 ^ 31
  · rw [if_pos hfits]
    split_ifs with hnear
    · exact hread hnear hfits
    · rw [hread (inRange_scalarMax hformat) hfits]
      constructor
      · rintro (⟨e, he⟩ | ⟨rfl, hmax⟩)
        · cases he
        · exact Or.inr ⟨rfl, hmax⟩
      · rintro (hnot | ⟨rfl, hmax⟩)
        · exact absurd hfits hnot
        · exact Or.inr ⟨rfl, hmax⟩
  · rw [if_neg hfits]
    split_ifs with hnear
    · apply iff_of_false
      · rintro ⟨⟩
      · rintro ⟨rfl, hreadable⟩
        exact hfits ⟨hreadable.1, hreadable.2.1⟩
    · exact iff_of_true (Or.inl ⟨.ERANGE, rfl⟩) (Or.inl hfits)

theorem readRight_of_not_inRange (hformat : format ∈ scalarFormats)
    (hsaturates : Saturates format = true) (hcode : ¬ InRange format (saturationCode format))
    (rest : List UInt8) (size : Nat) :
    ReadRight format val ⟨rest, size⟩
        (scalarDecode format ⟨rawBytes format (saturationCode format) ++ rest, size⟩) ↔
      ¬ InRange format (nearestRaw format val) := by
  have htab := tabled_of_mem format hformat
  have hsize : 0 < format.size ∧ format.size ≤ 4 := by
    rcases htab.size with h | h | h | h <;> omega
  have hlen : (rawBytes format (saturationCode format)).length = format.size := length_leBytes _ _
  have herror : scalarDecode format ⟨rawBytes format (saturationCode format) ++ rest, size⟩ =
      .error .ERANGE := by
    have h := scalarDecode_saturationCode hformat hsaturates hcode
    rw [scalarDecode_eq_pull hsize.1 hsize.2, if_neg (by rw [List.length_append]; omega),
      List.take_append_of_le_length hlen.ge, List.take_of_length_le hlen.le, h]
    rfl
  rw [herror, ReadRight]
  split_ifs with hnear
  · exact iff_of_false (by rintro ⟨⟩) (not_not_intro hnear)
  · exact iff_of_true (Or.inl ⟨.ERANGE, rfl⟩) hnear

theorem neverMisread_iff (htab : Tabled format) :
    NeverMisread format val ↔ ∀ code, clampRaw format (encodedRaw format val) = .ok code →
      ∀ (rest : List UInt8) (size : Nat), ReadRight format val ⟨rest, size⟩
        (scalarDecode format ⟨rawBytes format code ++ rest, size⟩) := by
  have hsent (buf : NetBuf) (code : Int) :
      buf.addLe format.size code = ⟨buf.data ++ rawBytes format code, buf.size⟩ := rfl
  constructor
  · intro h code hcode rest size
    apply h ⟨[], format.size⟩
    rw [scalarEncode_eq htab _ (by simp [NetBuf.tailroom]), hcode]
    rfl
  · intro h buf sent rest size hencode
    by_cases hroom : format.size ≤ buf.tailroom
    · rw [scalarEncode_eq htab _ hroom] at hencode
      cases hcode : clampRaw format (encodedRaw format val) with
      | error e =>
        rw [hcode] at hencode
        cases hencode
      | ok code =>
        rw [hcode, Except.map, Except.ok.injEq, hsent, NetBuf.mk.injEq, List.append_cancel_left_eq]
          at hencode
        rw [← hencode.1]
        exact h code hcode rest size
    · unfold scalarEncode at hencode
      rw [if_pos (by omega)] at hencode
      cases hencode

theorem saturates_luminousEnergy : Saturates luminousEnergy = true :=
  luminousEnergy_evaluated.2.2.2.2.1

/-- Except for luminous energies and exposures, a raw value out of range is computed for every value out of
range. -/
theorem inRange_nearestRaw_of_encodedRaw (hformat : format ∈ scalarFormats)
    (hluminous : format ≠ luminousEnergy) (hraw : InRange format (encodedRaw format val)) :
    InRange format (nearestRaw format val) := by
  have htab := tabled_of_mem format hformat
  have hmin := scalarMin_nonpos htab
  have hmax := scalarMax_pos hformat
  by_cases hparts : PartsAdd format val
  · rwa [(encodedRaw_eq_nearestRaw_iff htab).mpr hparts] at hraw
  · unfold InRange at hraw ⊢
    rcases encodedRaw_of_not_partsAdd htab hluminous hparts with ⟨hval, hone⟩ | ⟨hval, hone⟩
    · have hsign := nearestRaw_nonneg htab hval.le
      omega
    · have hsign := nearestRaw_nonpos htab hval.le
      omega

theorem neverMisread_of_inRange (hformat : format ∈ scalarFormats)
    (hraw : InRange format (encodedRaw format val)) :
    NeverMisread format val ↔ SendsRight format val := by
  have htab := tabled_of_mem format hformat
  have hclamp := clampRaw_of_mem hraw.1 hraw.2
  have hread : NeverMisread format val ↔
      if InRange format (nearestRaw format val) then
        encodedRaw format val = nearestRaw format val ∧ RawReadable format (nearestRaw format val)
      else ¬ (0 ≤ encodedRaw format val ∧ encodedRaw format val < 2 ^ 31) ∨
        encodedRaw format val = scalarMax format ∧ RawReadable format (encodedRaw format val) := by
    rw [neverMisread_iff htab, hclamp]
    simp only [Except.ok.injEq, forall_eq', readRight_of_inRange hformat hraw, forall_const]
  rw [hread, SendsRight, encodedRaw_eq_nearestRaw_iff htab]
  split_ifs with hnear hparts
  · exact and_iff_right hparts
  · rw [iff_false_left (fun h => hparts h.1)]
    by_cases hluminous : format = luminousEnergy
    · subst hluminous
      rintro (⟨-, -, hmax⟩ | ⟨-, -, hnone⟩)
      · exact not_readable_luminousEnergy (hmax saturates_luminousEnergy).2
      · rw [saturates_luminousEnergy] at hnone
        cases hnone
    · unfold InRange at hraw
      rcases encodedRaw_of_not_partsAdd htab hluminous hparts with ⟨hval, hone⟩ | ⟨hval, hone⟩
      · rintro (⟨-, hmax, -⟩ | ⟨hneg, -, -⟩) <;> omega
      · rintro (⟨hpos, -, -⟩ | ⟨-, hmin, -⟩) <;> omega
  · have hluminous : format = luminousEnergy := by
      by_contra hne
      exact hnear (inRange_nearestRaw_of_encodedRaw hformat hne hraw)
    subst hluminous
    apply iff_of_false _ (not_not_intro rfl)
    obtain ⟨-, hscalarMax, hscalarMin, -⟩ := luminousEnergy_evaluated
    unfold InRange at hraw
    rintro (hfits | ⟨hmax, hreadable⟩)
    · omega
    · rw [hmax] at hreadable
      exact not_readable_luminousEnergy hreadable

theorem neverMisread_of_not_inRange (hformat : format ∈ scalarFormats)
    (hraw : ¬ InRange format (encodedRaw format val)) :
    NeverMisread format val ↔ SendsRight format val := by
  have htab := tabled_of_mem format hformat
  have hmin := scalarMin_nonpos htab
  have hmax := scalarMax_pos hformat
  have hparts : InRange format (nearestRaw format val) → ¬ PartsAdd format val := by
    intro hnear hparts
    rw [(encodedRaw_eq_nearestRaw_iff htab).mpr hparts] at hraw
    exact hraw hnear
  rw [neverMisread_iff htab, clampRaw_of_not_inRange hformat hraw, SendsRight]
  cases hsaturates : Saturates format with
  | false =>
    have hluminous : format ≠ luminousEnergy := by
      rintro rfl
      rw [saturates_luminousEnergy] at hsaturates
      cases hsaturates
    apply iff_of_true
    · intro code hcode
      cases hcode
    · by_cases hnear : InRange format (nearestRaw format val)
      · rw [if_pos hnear, if_neg (hparts hnear)]
        unfold InRange at hnear hraw
        rcases encodedRaw_of_not_partsAdd htab hluminous (hparts hnear) with
          ⟨hval, hone⟩ | ⟨hval, hone⟩
        · exact Or.inl ⟨hval, by omega, fun h => absurd h Bool.false_ne_true⟩
        · exact Or.inr ⟨hval, by omega, rfl⟩
      · rw [if_neg hnear]
        exact hluminous
  | true =>
    simp only [if_true, Except.ok.injEq, forall_eq']
    by_cases hcode : InRange format (saturationCode format)
    · have hcodeMax := saturationCode_of_inRange hformat hsaturates hcode
      simp only [readRight_of_inRange hformat hcode, forall_const]
      rw [hcodeMax]
      by_cases hnear : InRange format (nearestRaw format val)
      · rw [if_pos hnear, if_pos hnear, if_neg (hparts hnear)]
        constructor
        · rintro ⟨heq, hreadable⟩
          rw [← heq] at hreadable
          refine Or.inl ⟨?_, heq.symm, rfl, hreadable⟩
          by_contra hval
          have hsign := nearestRaw_nonpos htab (not_lt.mp hval)
          omega
        · rintro (⟨-, heq, hmaxReadable⟩ | ⟨-, -, hnone⟩)
          · rw [heq]
            exact ⟨rfl, hmaxReadable.2⟩
          · cases hnone
      · rw [if_neg hnear, if_neg hnear]
        constructor
        · rintro (hfits | ⟨-, hreadable⟩) rfl
          · rw [luminousEnergy_evaluated.2.1] at hfits
            exact hfits ⟨by decide, by decide⟩
          · exact not_readable_luminousEnergy hreadable
        · intro hluminous
          by_cases hfits : scalarMax format < 2 ^ 31
          · exact Or.inr ⟨rfl, readable_scalarMax hformat hluminous hfits⟩
          · exact Or.inl (fun h => hfits h.2)
    · simp only [readRight_of_not_inRange hformat hsaturates hcode, forall_const]
      by_cases hnear : InRange format (nearestRaw format val)
      · rw [if_pos hnear, if_neg (hparts hnear)]
        apply iff_of_false (not_not_intro hnear)
        rintro (⟨-, -, hmaxReadable⟩ | ⟨-, -, hnone⟩)
        · rw [hmaxReadable.1] at hcode
          exact hcode (inRange_scalarMax hformat)
        · cases hnone
      · rw [if_neg hnear]
        apply iff_of_true hnear
        rintro rfl
        exact hcode luminousEnergy_evaluated.2.2.2.2.2

/-- For every format of the table and every value, the receiver never misreads what is sent exactly under
the condition: the nearest raw value is in range, not negative and fits, and the parts add up; or it is out
of range and the format is not that of luminous energies and exposures. -/
theorem neverMisread_iff_sendsRight (hformat : format ∈ scalarFormats) :
    NeverMisread format val ↔ SendsRight format val := by
  by_cases hraw : InRange format (encodedRaw format val)
  · exact neverMisread_of_inRange hformat hraw
  · exact neverMisread_of_not_inRange hformat hraw

end Receiver

/-- A humidity of 55.109 percent is read as 55.1 percent. -/
theorem humidity_neverMisread : NeverMisread humidity ⟨55, 109000⟩ := by
  have h : humidity ∈ scalarFormats ∧ InRange humidity (nearestRaw humidity ⟨55, 109000⟩) ∧
      PartsAdd humidity ⟨55, 109000⟩ ∧ RawReadable humidity (nearestRaw humidity ⟨55, 109000⟩) := by
    decide +kernel
  apply (neverMisread_iff_sendsRight h.1).mpr
  rw [SendsRight, if_pos h.2.1, if_pos h.2.2.1]
  exact h.2.2.2

private theorem misread_evaluated :
    (temp ∈ scalarFormats ∧ scalarEncode temp ⟨0, -10000⟩ ⟨[], 2⟩ = .ok ⟨[0xFF, 0xFF], 2⟩ ∧
      InRange temp (nearestRaw temp ⟨0, -10000⟩) ∧
      scalarDecode temp ⟨[0xFF, 0xFF], 0⟩ = .error .ERANGE) ∧
    (energy32 ∈ scalarFormats ∧
      scalarEncode energy32 ⟨2147483, 648000⟩ ⟨[], 4⟩ = .ok ⟨[0x00, 0x00, 0x00, 0x80], 4⟩ ∧
      InRange energy32 (nearestRaw energy32 ⟨2147483, 648000⟩) ∧
      scalarDecode energy32 ⟨[0x00, 0x00, 0x00, 0x80], 0⟩ = .error .ERANGE) ∧
    (luminousEnergy ∈ scalarFormats ∧
      scalarEncode luminousEnergy ⟨-1000, 0⟩ ⟨[], 3⟩ = .ok ⟨[0xFE, 0xFF, 0xFF], 3⟩ ∧
      ¬ InRange luminousEnergy (nearestRaw luminousEnergy ⟨-1000, 0⟩) ∧
      scalarDecode luminousEnergy ⟨[0xFE, 0xFF, 0xFF], 0⟩ = .ok (⟨-402655184, 0⟩, ⟨[], 0⟩) ∧
      valueOf luminousEnergy (scalarMax luminousEnergy) = ⟨16777214000, 0⟩) := by
  decide +kernel

/-- A temperature of -0.01 degrees is sent and rejected, as is an energy of 2^31 units, and a luminous energy
that is too low is read as minus 402655184. -/
theorem misread_values :
    (temp ∈ scalarFormats ∧ ¬ NeverMisread temp ⟨0, -10000⟩) ∧
    (energy32 ∈ scalarFormats ∧ ¬ NeverMisread energy32 ⟨2147483, 648000⟩) ∧
    (luminousEnergy ∈ scalarFormats ∧ ¬ NeverMisread luminousEnergy ⟨-1000, 0⟩) := by
  obtain ⟨htemp, henergy, hluminous⟩ := misread_evaluated
  refine ⟨⟨htemp.1, ?_⟩, ⟨henergy.1, ?_⟩, ⟨hluminous.1, ?_⟩⟩
  · intro h
    obtain ⟨-, hsent, hnear, hread⟩ := htemp
    have hright := h ⟨[], 2⟩ [0xFF, 0xFF] [] 0 hsent
    rw [ReadRight, if_pos hnear, List.append_nil, hread] at hright
    cases hright
  · intro h
    obtain ⟨-, hsent, hnear, hread⟩ := henergy
    have hright := h ⟨[], 4⟩ [0x00, 0x00, 0x00, 0x80] [] 0 hsent
    rw [ReadRight, if_pos hnear, List.append_nil, hread] at hright
    cases hright
  · intro h
    obtain ⟨-, hsent, hnear, hread, hmax⟩ := hluminous
    have hright := h ⟨[], 3⟩ [0xFE, 0xFF, 0xFF] [] 0 hsent
    rw [ReadRight, if_neg hnear, List.append_nil, hread, hmax] at hright
    rcases hright with ⟨e, he⟩ | hvalue
    · cases he
    · simp at hvalue

end SdkNrf.Mesh
