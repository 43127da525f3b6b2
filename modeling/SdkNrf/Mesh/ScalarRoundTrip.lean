import SdkNrf.Mesh.SensorTypes

/-!
# Round trip of the scalar formats

`scalar_decode` turns a raw value into an integer part and millionths, `scalar_encode` turns these back.
-/

namespace SdkNrf.Mesh

def rawBytes (format : Format) (raw : Int) : List UInt8 :=
  leBytes format.size (toUnsigned (8 * format.size) raw).toNat

/-- The decoder accepts the bytes of `raw`, with `rest` behind them in a buffer of `size` bytes, and
the encoder adds the same bytes to `buf` for the decoded value. -/
def RoundTrips (format : Format) (raw : Int) (rest : List UInt8) (size : Nat) (buf : NetBuf) :
    Prop :=
  ∃ val, scalarDecode format ⟨rawBytes format raw ++ rest, size⟩ = .ok (val, ⟨rest, size⟩) ∧
    scalarEncode format val buf = .ok { buf with data := buf.data ++ rawBytes format raw }

/-- The raw values that survive. An integer part that does not fit is replaced by the highest raw
value, so that this one survives as well. -/
def Survives (format : Format) (raw : Int) : Prop :=
  0 ≤ raw ∧ raw < 2 ^ 31 ∧
    if format.userData.flags.divide then format.userData.value ∣ raw * 1000000
    else raw * format.userData.value < 2 ^ 31 ∨ raw = scalarMax format

structure Tabled (format : Format) : Prop where
  size : format.size = 1 ∨ format.size = 2 ∨ format.size = 3 ∨ format.size = 4
  max_lt : scalarMax format < 2 ^ (8 * format.size)
  signed : format.userData.flags.signed →
    format.size ≤ 2 ∧ scalarMax format < 2 ^ (8 * format.size - 1) ∧
      scalarMin format = -2 ^ (8 * format.size - 1)
  value_pos : 0 < format.userData.value
  value_le : format.userData.value ≤ 1000000
  multiply : ¬ format.userData.flags.divide →
    format.userData.value = 1 ∨ format = luminousEnergy

instance (format : Format) : Decidable (Tabled format) :=
  decidable_of_iff
    ((format.size = 1 ∨ format.size = 2 ∨ format.size = 3 ∨ format.size = 4) ∧
      scalarMax format < 2 ^ (8 * format.size) ∧
      (format.userData.flags.signed → format.size ≤ 2 ∧
        scalarMax format < 2 ^ (8 * format.size - 1) ∧
        scalarMin format = -2 ^ (8 * format.size - 1)) ∧
      0 < format.userData.value ∧ format.userData.value ≤ 1000000 ∧
      (¬ format.userData.flags.divide → format.userData.value = 1 ∨ format = luminousEnergy))
    ⟨fun ⟨a, b, c, d, e, f⟩ => ⟨a, b, c, d, e, f⟩, fun ⟨a, b, c, d, e, f⟩ => ⟨a, b, c, d, e, f⟩⟩

theorem tabled_of_mem : ∀ format ∈ scalarFormats, Tabled format := by decide +kernel

section Format

variable {format : Format} {raw : Int}

theorem scalarMin_of_unsigned (h : ¬ format.userData.flags.signed) : scalarMin format = 0 := by
  rw [scalarMin, if_neg h]

theorem pullLe_rawBytes (format : Format) (raw : Int) (rest : List UInt8) (size : Nat) :
    NetBuf.pullLe ⟨rawBytes format raw ++ rest, size⟩ format.size =
      ((toUnsigned (8 * format.size) raw).toNat, ⟨rest, size⟩) := by
  have hlen : (rawBytes format raw).length = format.size := length_leBytes _ _
  have hlt : (toUnsigned (8 * format.size) raw).toNat < 2 ^ (8 * format.size) := by
    have hnonneg := toUnsigned_nonneg (8 * format.size) raw
    have := toUnsigned_lt (8 * format.size) raw
    zify
    rwa [Int.toNat_of_nonneg hnonneg]
  rw [NetBuf.pullLe, ← hlen, List.take_left, List.drop_left, hlen, rawBytes, leValue_leBytes,
    Nat.mod_eq_of_lt hlt]

/-- The decoder reads the raw value as an `int32_t`. -/
theorem readRaw_rawBytes (htab : Tabled format) (hmin : scalarMin format ≤ raw)
    (hmax : raw ≤ scalarMax format) (rest : List UInt8) (size : Nat) :
    readRaw format ⟨rawBytes format raw ++ rest, size⟩ = .ok (toSigned 32 raw, ⟨rest, size⟩) := by
  have hlt := htab.max_lt
  have hsigned := htab.signed
  have hvalue := Int.toNat_of_nonneg (toUnsigned_nonneg (8 * format.size) raw)
  unfold readRaw
  rw [pullLe_rawBytes]
  cases hs : format.userData.flags.signed with
  | false =>
    rw [scalarMin_of_unsigned (by rw [hs]; decide)] at hmin
    rw [toUnsigned_of_nonneg hmin (by omega)] at hvalue ⊢
    rcases htab.size with h | h | h | h <;> simp only [h] at hlt ⊢
    case inr.inr.inr => rw [hvalue]
    all_goals
      rw [if_neg (by simp [hs]), hvalue, toSigned_of_mem (w := 31) (by omega) (by omega)]
  | true =>
    obtain ⟨hsize, hlt, hmin'⟩ := hsigned hs
    rw [hmin'] at hmin
    rcases htab.size with h | h | h | h <;> simp only [h] at hlt hmin hvalue ⊢
    case inl =>
      rw [if_pos hs, hvalue, toSigned_toUnsigned 8, toSigned_of_mem (w := 7) hmin (by omega),
        toSigned_of_mem (w := 31) (by omega) (by omega)]
    case inr.inl =>
      rw [if_pos hs, hvalue, toSigned_toUnsigned 16, toSigned_of_mem (w := 15) hmin (by omega),
        toSigned_of_mem (w := 31) (by omega) (by omega)]
    all_goals omega

/-- A raw value that is not a non-negative `int32_t` fails the range check. -/
theorem scalarDecode_eq_error (htab : Tabled format) (hmin : scalarMin format ≤ raw)
    (hmax : raw ≤ scalarMax format) (hraw : ¬ (0 ≤ raw ∧ raw < 2 ^ 31)) (rest : List UInt8)
    (size : Nat) : scalarDecode format ⟨rawBytes format raw ++ rest, size⟩ = .error .ERANGE := by
  have hlen : (rawBytes format raw).length = format.size := length_leBytes _ _
  have hlt := htab.max_lt
  have hrange : toSigned 32 raw < scalarMin format ∨
      toUnsigned 32 (toSigned 32 raw) > scalarMax format := by
    by_cases hneg : raw < 0
    · -- A negative value is a large one in `uint32_t`.
      right
      by_cases hs : format.userData.flags.signed = true
      · obtain ⟨hsize, hmax', hmin'⟩ := htab.signed hs
        rw [toUnsigned_toSigned, toUnsigned]
        rcases htab.size with h | h | h | h <;> rw [h] at hmax' hmin' <;> omega
      · rw [scalarMin_of_unsigned hs] at hmin
        omega
    · left
      have hs : ¬ format.userData.flags.signed = true := by
        intro hs
        obtain ⟨hsize, hmax', -⟩ := htab.signed hs
        rcases htab.size with h | h | h | h <;> rw [h] at hmax' <;> omega
      rw [scalarMin_of_unsigned hs]
      have hwrap : toSigned 32 raw = raw - 2 ^ 32 := by
        have hcongr : toSigned 32 raw = toSigned 32 (raw - 2 ^ 32) := by
          rw [← toSigned_toUnsigned, ← toSigned_toUnsigned 32 (raw - 2 ^ 32)]
          congr 1
          rw [toUnsigned, toUnsigned]
          omega
        rw [hcongr]
        rcases htab.size with h | h | h | h <;> rw [h] at hlt <;>
          exact toSigned_of_mem (w := 31) (by omega) (by omega)
      rcases htab.size with h | h | h | h <;> rw [h] at hlt <;> omega
  unfold scalarDecode
  rw [if_neg (by rw [List.length_append]; omega), readRaw_rawBytes htab hmin hmax]
  simp only [bind, Except.bind, if_pos hrange]
  rfl

def decoded (format : Format) (raw : Int) : SensorValue :=
  let million := mulScalar (raw * 1000000) format.userData
  ⟨toSigned 32 (million.tdiv 1000000), toSigned 32 (million.tmod 1000000)⟩

theorem scalarDecode_rawBytes (htab : Tabled format) (hmin : scalarMin format ≤ raw)
    (hmax : raw ≤ scalarMax format) (hnonneg : 0 ≤ raw) (hlt : raw < 2 ^ 31) (rest : List UInt8)
    (size : Nat) :
    scalarDecode format ⟨rawBytes format raw ++ rest, size⟩ =
      .ok (decoded format raw, ⟨rest, size⟩) := by
  have hlen : (rawBytes format raw).length = format.size := length_leBytes _ _
  have hsame : toSigned 32 raw = raw := toSigned_of_mem (w := 31) (by omega) hlt
  have hrange : ¬ (raw < scalarMin format ∨ toUnsigned 32 raw > scalarMax format) := by
    rw [toUnsigned_of_nonneg hnonneg (by omega)]
    omega
  unfold scalarDecode
  rw [if_neg (by rw [List.length_append]; omega), readRaw_rawBytes htab hmin hmax, hsame]
  simp only [bind, Except.bind, if_neg hrange]
  rfl

def encodedRaw (format : Format) (val : SensorValue) : Int :=
  divScalar val.val1 format.userData + (divScalar val.val2 format.userData).tdiv 1000000

theorem scalarEncode_eq (htab : Tabled format) (val : SensorValue) {buf : NetBuf}
    (hroom : format.size ≤ buf.tailroom) :
    scalarEncode format val buf =
      (clampRaw format (encodedRaw format val)).map (buf.addLe format.size) := by
  unfold scalarEncode
  rw [if_neg (by omega)]
  change (clampRaw format (encodedRaw format val) >>= _) = _
  rcases htab.size with h | h | h | h <;> simp only [h] <;>
    cases clampRaw format (encodedRaw format val) <;> rfl

/-- The encoder sends the bytes of `raw` exactly when it computes or substitutes `raw`. -/
theorem scalarEncode_eq_ok_iff (htab : Tabled format) {val : SensorValue} {buf : NetBuf}
    (hroom : format.size ≤ buf.tailroom) (hnonneg : 0 ≤ raw) (hmax : raw ≤ scalarMax format)
    {x : Int} (hx : clampRaw format (encodedRaw format val) = .ok x) (hxnonneg : 0 ≤ x)
    (hxlt : x < 2 ^ (8 * format.size)) :
    scalarEncode format val buf = .ok { buf with data := buf.data ++ rawBytes format raw } ↔
      x = raw := by
  have hlt := htab.max_lt
  have hrawlt : raw < 2 ^ (8 * format.size) := by omega
  rw [scalarEncode_eq htab val hroom, hx]
  simp only [Except.map, Except.ok.injEq, NetBuf.addLe, NetBuf.mk.injEq, and_true,
    List.append_cancel_left_eq, rawBytes]
  rw [toUnsigned_of_nonneg hxnonneg hxlt, toUnsigned_of_nonneg hnonneg hrawlt]
  constructor
  · intro h
    have := leBytes_inj (by zify; omega) (by zify; omega) h
    omega
  · intro h
    rw [h]

theorem clampRaw_of_mem {x : Int} (hmin : scalarMin format ≤ x) (hmax : x ≤ scalarMax format) :
    clampRaw format x = .ok x := by
  unfold clampRaw
  rw [if_neg (by omega)]

/-- Splitting `q` into an integer part and millionths loses nothing when it is scaled up again. -/
private theorem split_millionths (q value : Int) :
    q / 1000000 * value + q % 1000000 * value / 1000000 = q * value / 1000000 := by
  have hsplit : q * value = q % 1000000 * value + q / 1000000 * value * 1000000 := by
    have h := Int.emod_add_mul_ediv q 1000000
    calc q * value = (q % 1000000 + 1000000 * (q / 1000000)) * value := by rw [h]
      _ = _ := by ring
  rw [hsplit, Int.add_mul_ediv_right _ _ (by decide)]
  ring

private theorem scaled_back {value : Int} (hvalue : 0 < value) (hle : value ≤ 1000000) :
    raw * 1000000 / value * value / 1000000 =
      if value ∣ raw * 1000000 then raw else raw - 1 := by
  have hdiv := Int.emod_add_mul_ediv (raw * 1000000) value
  have hnonneg := Int.emod_nonneg (raw * 1000000) (by omega : value ≠ 0)
  have hlt := Int.emod_lt_of_pos (raw * 1000000) hvalue
  rw [mul_comm value] at hdiv
  split
  next h =>
    rw [Int.emod_eq_zero_of_dvd h] at hdiv
    omega
  next h =>
    have hpos : raw * 1000000 % value ≠ 0 := fun hzero => h (Int.dvd_of_emod_eq_zero hzero)
    omega

theorem encodedRaw_decoded_divide (htab : Tabled format)
    (hdivide : format.userData.flags.divide = true) (hnonneg : 0 ≤ raw) (hlt : raw < 2 ^ 31) :
    encodedRaw format (decoded format raw) =
      if format.userData.value ∣ raw * 1000000 then raw else raw - 1 := by
  have hvalue := htab.value_pos
  have hq : 0 ≤ raw * 1000000 / format.userData.value :=
    Int.ediv_nonneg (by omega) (by omega)
  have hqle : raw * 1000000 / format.userData.value ≤ raw * 1000000 :=
    Int.ediv_le_self _ (by omega)
  unfold encodedRaw decoded mulScalar divScalar
  simp only [hdivide, if_true]
  rw [Int.tdiv_eq_ediv_of_nonneg (a := raw * 1000000) (by omega), Int.tdiv_eq_ediv_of_nonneg hq,
    Int.tmod_eq_emod_of_nonneg hq, toSigned_of_mem (w := 31) (by omega) (by omega),
    toSigned_of_mem (w := 31) (by omega) (by omega), Int.tdiv_eq_ediv_of_nonneg,
    split_millionths, scaled_back hvalue htab.value_le]
  exact Int.mul_nonneg (by omega) (by omega)

theorem encodedRaw_decoded_multiply (htab : Tabled format)
    (hdivide : ¬ format.userData.flags.divide = true) (hnonneg : 0 ≤ raw) :
    encodedRaw format (decoded format raw) =
      (toSigned 32 (raw * format.userData.value)).tdiv format.userData.value := by
  have hvalue := htab.value_pos
  have hprod : 0 ≤ raw * format.userData.value := Int.mul_nonneg hnonneg (by omega)
  have hswap : raw * 1000000 * format.userData.value = raw * format.userData.value * 1000000 := by
    ring
  unfold encodedRaw decoded mulScalar divScalar
  simp only [hdivide, if_false, Bool.false_eq_true]
  rw [hswap, Int.mul_tdiv_cancel _ (by decide), Int.mul_tmod_left]
  simp [toSigned]

end Format

/-- A luminous energy or exposure that does not fit `int32_t` comes back as the highest raw value
or as a value below the one that was sent. -/
theorem clampRaw_luminousEnergy {raw : Int} (hover : 2 ^ 31 ≤ raw * 1000)
    (hmax : raw ≤ 16777214) :
    ∃ x, clampRaw luminousEnergy ((toSigned 32 (raw * 1000)).tdiv 1000) = .ok x ∧ 0 ≤ x ∧
      x ≤ 16777214 ∧ (x = raw ↔ raw = 16777214) := by
  have hscalarMax : scalarMax luminousEnergy = 16777214 := by decide
  have hscalarMin : scalarMin luminousEnergy = 0 := by decide
  generalize hy : toSigned 32 (raw * 1000) = y
  have hlow : -2 ^ 31 ≤ y := by
    rw [← hy]
    exact Int.le_bmod (by decide)
  have hhigh : y < 2 ^ 31 := by
    rw [← hy]
    exact Int.bmod_lt (by decide)
  have hcongr : y % 2 ^ 32 = raw * 1000 % 2 ^ 32 := by
    rw [← hy]
    exact toUnsigned_toSigned 32 _
  have hquot : y.tdiv 1000 = if 0 ≤ y then y / 1000 else -(-y / 1000) := by
    split
    next h => exact Int.tdiv_eq_ediv_of_nonneg h
    next h =>
      rw [← Int.tdiv_eq_ediv_of_nonneg (a := -y) (by omega), Int.neg_tdiv, neg_neg]
  by_cases hneg : y.tdiv 1000 < 0
  · refine ⟨16777214, ?_, by decide, le_refl _, eq_comm⟩
    unfold clampRaw
    rw [if_pos (Or.inr (by omega))]
    decide
  · refine ⟨y.tdiv 1000, clampRaw_of_mem (by omega) ?_, by omega, ?_, ?_⟩ <;>
      split at hquot <;> omega

theorem scalarEncode_decoded_divide {format : Format} {raw : Int} (htab : Tabled format)
    (hdivide : format.userData.flags.divide = true) (hmin : scalarMin format ≤ raw)
    (hmax : raw ≤ scalarMax format) (hnonneg : 0 ≤ raw) (hlt : raw < 2 ^ 31) {buf : NetBuf}
    (hroom : format.size ≤ buf.tailroom) :
    scalarEncode format (decoded format raw) buf =
        .ok { buf with data := buf.data ++ rawBytes format raw } ↔
      format.userData.value ∣ raw * 1000000 := by
  have hback := encodedRaw_decoded_divide htab hdivide hnonneg hlt
  have hmaxlt := htab.max_lt
  by_cases hdvd : format.userData.value ∣ raw * 1000000
  · rw [if_pos hdvd] at hback
    have hclamp : clampRaw format (encodedRaw format (decoded format raw)) = .ok raw := by
      rw [hback]
      exact clampRaw_of_mem hmin hmax
    rw [scalarEncode_eq_ok_iff htab hroom hnonneg hmax hclamp hnonneg (by omega)]
    exact iff_of_true rfl hdvd
  · rw [if_neg hdvd] at hback
    have hpos : 1 ≤ raw := by
      by_contra h
      apply hdvd
      have : raw = 0 := by omega
      rw [this, zero_mul]
      exact dvd_zero _
    have hminle : scalarMin format ≤ 0 := by
      by_cases hs : format.userData.flags.signed = true
      · rw [(htab.signed hs).2.2]
        have : (0 : Int) < 2 ^ (8 * format.size - 1) := by positivity
        omega
      · exact le_of_eq (scalarMin_of_unsigned hs)
    have hclamp : clampRaw format (encodedRaw format (decoded format raw)) = .ok (raw - 1) := by
      rw [hback]
      exact clampRaw_of_mem (by omega) (by omega)
    rw [scalarEncode_eq_ok_iff htab hroom hnonneg hmax hclamp (by omega) (by omega)]
    exact iff_of_false (by omega) hdvd

theorem scalarEncode_decoded_multiply {format : Format} {raw : Int} (htab : Tabled format)
    (hdivide : ¬ format.userData.flags.divide = true) (hmin : scalarMin format ≤ raw)
    (hmax : raw ≤ scalarMax format) (hnonneg : 0 ≤ raw) (hlt : raw < 2 ^ 31) {buf : NetBuf}
    (hroom : format.size ≤ buf.tailroom) :
    scalarEncode format (decoded format raw) buf =
        .ok { buf with data := buf.data ++ rawBytes format raw } ↔
      raw * format.userData.value < 2 ^ 31 ∨ raw = scalarMax format := by
  have hback := encodedRaw_decoded_multiply htab hdivide hnonneg
  have hmaxlt := htab.max_lt
  have hvalue := htab.value_pos
  have hprod : 0 ≤ raw * format.userData.value := Int.mul_nonneg hnonneg (by omega)
  by_cases hfit : raw * format.userData.value < 2 ^ 31
  · rw [toSigned_of_mem (w := 31) (by omega) hfit, Int.mul_tdiv_cancel _ (by omega)] at hback
    have hclamp : clampRaw format (encodedRaw format (decoded format raw)) = .ok raw := by
      rw [hback]
      exact clampRaw_of_mem hmin hmax
    rw [scalarEncode_eq_ok_iff htab hroom hnonneg hmax hclamp hnonneg (by omega)]
    exact iff_of_true rfl (Or.inl hfit)
  · rcases htab.multiply hdivide with hone | rfl
    · rw [hone, mul_one] at hfit
      exact absurd hlt hfit
    · have hscalarMax : scalarMax luminousEnergy = 16777214 := by decide
      have hthousand : luminousEnergy.userData.value = 1000 := by decide +kernel
      have hsize : luminousEnergy.size = 3 := rfl
      rw [hthousand] at hback hfit ⊢
      have hover : 2 ^ 31 ≤ raw * 1000 := by omega
      obtain ⟨x, hx, hxnonneg, hxle, hiff⟩ := clampRaw_luminousEnergy hover (by omega)
      rw [scalarEncode_eq_ok_iff htab hroom hnonneg hmax (hback ▸ hx) hxnonneg
        (by rw [hsize]; omega), hiff, hscalarMax, or_iff_right hfit]

/-- For every scalar format and every raw value between its bounds, decoding and encoding give back
the same bytes exactly for the raw values that survive. -/
theorem roundTrips_iff {format : Format} (hformat : format ∈ scalarFormats) {raw : Int}
    (hmin : scalarMin format ≤ raw) (hmax : raw ≤ scalarMax format) (rest : List UInt8)
    (size : Nat) {buf : NetBuf} (hroom : format.size ≤ buf.tailroom) :
    RoundTrips format raw rest size buf ↔ Survives format raw := by
  have htab := tabled_of_mem format hformat
  by_cases hraw : 0 ≤ raw ∧ raw < 2 ^ 31
  · obtain ⟨hnonneg, hlt⟩ := hraw
    have hdecode := scalarDecode_rawBytes htab hmin hmax hnonneg hlt rest size
    have hencode : RoundTrips format raw rest size buf ↔
        scalarEncode format (decoded format raw) buf =
          .ok { buf with data := buf.data ++ rawBytes format raw } := by
      unfold RoundTrips
      rw [hdecode]
      simp
    rw [hencode, Survives]
    by_cases hdivide : format.userData.flags.divide = true
    · rw [scalarEncode_decoded_divide htab hdivide hmin hmax hnonneg hlt hroom, if_pos hdivide]
      simp only [hnonneg, hlt, true_and]
    · rw [scalarEncode_decoded_multiply htab hdivide hmin hmax hnonneg hlt hroom, if_neg hdivide]
      simp only [hnonneg, hlt, true_and]
  · apply iff_of_false
    · intro h
      obtain ⟨val, hdecode, -⟩ := h
      rw [scalarDecode_eq_error htab hmin hmax hraw] at hdecode
      cases hdecode
    · intro h
      exact hraw ⟨h.1, h.2.1⟩

/-- A humidity of 55.1 percent. -/
theorem humidity_roundTrips : RoundTrips humidity 5510 [] 2 ⟨[], 2⟩ :=
  (roundTrips_iff (by decide +kernel) (by decide +kernel) (by decide +kernel) [] 2
    (by decide +kernel)).mpr ⟨by decide, by decide, by decide +kernel⟩

/-- A temperature of -0.01 degrees is in range and is not decoded. -/
theorem temp_not_roundTrips : temp ∈ scalarFormats ∧ scalarMin temp ≤ -1 ∧ -1 ≤ scalarMax temp ∧
    ¬ RoundTrips temp (-1) [] 2 ⟨[], 2⟩ := by
  refine ⟨by decide +kernel, by decide +kernel, by decide +kernel, ?_⟩
  intro h
  obtain ⟨val, hdecode, -⟩ := h
  have htab : Tabled temp := by decide +kernel
  have hnegative : ¬ (0 ≤ (-1 : Int) ∧ (-1 : Int) < 2 ^ 31) := by decide
  rw [scalarDecode_eq_error htab (by decide) (by decide) hnegative] at hdecode
  cases hdecode

end SdkNrf.Mesh
