import SdkNrf.Mesh.PowTime
import SdkNrf.Mesh.ScalarRoundTrip
import SdkNrf.Mesh.SensorValues

/-!
# Cadence messages

The cadence of a sensor is sent as a divisor and a type in one byte, two deltas, an interval and the
two ends of a range.
-/

namespace SdkNrf.Mesh

/-- `BT_MESH_SENSOR_PERIOD_DIV_MAX`. -/
def sensorPeriodDivMax : Nat := 15

/-- `BT_MESH_SENSOR_INTERVAL_MAX`. -/
def sensorIntervalMax : Nat := 26

structure Cadence where
  pubDiv : Nat
  minInt : Nat
  threshold : SensorThreshold
  deriving DecidableEq, Repr

/-- Why a message is not encoded or decoded: with an error, or because the buffer has no room or no
data for a byte, which is an assertion. -/
inductive CadenceFault
  | errno (e : Errno)
  | assertion
  deriving DecidableEq, Repr

theorem SensorType.channels_ne_nil (type : SensorType) : type.channels ≠ [] := by
  intro hnil
  have h := type.len_pos
  rw [hnil] at h
  exact absurd h (by decide)

def SensorType.firstFormat (type : SensorType) : SensorFormat :=
  type.channels.head type.channels_ne_nil

theorem percentage16_size_pos : 0 < percentage16.size := by decide

theorem percentage16_size_le : percentage16.size ≤ 4 := by decide

/-- `bt_mesh_sensor_format_percentage_16`. -/
def percentage16Format : SensorFormat :=
  .ofScalar percentage16 percentage16_size_pos percentage16_size_le

def deltaFormat (type : SensorType) (delta : SensorDelta) : SensorFormat :=
  if delta = .percent then percentage16Format else type.firstFormat

/-- `net_buf_simple_add_u8`. -/
def addU8 (buf : NetBuf) (value : Nat) : Except CadenceFault NetBuf :=
  if buf.tailroom < 1 then .error .assertion else .ok (buf.addLe 1 value)

def chEncode (buf : NetBuf) (format : SensorFormat) (value : SensorValue) :
    Except CadenceFault NetBuf :=
  (format.encode value buf).mapError .errno

/-- The first byte: `((!!threshold->delta.type) << 7) | (BIT_MASK(7) & fast_period_div)`. -/
def Cadence.divAndType (cadence : Cadence) : Nat :=
  (if cadence.threshold.deltaType = .value then 0 else 1) <<< 7 ||| (cadence.pubDiv &&& 127)

def sensorCadenceEncode (buf : NetBuf) (type : SensorType) (cadence : Cadence) :
    Except CadenceFault NetBuf := do
  let threshold := cadence.threshold
  let buf ← addU8 buf cadence.divAndType
  let buf ← chEncode buf (deltaFormat type threshold.deltaType) threshold.deltaDown
  let buf ← chEncode buf (deltaFormat type threshold.deltaType) threshold.deltaUp
  let buf ← addU8 buf cadence.minInt
  let (first, second) := if threshold.rangeCadence = .fast then
      (threshold.rangeLow, threshold.rangeHigh) else (threshold.rangeHigh, threshold.rangeLow)
  let buf ← chEncode buf type.firstFormat first
  chEncode buf type.firstFormat second

structure Decoding where
  buf : NetBuf
  cadence : Cadence

abbrev DecodeM := ExceptT CadenceFault (StateM Decoding)

/-- `net_buf_simple_pull_u8`. -/
def pullU8 : DecodeM Nat := fun st =>
  if st.buf.data.length < 1 then (.error .assertion, st)
  else (.ok (st.buf.pullLe 1).1, { st with buf := (st.buf.pullLe 1).2 })

def chDecode (format : SensorFormat) : DecodeM SensorValue := fun st =>
  ((format.decode st.buf).2.mapError .errno, { st with buf := (format.decode st.buf).1 })

def put (f : Cadence → Cadence) : DecodeM Unit := fun st =>
  (.ok (), { st with cadence := f st.cadence })

def SensorThreshold.ordered (threshold : SensorThreshold) : SensorThreshold :=
  if threshold.rangeHigh.lexLt threshold.rangeLow then
    { threshold with rangeLow := threshold.rangeHigh, rangeHigh := threshold.rangeLow,
                     rangeCadence := .normal }
  else { threshold with rangeCadence := .fast }

@[simp] theorem SensorThreshold.ordered_deltaType (threshold : SensorThreshold) :
    threshold.ordered.deltaType = threshold.deltaType := by
  unfold SensorThreshold.ordered
  split_ifs <;> rfl

/-- A check with the error `-EINVAL`. -/
def checkAtMost (value max : Nat) : DecodeM Unit := fun st =>
  (if value > max then .error (.errno .EINVAL) else .ok (), st)

/-- `sensor_ch_decode` into a field. -/
def decodeInto (format : SensorFormat) (set : SensorValue → Cadence → Cadence) : DecodeM Unit := do
  let value ← chDecode format
  put (set value)

/-- The first byte: `delta.type` and `*fast_period_div`. -/
def decodeHead : DecodeM SensorDelta := do
  let divAndType ← pullU8
  let delta := if divAndType >>> 7 = 0 then SensorDelta.value else .percent
  put fun c => { c with threshold.deltaType := delta, pubDiv := divAndType &&& 127 }
  checkAtMost (divAndType &&& 127) sensorPeriodDivMax
  return delta

/-- `*min_int`. -/
def decodeInterval : DecodeM Unit := do
  let minInt ← pullU8
  put fun c => { c with minInt }
  checkAtMost minInt sensorIntervalMax

def sensorCadenceDecode (type : SensorType) : DecodeM Unit := do
  let delta ← decodeHead
  decodeInto (deltaFormat type delta) fun value c => { c with threshold.deltaDown := value }
  decodeInto (deltaFormat type delta) fun value c => { c with threshold.deltaUp := value }
  decodeInterval
  decodeInto type.firstFormat fun value c => { c with threshold.rangeLow := value }
  decodeInto type.firstFormat fun value c => { c with threshold.rangeHigh := value }
  put fun c => { c with threshold := c.threshold.ordered }

section Run

variable {α β : Type} {x : DecodeM α} {f : α → DecodeM β} {st st' : Decoding}

theorem bind_of_ok {a : α} (h : x st = (.ok a, st')) : (x >>= f) st = f a st' := by
  simp only [bind, ExceptT.bind, ExceptT.mk, StateT.bind, h, ExceptT.bindCont]

theorem bind_of_error {e : CadenceFault} (h : x st = (.error e, st')) :
    (x >>= f) st = (.error e, st') := by
  simp only [bind, ExceptT.bind, ExceptT.mk, StateT.bind, h, ExceptT.bindCont]
  rfl

theorem put_eq (f : Cadence → Cadence) :
    put f st = (.ok (), { st with cadence := f st.cadence }) := rfl

theorem checkAtMost_of_le {value max : Nat} (h : value ≤ max) :
    checkAtMost value max st = (.ok (), st) := by
  unfold checkAtMost
  rw [if_neg (by omega)]

theorem pullU8_leBytes {value : Nat} (h : value < 256) (rest : List UInt8) (size : Nat)
    (c : Cadence) : pullU8 ⟨⟨leBytes 1 value ++ rest, size⟩, c⟩ = (.ok value, ⟨⟨rest, size⟩, c⟩) := by
  have hlen : ¬ (leBytes 1 value ++ rest).length < 1 := by
    rw [List.length_append, length_leBytes]
    omega
  unfold pullU8
  rw [if_neg hlen]
  simp only [NetBuf.pullLe_leBytes, Nat.mod_eq_of_lt (show value < 2 ^ (8 * 1) from h)]

theorem ok_of_bind {b : β} (h : (x >>= f) st = (.ok b, st')) :
    ∃ a mid, x st = (.ok a, mid) ∧ f a mid = (.ok b, st') := by
  cases hx : x st with
  | mk result mid =>
    cases result with
    | error e =>
      rw [bind_of_error hx] at h
      cases h
    | ok a =>
      rw [bind_of_ok hx] at h
      exact ⟨a, mid, rfl, h⟩

theorem checkAtMost_eq_ok {value max : Nat} (h : checkAtMost value max st = (.ok (), st')) :
    value ≤ max ∧ st' = st := by
  unfold checkAtMost at h
  split_ifs at h with hover <;> cases h
  exact ⟨by omega, rfl⟩

theorem pullU8_eq_ok {value : Nat} (h : pullU8 st = (.ok value, st')) :
    value < 256 ∧ st = ⟨⟨leBytes 1 value ++ st'.buf.data, st'.buf.size⟩, st'.cadence⟩ := by
  unfold pullU8 at h
  split_ifs at h with hshort <;> cases h
  obtain ⟨⟨data, size⟩, c⟩ := st
  dsimp only at hshort
  cases data with
  | nil => exact absurd Nat.one_pos hshort
  | cons byte rest =>
    have hvalue : leValue [byte] = byte.toNat := by simp [leValue]
    have hlt := byte.toNat_lt
    simp [NetBuf.pullLe, leBytes, hvalue, hlt]

end Run

structure FormatField (format : SensorFormat) where
  bytes : List UInt8
  value : SensorValue
  length_bytes : bytes.length = format.size
  interpret_bytes : format.interpret bytes = .ok value

def headDelta (head : Nat) : SensorDelta := if head >>> 7 = 0 then .value else .percent

structure CadenceRecord (type : SensorType) where
  head : Nat
  minInt : Nat
  down : FormatField (deltaFormat type (headDelta head))
  up : FormatField (deltaFormat type (headDelta head))
  first : FormatField type.firstFormat
  second : FormatField type.firstFormat
  head_lt : head < 256
  pubDiv_le : head &&& 127 ≤ sensorPeriodDivMax
  minInt_le : minInt ≤ sensorIntervalMax

namespace CadenceRecord

variable {type : SensorType}

def bytes (record : CadenceRecord type) : List UInt8 :=
  leBytes 1 record.head ++ (record.down.bytes ++ (record.up.bytes ++
    (leBytes 1 record.minInt ++ (record.first.bytes ++ record.second.bytes))))

def cadence (record : CadenceRecord type) : Cadence where
  pubDiv := record.head &&& 127
  minInt := record.minInt
  threshold := SensorThreshold.ordered ⟨headDelta record.head, record.up.value, record.down.value,
    .normal, record.first.value, record.second.value⟩

end CadenceRecord

section Records

variable {st st' : Decoding} {type : SensorType}

theorem decodeInto_field {format : SensorFormat} (field : FormatField format)
    (set : SensorValue → Cadence → Cadence) (rest : List UInt8) (size : Nat) (c : Cadence) :
    decodeInto format set ⟨⟨field.bytes ++ rest, size⟩, c⟩ =
      (.ok (), ⟨⟨rest, size⟩, set field.value c⟩) := by
  have hread : chDecode format ⟨⟨field.bytes ++ rest, size⟩, c⟩ =
      (.ok field.value, ⟨⟨rest, size⟩, c⟩) := by
    unfold chDecode
    rw [format.decode_append field.length_bytes, field.interpret_bytes]
    rfl
  unfold decodeInto
  rw [bind_of_ok hread]
  rfl

theorem decodeInto_eq_ok {format : SensorFormat} {set : SensorValue → Cadence → Cadence}
    (h : decodeInto format set st = (.ok (), st')) :
    ∃ field : FormatField format, st.buf = ⟨field.bytes ++ st'.buf.data, st'.buf.size⟩ ∧
      st'.cadence = set field.value st.cadence := by
  obtain ⟨value, mid, hread, hput⟩ := ok_of_bind h
  cases hput
  have hvalue : (format.decode st.buf).2.mapError CadenceFault.errno = .ok value :=
    congrArg Prod.fst hread
  have hst : { st with buf := (format.decode st.buf).1 } = mid := congrArg Prod.snd hread
  subst hst
  unfold SensorFormat.decode at hvalue ⊢
  split_ifs at hvalue ⊢ with hshort
  · cases hvalue
  · cases hinterpret : format.interpret (st.buf.data.take format.size) with
    | error e =>
      rw [hinterpret] at hvalue
      cases hvalue
    | ok read =>
      rw [hinterpret] at hvalue
      cases hvalue
      have hlength : (st.buf.data.take format.size).length = format.size := by
        rw [List.length_take]
        omega
      refine ⟨⟨_, _, hlength, hinterpret⟩, ?_, rfl⟩
      simp only [NetBuf.pull, List.take_append_drop]

theorem decodeHead_leBytes {head : Nat} (h : head < 256) (hdiv : head &&& 127 ≤ sensorPeriodDivMax)
    (rest : List UInt8) (size : Nat) (c : Cadence) :
    decodeHead ⟨⟨leBytes 1 head ++ rest, size⟩, c⟩ =
      (.ok (headDelta head), ⟨⟨rest, size⟩, { c with
        threshold.deltaType := headDelta head, pubDiv := head &&& 127 }⟩) := by
  unfold decodeHead
  rw [bind_of_ok (pullU8_leBytes h _ _ _), bind_of_ok (put_eq _), bind_of_ok (checkAtMost_of_le hdiv)]
  rfl

theorem decodeHead_eq_ok {delta : SensorDelta} (h : decodeHead st = (.ok delta, st')) :
    ∃ head < 256, head &&& 127 ≤ sensorPeriodDivMax ∧ delta = headDelta head ∧
      st.buf = ⟨leBytes 1 head ++ st'.buf.data, st'.buf.size⟩ ∧ st'.cadence =
        { st.cadence with threshold.deltaType := headDelta head, pubDiv := head &&& 127 } := by
  obtain ⟨head, mid, hpull, hrest⟩ := ok_of_bind h
  obtain ⟨_, mid', hput, hrest'⟩ := ok_of_bind hrest
  obtain ⟨_, mid'', hcheck, hreturn⟩ := ok_of_bind hrest'
  obtain ⟨hlt, hst⟩ := pullU8_eq_ok hpull
  have hmid := checkAtMost_eq_ok hcheck
  cases hput
  cases hreturn
  rw [hmid.2, hst]
  exact ⟨head, hlt, hmid.1, rfl, rfl, rfl⟩

theorem decodeInterval_leBytes {minInt : Nat} (h : minInt ≤ sensorIntervalMax) (rest : List UInt8)
    (size : Nat) (c : Cadence) :
    decodeInterval ⟨⟨leBytes 1 minInt ++ rest, size⟩, c⟩ =
      (.ok (), ⟨⟨rest, size⟩, { c with minInt }⟩) := by
  have hlt : minInt < 256 := by
    unfold sensorIntervalMax at h
    omega
  unfold decodeInterval
  rw [bind_of_ok (pullU8_leBytes hlt _ _ _), bind_of_ok (put_eq _), checkAtMost_of_le h]

theorem decodeInterval_eq_ok (h : decodeInterval st = (.ok (), st')) :
    ∃ minInt ≤ sensorIntervalMax, st.buf = ⟨leBytes 1 minInt ++ st'.buf.data, st'.buf.size⟩ ∧
      st'.cadence = { st.cadence with minInt } := by
  obtain ⟨minInt, mid, hpull, hrest⟩ := ok_of_bind h
  obtain ⟨_, mid', hput, hcheck⟩ := ok_of_bind hrest
  obtain ⟨-, hst⟩ := pullU8_eq_ok hpull
  obtain ⟨hle, hmid⟩ := checkAtMost_eq_ok hcheck
  cases hput
  rw [hmid, hst]
  exact ⟨minInt, hle, rfl, rfl⟩

theorem sensorCadenceDecode_record (record : CadenceRecord type) (rest : List UInt8) (size : Nat)
    (out : Cadence) : sensorCadenceDecode type ⟨⟨record.bytes ++ rest, size⟩, out⟩ =
      (.ok (), ⟨⟨rest, size⟩, record.cadence⟩) := by
  unfold sensorCadenceDecode
  simp only [CadenceRecord.bytes, List.append_assoc]
  rw [bind_of_ok (decodeHead_leBytes record.head_lt record.pubDiv_le _ _ _),
    bind_of_ok (decodeInto_field record.down _ _ _ _), bind_of_ok (decodeInto_field record.up _ _ _ _),
    bind_of_ok (decodeInterval_leBytes record.minInt_le _ _ _),
    bind_of_ok (decodeInto_field record.first _ _ _ _),
    bind_of_ok (decodeInto_field record.second _ _ _ _)]
  rfl

theorem sensorCadenceDecode_eq_ok (h : sensorCadenceDecode type st = (.ok (), st')) :
    ∃ record : CadenceRecord type, st.buf = ⟨record.bytes ++ st'.buf.data, st'.buf.size⟩ ∧
      st'.cadence = record.cadence := by
  obtain ⟨delta, st₁, hhead, h₁⟩ := ok_of_bind h
  obtain ⟨_, st₂, hdown, h₂⟩ := ok_of_bind h₁
  obtain ⟨_, st₃, hup, h₃⟩ := ok_of_bind h₂
  obtain ⟨_, st₄, hinterval, h₄⟩ := ok_of_bind h₃
  obtain ⟨_, st₅, hfirst, h₅⟩ := ok_of_bind h₄
  obtain ⟨_, st₆, hsecond, horder⟩ := ok_of_bind h₅
  obtain ⟨head, hlt, hpubDiv, rfl, hbuf₁, hcadence₁⟩ := decodeHead_eq_ok hhead
  obtain ⟨down, hbuf₂, hcadence₂⟩ := decodeInto_eq_ok hdown
  obtain ⟨up, hbuf₃, hcadence₃⟩ := decodeInto_eq_ok hup
  obtain ⟨minInt, hminInt, hbuf₄, hcadence₄⟩ := decodeInterval_eq_ok hinterval
  obtain ⟨first, hbuf₅, hcadence₅⟩ := decodeInto_eq_ok hfirst
  obtain ⟨second, hbuf₆, hcadence₆⟩ := decodeInto_eq_ok hsecond
  cases horder
  refine ⟨⟨head, minInt, down, up, first, second, hlt, hpubDiv, hminInt⟩, ?_, ?_⟩
  · simp only [hbuf₁, hbuf₂, hbuf₃, hbuf₄, hbuf₅, hbuf₆, CadenceRecord.bytes, List.append_assoc]
  · simp only [hcadence₆, hcadence₅, hcadence₄, hcadence₃, hcadence₂, hcadence₁,
      CadenceRecord.cadence, SensorThreshold.ordered]

end Records

def Represents (format : SensorFormat) (value : SensorValue) : Prop :=
  ∃ bytes, format.payload value = .ok bytes ∧ format.interpret bytes = .ok value

structure CadenceValues (type : SensorType) (cadence : Cadence) : Prop where
  pubDiv : cadence.pubDiv ≤ sensorPeriodDivMax
  minInt : cadence.minInt ≤ sensorIntervalMax
  down : Represents (deltaFormat type cadence.threshold.deltaType) cadence.threshold.deltaDown
  up : Represents (deltaFormat type cadence.threshold.deltaType) cadence.threshold.deltaUp
  low : Represents type.firstFormat cadence.threshold.rangeLow
  high : Represents type.firstFormat cadence.threshold.rangeHigh

def cadenceLen (type : SensorType) (delta : SensorDelta) : Nat :=
  2 + 2 * (deltaFormat type delta).size + 2 * type.firstFormat.size

def SensorThreshold.firstEnd (threshold : SensorThreshold) : SensorValue :=
  if threshold.rangeCadence = .fast then threshold.rangeLow else threshold.rangeHigh

def SensorThreshold.secondEnd (threshold : SensorThreshold) : SensorValue :=
  if threshold.rangeCadence = .fast then threshold.rangeHigh else threshold.rangeLow

def Cadence.restored (cadence : Cadence) : Cadence :=
  { cadence with threshold := { cadence.threshold with
      rangeLow := cadence.threshold.firstEnd
      rangeHigh := cadence.threshold.secondEnd }.ordered }

section Encode

variable {format : SensorFormat} {type : SensorType} {cadence : Cadence}

theorem exists_field {read : SensorFormat} (hread : read = format) {value : SensorValue}
    (h : Represents format value) :
    ∃ field : FormatField read, field.value = value ∧ field.bytes.length = format.size ∧
      ∀ buf : NetBuf, format.size ≤ buf.tailroom →
        chEncode buf format value = .ok (buf.addMem field.bytes) := by
  obtain ⟨bytes, hpayload, hinterpret⟩ := h
  subst hread
  refine ⟨⟨bytes, value, read.length_payload _ _ hpayload, hinterpret⟩, rfl,
    read.length_payload _ _ hpayload, ?_⟩
  intro buf hroom
  unfold chEncode SensorFormat.encode
  rw [if_neg (by omega), hpayload]
  rfl

theorem addU8_eq {buf : NetBuf} (hroom : 1 ≤ buf.tailroom) {value : Nat} (h : value < 256) :
    addU8 buf value = .ok (buf.addMem (leBytes 1 value)) := by
  unfold addU8
  rw [if_neg (by omega), NetBuf.addLe_eq_addMem, Nat.mod_eq_of_lt (show value < 2 ^ (8 * 1) from h)]

private theorem shifted_fields : ∀ pubDiv ≤ sensorPeriodDivMax, ∀ bit < 2,
    (bit <<< 7 ||| (pubDiv &&& 127)) < 256 ∧ (bit <<< 7 ||| (pubDiv &&& 127)) >>> 7 = bit ∧
      (bit <<< 7 ||| (pubDiv &&& 127)) &&& 127 = pubDiv := by
  decide

theorem divAndType_fields (hpubDiv : cadence.pubDiv ≤ sensorPeriodDivMax)
    (hdelta : cadence.threshold.deltaType ≠ .disabled) : cadence.divAndType < 256 ∧
      headDelta cadence.divAndType = cadence.threshold.deltaType ∧
        cadence.divAndType &&& 127 = cadence.pubDiv := by
  obtain ⟨hlt, hbit, hdiv⟩ := shifted_fields cadence.pubDiv hpubDiv
    (if cadence.threshold.deltaType = .value then 0 else 1) (by split_ifs <;> decide)
  refine ⟨hlt, ?_, hdiv⟩
  unfold headDelta Cadence.divAndType
  rw [hbit]
  cases hcase : cadence.threshold.deltaType with
  | value => rfl
  | percent => rfl
  | disabled => exact absurd hcase hdelta

theorem CadenceValues.firstEnd (h : CadenceValues type cadence) :
    Represents type.firstFormat cadence.threshold.firstEnd := by
  unfold SensorThreshold.firstEnd
  split_ifs
  · exact h.low
  · exact h.high

theorem CadenceValues.secondEnd (h : CadenceValues type cadence) :
    Represents type.firstFormat cadence.threshold.secondEnd := by
  unfold SensorThreshold.secondEnd
  split_ifs
  · exact h.high
  · exact h.low

theorem ends_eq (threshold : SensorThreshold) :
    (if threshold.rangeCadence = .fast then (threshold.rangeLow, threshold.rangeHigh)
      else (threshold.rangeHigh, threshold.rangeLow)) =
        (threshold.firstEnd, threshold.secondEnd) := by
  unfold SensorThreshold.firstEnd SensorThreshold.secondEnd
  split_ifs <;> rfl

theorem CadenceRecord.length_bytes (record : CadenceRecord type) :
    record.bytes.length = cadenceLen type (headDelta record.head) := by
  simp only [CadenceRecord.bytes, List.length_append, length_leBytes, record.down.length_bytes,
    record.up.length_bytes, record.first.length_bytes, record.second.length_bytes, cadenceLen]
  omega

theorem sensorCadenceEncode_record (h : CadenceValues type cadence)
    (hdelta : cadence.threshold.deltaType ≠ .disabled) :
    ∃ record : CadenceRecord type, record.cadence = cadence.restored ∧ ∀ buf : NetBuf,
      cadenceLen type cadence.threshold.deltaType ≤ buf.tailroom →
        sensorCadenceEncode buf type cadence = .ok (buf.addMem record.bytes) := by
  have hminInt : cadence.minInt < 256 := h.minInt.trans_lt (by decide)
  obtain ⟨hlt, hread, hdiv⟩ := divAndType_fields h.pubDiv hdelta
  obtain ⟨down, hdownValue, hdownLen, hdown⟩ :=
    exists_field (congrArg (deltaFormat type) hread) h.down
  obtain ⟨up, hupValue, hupLen, hup⟩ := exists_field (congrArg (deltaFormat type) hread) h.up
  obtain ⟨first, hfirstValue, hfirstLen, hfirst⟩ := exists_field rfl h.firstEnd
  obtain ⟨second, hsecondValue, -, hsecond⟩ := exists_field rfl h.secondEnd
  refine ⟨⟨cadence.divAndType, cadence.minInt, down, up, first, second, hlt, hdiv.trans_le h.pubDiv,
    h.minInt⟩,
    ?_, ?_⟩
  · simp only [CadenceRecord.cadence, Cadence.restored, hdownValue, hupValue, hfirstValue,
      hsecondValue, hread, hdiv, SensorThreshold.ordered]
  · intro buf hroom
    unfold cadenceLen at hroom
    unfold sensorCadenceEncode
    simp only [ends_eq, bind, Except.bind]
    rw [addU8_eq (by omega) hlt]
    dsimp only
    rw [hdown _ (by simp only [NetBuf.tailroom_addMem, length_leBytes]; omega)]
    dsimp only
    rw [hup _ (by simp only [NetBuf.tailroom_addMem, length_leBytes, hdownLen]; omega)]
    dsimp only
    rw [addU8_eq (by
      simp only [NetBuf.tailroom_addMem, length_leBytes, hdownLen, hupLen]
      omega) hminInt]
    dsimp only
    rw [hfirst _ (by
      simp only [NetBuf.tailroom_addMem, length_leBytes, hdownLen, hupLen]
      omega)]
    dsimp only
    rw [hsecond _ (by
      simp only [NetBuf.tailroom_addMem, length_leBytes, hdownLen, hupLen, hfirstLen]
      omega)]
    simp only [NetBuf.addMem_addMem, CadenceRecord.bytes, List.append_assoc]

theorem restored_of_lexLt (hlt : cadence.threshold.rangeLow.lexLt cadence.threshold.rangeHigh = true)
    (hnot : cadence.threshold.rangeHigh.lexLt cadence.threshold.rangeLow = false) :
    cadence.restored = cadence := by
  obtain ⟨pubDiv, minInt, deltaType, deltaUp, deltaDown, rangeCadence, low, high⟩ := cadence
  dsimp only at hlt hnot
  cases rangeCadence with
  | normal => simp [Cadence.restored, SensorThreshold.ordered, SensorThreshold.firstEnd,
      SensorThreshold.secondEnd, hlt]
  | fast => simp [Cadence.restored, SensorThreshold.ordered, SensorThreshold.firstEnd,
      SensorThreshold.secondEnd, hnot]

end Encode

/-- `boolean_encode` and `boolean_decode`. -/
def booleanFormat : SensorFormat where
  size := 1
  payload value := .ok [if value.val1 ≠ 0 then 1 else 0]
  interpret bytes :=
    if leValue (bytes.take 1) > 1 then .error .EINVAL else .ok ⟨leValue (bytes.take 1), 0⟩
  size_pos := Nat.one_pos
  length_payload := by
    intro value bytes h
    cases h
    rfl

/-- `exp_1_1_encode` and `exp_1_1_decode`, with the product in `int`. -/
def timeExp8Format : SensorFormat where
  size := 1
  payload value := .ok [UInt8.ofNat (sensorPowtimeEncode
    (toUnsigned 64 (toSigned 32 (value.val1 * 1000 + value.val2.tdiv 1000))).toNat)]
  interpret bytes :=
    let timeNs := sensorPowtimeDecodeNs (leValue (bytes.take 1))
    .ok ⟨toSigned 32 (timeNs / 1000000 : Nat), toSigned 32 (timeNs % 1000000 : Nat)⟩
  size_pos := Nat.one_pos
  length_payload := by
    intro value bytes h
    cases h
    rfl

/-- The decoder gives values whose parts have one sign and whose second part is less than a whole.
-/
def SensorFormat.DecodesNormal (format : SensorFormat) : Prop :=
  ∀ bytes value, format.interpret bytes = .ok value → value.Normal

/-- The formats of `sensor_types.c`. The format `coefficient` computes with floating-point numbers, and
is left open here. -/
inductive InTable (coefficient : SensorFormat) : SensorFormat → Prop
  | scalar {format : Format} (h : format ∈ scalarFormats) (hpos : 0 < format.size)
      (hle : format.size ≤ 4) : InTable coefficient (.ofScalar format hpos hle)
  | boolean : InTable coefficient booleanFormat
  | timeExp8 : InTable coefficient timeExp8Format
  | coefficient : InTable coefficient coefficient

theorem toSigned_bounds {w : Nat} (hpos : 1 ≤ w) (hle : w ≤ 32) (x : Int) :
    -2 ^ 31 ≤ toSigned w x ∧ toSigned w x < 2 ^ 31 := by
  obtain ⟨n, rfl⟩ : ∃ n, w = n + 1 := ⟨w - 1, by omega⟩
  have hpow : (2 : Int) ^ n ≤ 2 ^ 31 := by
    exact_mod_cast Nat.pow_le_pow_right (by decide : 0 < 2) (by omega : n ≤ 31)
  have hmod : 0 < 2 ^ (n + 1) := Nat.two_pow_pos _
  have hge := Int.le_bmod (x := x) hmod
  have hlt := Int.bmod_lt (x := x) hmod
  have hhalf : ((2 ^ (n + 1) : Nat) : Int) = 2 * 2 ^ n := by
    push_cast
    ring
  rw [hhalf] at hge hlt
  unfold toSigned
  omega

section Normal

variable {format : Format}

/-- The decoder works on an `int32_t`. -/
theorem readRaw_bounds (htab : Tabled format) {buf rest : NetBuf} {raw : Int}
    (h : readRaw format buf = .ok (raw, rest)) : -2 ^ 31 ≤ raw ∧ raw < 2 ^ 31 := by
  have hvalue : (buf.pullLe format.size).1 < 2 ^ (8 * format.size) := by
    apply (leValue_lt _).trans_le
    apply Nat.pow_le_pow_right (by decide)
    rw [List.length_take]
    omega
  unfold readRaw at h
  rcases htab.size with hsize | hsize | hsize | hsize <;>
    simp only [hsize, Except.ok.injEq, Prod.mk.injEq] at h hvalue <;> rw [← h.1]
  · split_ifs
    · exact toSigned_bounds (by decide) (by decide) _
    · omega
  · split_ifs
    · exact toSigned_bounds (by decide) (by decide) _
    · omega
  · split_ifs
    · exact toSigned_bounds (by decide) (by decide) _
    · omega
  · exact toSigned_bounds (by decide) (by decide) _

theorem normal_of_million {million : Int} (hge : -2 ^ 31 ≤ million.tdiv 1000000)
    (hlt : million.tdiv 1000000 < 2 ^ 31) :
    SensorValue.Normal ⟨toSigned 32 (million.tdiv 1000000), toSigned 32 (million.tmod 1000000)⟩ := by
  have hmod := Int.tmod_lt_of_pos million (by decide : (0 : Int) < 1000000)
  have hmod' := Int.tmod_lt_of_pos (-million) (by decide : (0 : Int) < 1000000)
  rw [Int.neg_tmod] at hmod'
  have hgt : -1000000 < million.tmod 1000000 := by omega
  have hsign : (0 ≤ million.tdiv 1000000 ∧ 0 ≤ million.tmod 1000000) ∨
      (million.tdiv 1000000 ≤ 0 ∧ million.tmod 1000000 ≤ 0) := by
    by_cases hsign : 0 ≤ million
    · exact Or.inl ⟨Int.tdiv_nonneg hsign (by decide), Int.tmod_nonneg _ hsign⟩
    · have hquot := Int.tdiv_nonneg (by omega : 0 ≤ -million) (by decide : (0 : Int) ≤ 1000000)
      have hrem := Int.tmod_nonneg 1000000 (by omega : 0 ≤ -million)
      rw [Int.neg_tdiv] at hquot
      rw [Int.neg_tmod] at hrem
      exact Or.inr ⟨by omega, by omega⟩
  rw [toSigned_of_mem (w := 31) hge hlt, toSigned_of_mem (w := 31) (by omega) (by omega)]
  exact ⟨hge, hlt, hgt, hmod, hsign⟩

theorem normal_of_whole {val1 : Int} (h : -2 ^ 31 ≤ val1 ∧ val1 < 2 ^ 31) :
    SensorValue.Normal ⟨val1, 0⟩ :=
  ⟨h.1, h.2, neg_neg_of_pos (by decide : (0 : Int) < 1000000), (by decide : (0 : Int) < 1000000),
    (le_total 0 val1).imp (fun hnonneg => ⟨hnonneg, le_refl 0⟩) fun hneg => ⟨hneg, le_refl 0⟩⟩

theorem tdiv_million_bounds {raw value : Int} (hvalue : 0 < value) (hge : -2 ^ 31 ≤ raw)
    (hlt : raw < 2 ^ 31) :
    -2 ^ 31 ≤ ((raw * 1000000).tdiv value).tdiv 1000000 ∧
      ((raw * 1000000).tdiv value).tdiv 1000000 < 2 ^ 31 := by
  have hnonneg {x : Int} (hx : 0 ≤ x) :
      0 ≤ ((x * 1000000).tdiv value).tdiv 1000000 ∧
        ((x * 1000000).tdiv value).tdiv 1000000 ≤ x := by
    have hquot := Int.ediv_nonneg (by omega : 0 ≤ x * 1000000) hvalue.le
    have hle := Int.ediv_le_self value (by omega : 0 ≤ x * 1000000)
    rw [Int.tdiv_eq_ediv_of_nonneg (by omega : 0 ≤ x * 1000000), Int.tdiv_eq_ediv_of_nonneg hquot]
    omega
  by_cases hsign : 0 ≤ raw
  · have h := hnonneg hsign
    omega
  · have h := hnonneg (by omega : 0 ≤ -raw)
    rw [neg_mul, Int.neg_tdiv, Int.neg_tdiv] at h
    omega

theorem normal_of_scalarDecode (htab : Tabled format) {buf rest : NetBuf} {value : SensorValue}
    (h : scalarDecode format buf = .ok (value, rest)) : value.Normal := by
  unfold scalarDecode at h
  split_ifs at h with hshort
  · cases h
  · simp only [bind_eq_ok] at h
    obtain ⟨⟨raw, rest'⟩, hraw, h⟩ := h
    obtain ⟨hge, hlt⟩ := readRaw_bounds htab hraw
    dsimp only at h
    split_ifs at h with hrange
    · cases h
    · cases h
      by_cases hdivide : format.userData.flags.divide = true
      · have hbounds := tdiv_million_bounds htab.value_pos hge hlt
        rw [mulScalar, if_pos hdivide]
        exact normal_of_million hbounds.1 hbounds.2
      · have hswap : raw * 1000000 * format.userData.value = raw * format.userData.value * 1000000 := by
          ring
        rw [mulScalar, if_neg hdivide, hswap, Int.mul_tdiv_cancel _ (by decide), Int.mul_tmod_left]
        exact normal_of_whole (toSigned_bounds (by decide) (by decide) _)

end Normal

theorem sensorPowtimeDecodeNs_lt : ∀ val < 256, sensorPowtimeDecodeNs val < 1000000 * 2 ^ 31 := by
  decide +kernel

section Formats

variable {coefficient format : SensorFormat}

theorem InTable.decodesNormal (hcoefficient : coefficient.DecodesNormal)
    (h : InTable coefficient format) : format.DecodesNormal := by
  intro bytes value hread
  cases h with
  | scalar hformat hpos hle =>
    rename_i format
    change (scalarDecode format ⟨bytes, 0⟩).map Prod.fst = .ok value at hread
    cases hdecode : scalarDecode format ⟨bytes, 0⟩ with
    | error e =>
      rw [hdecode] at hread
      cases hread
    | ok result =>
      rw [hdecode] at hread
      cases hread
      exact normal_of_scalarDecode (tabled_of_mem format hformat) hdecode
  | boolean =>
    simp only [booleanFormat] at hread
    split_ifs at hread with hrange
    cases hread
    exact normal_of_whole ⟨by omega, by omega⟩
  | timeExp8 =>
    simp only [timeExp8Format, Except.ok.injEq] at hread
    have hval : leValue (bytes.take 1) < 2 ^ (8 * 1) := by
      apply (leValue_lt _).trans_le
      apply Nat.pow_le_pow_right (by decide)
      rw [List.length_take]
      omega
    have hns := sensorPowtimeDecodeNs_lt _ hval
    have hquot : ((sensorPowtimeDecodeNs (leValue (bytes.take 1)) : Int)).tdiv 1000000 < 2 ^ 31 := by
      rw [Int.tdiv_eq_ediv_of_nonneg (Int.natCast_nonneg _)]
      omega
    have hnormal := normal_of_million
      (le_trans (by decide) (Int.tdiv_nonneg (Int.natCast_nonneg _) (by decide))) hquot
    rw [← hread]
    exact hnormal
  | coefficient => exact hcoefficient bytes value hread

/-- The limits are kept, the formats represent the values, and the range is not empty. -/
structure CadenceSendable (type : SensorType) (cadence : Cadence) : Prop
    extends CadenceValues type cadence where
  range : sensorMill cadence.threshold.rangeLow < sensorMill cadence.threshold.rangeHigh

/-- The cadence is encoded, and decoded from these bytes, whatever follows them and whatever the
pointers point at before. -/
def CadenceRoundTrips (type : SensorType) (cadence : Cadence) (buf : NetBuf) : Prop :=
  ∃ bytes, sensorCadenceEncode buf type cadence = .ok (buf.addMem bytes) ∧
    ∀ rest size out, sensorCadenceDecode type ⟨⟨bytes ++ rest, size⟩, out⟩ =
      (.ok (), ⟨⟨rest, size⟩, cadence⟩)

section Sendable

variable {type : SensorType} {cadence : Cadence}

theorem CadenceSendable.restored (h : CadenceSendable type cadence)
    (hnormal : type.firstFormat.DecodesNormal) : cadence.restored = cadence := by
  obtain ⟨low, -, hlow⟩ := h.low
  obtain ⟨high, -, hhigh⟩ := h.high
  have hlowNormal := hnormal _ _ hlow
  have hhighNormal := hnormal _ _ hhigh
  apply restored_of_lexLt
  · exact (SensorValue.lexLt_iff hlowNormal hhighNormal).mpr h.range
  · apply eq_false_of_ne_true
    intro hlt
    have hback := (SensorValue.lexLt_iff hhighNormal hlowNormal).mp hlt
    have hrange := h.range
    omega

theorem CadenceRecord.not_disabled (record : CadenceRecord type) :
    record.cadence.threshold.deltaType ≠ .disabled := by
  have hhead : headDelta record.head ≠ .disabled := by
    unfold headDelta
    split_ifs <;> decide
  rwa [CadenceRecord.cadence, SensorThreshold.ordered_deltaType]

theorem not_disabled_of_roundTrips {buf : NetBuf} (h : CadenceRoundTrips type cadence buf) :
    cadence.threshold.deltaType ≠ .disabled := by
  obtain ⟨bytes, -, hdecode⟩ := h
  obtain ⟨record, -, hcadence⟩ := sensorCadenceDecode_eq_ok (hdecode [] 0 cadence)
  dsimp only at hcadence
  rw [hcadence]
  exact record.not_disabled

end Sendable

/-- A cadence comes back from its bytes exactly if its delta threshold is not disabled. -/
theorem sensorCadence_roundTrips_iff (hcoefficient : coefficient.DecodesNormal)
    (hformat : InTable coefficient format) {type : SensorType} (hchannels : type.channels = [format])
    {cadence : Cadence} (hcadence : CadenceSendable type cadence) {buf : NetBuf}
    (hroom : cadenceLen type cadence.threshold.deltaType ≤ buf.tailroom) :
    CadenceRoundTrips type cadence buf ↔ cadence.threshold.deltaType ≠ .disabled := by
  have hfirst : type.firstFormat = format := by
    unfold SensorType.firstFormat
    simp only [hchannels, List.head_cons]
  constructor
  · exact not_disabled_of_roundTrips
  · intro hdelta
    obtain ⟨record, hrecord, hencode⟩ :=
      sensorCadenceEncode_record hcadence.toCadenceValues hdelta
    refine ⟨_, hencode buf hroom, ?_⟩
    intro rest size out
    rw [sensorCadenceDecode_record, hrecord,
      hcadence.restored (hfirst ▸ hformat.decodesNormal hcoefficient)]

end Formats

def tempCadence (delta : SensorDelta) (cadence : SensorCadence) : Cadence where
  pubDiv := 3
  minInt := 10
  threshold := ⟨delta, ⟨1, 0⟩, ⟨1, 0⟩, cadence, ⟨5, 500000⟩, ⟨21, 500000⟩⟩

/-- The format `coefficient` at zero. -/
def zeroCoefficient : SensorFormat where
  size := 4
  payload value := if value = ⟨0, 0⟩ then .ok [0, 0, 0, 0] else .error Errno.EIO
  interpret bytes := if bytes = [0, 0, 0, 0] then .ok ⟨0, 0⟩ else .error Errno.EIO
  size_pos := four_pos
  length_payload := by
    intro value bytes h
    split_ifs at h
    cases h
    rfl

theorem zeroCoefficient_decodesNormal : zeroCoefficient.DecodesNormal := by
  intro bytes value h
  simp only [zeroCoefficient] at h
  split_ifs at h
  cases h
  exact normal_of_whole (by decide)

theorem represents_of_returnsWith {format : SensorFormat} {value : SensorValue}
    (h : returnsWith (format.payload value >>= format.interpret) (· = value) = true) :
    Represents format value := by
  obtain ⟨result, hresult, heq⟩ := exists_of_returnsWith _ h
  obtain ⟨bytes, hbytes, hread⟩ := bind_eq_ok.mp hresult
  rw [of_decide_eq_true heq] at hread
  exact ⟨bytes, hbytes, hread⟩

theorem tempCadence_sendable {delta : SensorDelta} {cadence : SensorCadence} :
    CadenceSendable presentAmbTemp (tempCadence delta cadence) := by
  have hdelta : Represents (deltaFormat presentAmbTemp delta) ⟨1, 0⟩ := by
    unfold deltaFormat
    split_ifs
    · exact represents_of_returnsWith (by decide +kernel)
    · exact represents_of_returnsWith (by decide +kernel)
  have hends : Represents presentAmbTemp.firstFormat ⟨5, 500000⟩ ∧
      Represents presentAmbTemp.firstFormat ⟨21, 500000⟩ :=
    ⟨represents_of_returnsWith (by decide +kernel), represents_of_returnsWith (by decide +kernel)⟩
  exact ⟨⟨(by decide : 3 ≤ sensorPeriodDivMax), (by decide : 10 ≤ sensorIntervalMax), hdelta, hdelta,
    hends.1, hends.2⟩, (by decide : sensorMill ⟨5, 500000⟩ < sensorMill ⟨21, 500000⟩)⟩

/-- A delta threshold in percent, and a fast cadence outside of the range. -/
theorem tempCadence_roundTrips :
    CadenceRoundTrips presentAmbTemp (tempCadence .percent .normal) ⟨[], 8⟩ :=
  (sensorCadence_roundTrips_iff zeroCoefficient_decodesNormal
    (.scalar (by decide +kernel) temp8_size_pos temp8_size_le) rfl tempCadence_sendable
      (by decide)).mpr (by decide)

/-- A disabled delta threshold of one degree is read as one of some percent, and what follows is read
from the wrong bytes. -/
theorem tempCadence_disabled :
    CadenceSendable presentAmbTemp (tempCadence .disabled .fast) ∧
      ¬ CadenceRoundTrips presentAmbTemp (tempCadence .disabled .fast) ⟨[], 8⟩ :=
  ⟨tempCadence_sendable, fun h => not_disabled_of_roundTrips h rfl⟩

end SdkNrf.Mesh
