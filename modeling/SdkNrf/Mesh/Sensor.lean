import SdkNrf.Mesh.SensorTypes

/-!
# Mesh sensors

The formats and types of sensors, their cadence, and the parts of a status message, as in `sensor.c`.
-/

namespace SdkNrf.Mesh

namespace NetBuf

/-- `net_buf_simple_add_mem`. -/
def addMem (buf : NetBuf) (bytes : List UInt8) : NetBuf := { buf with data := buf.data ++ bytes }

/-- `net_buf_simple_pull`. -/
def pull (buf : NetBuf) (count : Nat) : NetBuf := { buf with data := buf.data.drop count }

@[simp] theorem addMem_data (buf : NetBuf) (bytes : List UInt8) :
    (buf.addMem bytes).data = buf.data ++ bytes := rfl

@[simp] theorem addMem_size (buf : NetBuf) (bytes : List UInt8) :
    (buf.addMem bytes).size = buf.size := rfl

@[simp] theorem addMem_addMem (buf : NetBuf) (first second : List UInt8) :
    (buf.addMem first).addMem second = buf.addMem (first ++ second) := by
  simp only [addMem, List.append_assoc]

@[simp] theorem addMem_nil (buf : NetBuf) : buf.addMem [] = buf := by
  simp only [addMem, List.append_nil]

theorem tailroom_addMem (buf : NetBuf) (bytes : List UInt8) :
    (buf.addMem bytes).tailroom = buf.tailroom - bytes.length := by
  simp only [tailroom, addMem, List.length_append]
  omega

end NetBuf

/-- `struct bt_mesh_sensor_format`. The encoder appends `size` bytes that depend on the value only,
and the decoder pulls `size` bytes. -/
structure SensorFormat where
  size : Nat
  payload : SensorValue → Except Errno (List UInt8)
  interpret : List UInt8 → Except Errno SensorValue
  size_pos : 0 < size
  length_payload : ∀ value bytes, payload value = .ok bytes → bytes.length = size

namespace SensorFormat

/-- `sensor_ch_encode`. -/
def encode (format : SensorFormat) (value : SensorValue) (buf : NetBuf) : Except Errno NetBuf :=
  if buf.tailroom < format.size then .error .ENOMEM
  else (format.payload value).map buf.addMem

/-- `sensor_ch_decode`. The bytes are pulled before their value is checked. -/
def decode (format : SensorFormat) (buf : NetBuf) : NetBuf × Except Errno SensorValue :=
  if buf.data.length < format.size then (buf, .error .ENOMEM)
  else (buf.pull format.size, format.interpret (buf.data.take format.size))

theorem exists_of_encode_eq_ok {format : SensorFormat} {value : SensorValue} {buf buf' : NetBuf}
    (h : format.encode value buf = .ok buf') :
    ∃ bytes, format.payload value = .ok bytes ∧ buf' = buf.addMem bytes := by
  rw [encode] at h
  split at h
  · cases h
  · cases hpayload : format.payload value with
    | error e =>
      rw [hpayload] at h
      cases h
    | ok bytes =>
      rw [hpayload] at h
      cases h
      exact ⟨bytes, rfl, rfl⟩

theorem decode_append (format : SensorFormat) {bytes : List UInt8}
    (hlength : bytes.length = format.size) (rest : List UInt8) (size : Nat) :
    format.decode ⟨bytes ++ rest, size⟩ = (⟨rest, size⟩, format.interpret bytes) := by
  rw [decode, if_neg (by rw [List.length_append]; omega)]
  simp only [NetBuf.pull, ← hlength, List.drop_left, List.take_left]

end SensorFormat

variable {format : Format}

/-- The bytes that `scalar_encode` appends do not depend on the buffer. -/
theorem scalarEncode_eq_addMem (hpos : 0 < format.size) (hle : format.size ≤ 4)
    (value : SensorValue) (buf : NetBuf) :
    scalarEncode format value buf = if buf.tailroom < format.size then .error .ENOMEM
      else ((scalarEncode format value ⟨[], format.size⟩).map NetBuf.data).map buf.addMem := by
  have hroom : ¬ (NetBuf.tailroom ⟨[], format.size⟩) < format.size := by
    simp [NetBuf.tailroom]
  by_cases hfull : buf.tailroom < format.size
  · simp only [scalarEncode, if_pos hfull]
    rfl
  · simp only [scalarEncode, if_neg hfull, if_neg hroom]
    cases clampRaw format (divScalar value.val1 format.userData
        + (divScalar value.val2 format.userData).tdiv 1000000) with
    | error e => rfl
    | ok raw =>
      obtain h | h | h | h : format.size = 1 ∨ format.size = 2 ∨ format.size = 3
          ∨ format.size = 4 := by omega
      all_goals rw [h]; rfl

private theorem readRaw_eq_pull (hpos : 0 < format.size) (hle : format.size ≤ 4) (buf : NetBuf) :
    readRaw format buf = ((readRaw format ⟨buf.data.take format.size, 0⟩).map Prod.fst).map
      (·, buf.pull format.size) := by
  obtain h | h | h | h : format.size = 1 ∨ format.size = 2 ∨ format.size = 3
      ∨ format.size = 4 := by omega
  all_goals simp [readRaw, NetBuf.pullLe, h, NetBuf.pull, Except.map, List.take_take]

/-- The value that `scalar_decode` finds depends on the pulled bytes only. -/
theorem scalarDecode_eq_pull (hpos : 0 < format.size) (hle : format.size ≤ 4) (buf : NetBuf) :
    scalarDecode format buf = if buf.data.length < format.size then .error .ENOMEM
      else ((scalarDecode format ⟨buf.data.take format.size, 0⟩).map Prod.fst).map
        (·, buf.pull format.size) := by
  by_cases hshort : buf.data.length < format.size
  · simp only [scalarDecode, if_pos hshort]
    rfl
  · have htake : ¬ (buf.data.take format.size).length < format.size := by
      rw [List.length_take]
      omega
    simp only [scalarDecode, if_neg hshort, if_neg htake]
    rw [readRaw_eq_pull hpos hle]
    cases readRaw format ⟨buf.data.take format.size, 0⟩ with
    | error e => rfl
    | ok read =>
      simp only [Except.map, bind, Except.bind]
      split <;> rfl

variable {bytes : List UInt8}

private theorem length_of_scalarEncode (hpos : 0 < format.size) (hle : format.size ≤ 4)
    (value : SensorValue)
    (h : (scalarEncode format value ⟨[], format.size⟩).map NetBuf.data = .ok bytes) :
    bytes.length = format.size := by
  have hroom : ¬ (NetBuf.tailroom ⟨[], format.size⟩) < format.size := by
    simp [NetBuf.tailroom]
  simp only [scalarEncode, if_neg hroom] at h
  cases hraw : clampRaw format (divScalar value.val1 format.userData
      + (divScalar value.val2 format.userData).tdiv 1000000) with
  | error e =>
    rw [hraw] at h
    cases h
  | ok raw =>
    rw [hraw] at h
    obtain hsize | hsize | hsize | hsize : format.size = 1 ∨ format.size = 2 ∨ format.size = 3
        ∨ format.size = 4 := by omega
    all_goals
      rw [hsize] at h ⊢
      cases h
      simp [NetBuf.addLe]

/-- The formats with `scalar_encode` and `scalar_decode`. -/
def SensorFormat.ofScalar (format : Format) (hpos : 0 < format.size) (hle : format.size ≤ 4) :
    SensorFormat where
  size := format.size
  payload value := (scalarEncode format value ⟨[], format.size⟩).map NetBuf.data
  interpret bytes := (scalarDecode format ⟨bytes, 0⟩).map Prod.fst
  size_pos := hpos
  length_payload := by
    intro value bytes h
    apply length_of_scalarEncode hpos hle value
    exact h

theorem scalarEncode_eq_encode (hpos : 0 < format.size) (hle : format.size ≤ 4)
    (value : SensorValue) (buf : NetBuf) :
    scalarEncode format value buf
      = (SensorFormat.ofScalar format hpos hle).encode value buf :=
  scalarEncode_eq_addMem hpos hle value buf

theorem scalarDecode_eq_decode (hpos : 0 < format.size) (hle : format.size ≤ 4) (buf : NetBuf) :
    scalarDecode format buf = ((SensorFormat.ofScalar format hpos hle).decode buf).2.map
      (·, ((SensorFormat.ofScalar format hpos hle).decode buf).1) := by
  rw [scalarDecode_eq_pull hpos hle]
  by_cases hshort : buf.data.length < format.size
  · have hofScalar : buf.data.length < (SensorFormat.ofScalar format hpos hle).size := hshort
    rw [if_pos hshort, SensorFormat.decode, if_pos hofScalar]
    rfl
  · have hofScalar : ¬ buf.data.length < (SensorFormat.ofScalar format hpos hle).size := hshort
    rw [if_neg hshort, SensorFormat.decode, if_neg hofScalar]
    rfl

theorem temp8_size_pos : 0 < temp8.size := by decide

theorem temp8_size_le : temp8.size ≤ 4 := by decide

/-- `BT_MESH_PROP_ID_PROHIBITED`. -/
def propIdProhibited : Nat := 0

/-- `struct bt_mesh_sensor_type`, one of the types of `sensor_types.c`. Every one of these has a
value that is shorter than the length field of a status can say. -/
structure SensorType where
  id : Nat
  flagSeries : Bool
  channels : List SensorFormat
  id_pos : 0 < id
  id_lt : id < 2 ^ 16
  len_pos : 0 < (channels.map SensorFormat.size).sum
  len_lt : (channels.map SensorFormat.size).sum < 128

def SensorType.len (type : SensorType) : Nat := (type.channels.map SensorFormat.size).sum

/-- `sensor_value_len`, of type `uint8_t`. -/
def sensorValueLen (type : SensorType) : Nat := type.len % 256

theorem sensorValueLen_eq (type : SensorType) : sensorValueLen type = type.len :=
  Nat.mod_eq_of_lt (by have h := type.len_lt; rw [SensorType.len]; omega)

structure TypeTable where
  types : List SensorType
  nodup : (types.map SensorType.id).Nodup

def sensorTypeGet (table : TypeTable) (id : Nat) : Option SensorType :=
  table.types.find? (·.id = id)

theorem sensorTypeGet_of_mem {table : TypeTable} {type : SensorType} (h : type ∈ table.types) :
    sensorTypeGet table type.id = some type := by
  have hnodup := table.nodup
  rw [sensorTypeGet]
  generalize table.types = types at h hnodup
  induction types with
  | nil => cases h
  | cons first types ih =>
    rw [List.map_cons, List.nodup_cons] at hnodup
    by_cases heq : first.id = type.id
    · rw [List.find?_cons_of_pos (by simpa using heq)]
      cases List.mem_cons.mp h with
      | inl h => rw [h]
      | inr h => exact absurd (List.mem_map.mpr ⟨type, h, heq.symm⟩) hnodup.1
    · rw [List.find?_cons_of_neg (by simpa using heq)]
      apply ih _ hnodup.2
      cases List.mem_cons.mp h with
      | inl h => exact absurd (by rw [h]) heq
      | inr h => exact h

inductive SensorDelta
  | value
  | percent
  | disabled
  deriving DecidableEq, Repr

inductive SensorCadence
  | normal
  | fast
  deriving DecidableEq, Repr

/-- `struct bt_mesh_sensor_threshold`. -/
structure SensorThreshold where
  deltaType : SensorDelta
  deltaUp : SensorValue
  deltaDown : SensorValue
  rangeCadence : SensorCadence
  rangeLow : SensorValue
  rangeHigh : SensorValue
  deriving DecidableEq, Repr

def sensorMill (value : SensorValue) : Int := 1000000 * value.val1 + value.val2

def sensorCadence (threshold : SensorThreshold) (curr : SensorValue) : SensorCadence :=
  let high := sensorMill threshold.rangeHigh
  let low := sensorMill threshold.rangeLow
  if high = low then .normal
  else if min low high ≤ sensorMill curr ∧ sensorMill curr ≤ max low high then
    threshold.rangeCadence
  else
    match threshold.rangeCadence with
    | .normal => .fast
    | .fast => .normal

/-- `struct bt_mesh_sensor`: its type and its internal state. -/
structure Sensor where
  type : SensorType
  threshold : SensorThreshold
  prev : SensorValue
  seq : Nat
  minInt : Nat
  pubDiv : Nat
  fastPub : Bool

/-- `bt_mesh_sensor_delta_threshold`. The differences are of type `int32_t`, and `abs` takes an
`int`. -/
def sensorDeltaThreshold (sensor : Sensor) (curr : SensorValue) : Bool :=
  let delta := sensorMill ⟨toSigned 32 (curr.val1 - sensor.prev.val1),
    toSigned 32 (curr.val2 - sensor.prev.val2)⟩
  let threshold := sensor.threshold
  let thrsh := sensorMill (if delta < 0 then threshold.deltaDown else threshold.deltaUp)
  let thrsh := if threshold.deltaType = .percent then
      (toSigned 64 (|toSigned 32 (sensorMill sensor.prev)| * thrsh)).tdiv (100 * 1000000)
    else thrsh
  |delta| > thrsh

def sensorCadenceUpdate (sensor : Sensor) (value : SensorValue) : Sensor :=
  { sensor with fastPub := sensorCadence sensor.threshold value = .fast }

def sensorStatusIdEncode (buf : NetBuf) (len id : Nat) : Except Errno NetBuf :=
  if (len > 0 ∧ len ≤ 16) ∧ id < 2048 then
    if buf.tailroom < 2 + len then .error .ENOMEM
    else .ok (buf.addLe 2 ((len - 1) <<< 1 ||| id <<< 5 : Nat))
  else if buf.tailroom < 3 + len then .error .ENOMEM
  else .ok ((buf.addLe 1 (1 ||| (toUnsigned 7 (len - 1)).toNat <<< 1 : Nat)).addLe 2 id)

/-- `sensor_status_id_decode`: the length, the ID and the rest of the buffer. -/
def sensorStatusIdDecode (buf : NetBuf) : Nat × Nat × NetBuf :=
  let (first, buf) := buf.pullLe 1
  if first.testBit 0 then
    if buf.data.length < 2 then (0, propIdProhibited, buf)
    else
      let (id, buf) := buf.pullLe 2
      ((first >>> 1) + 1, id, buf)
  else if buf.data.length < 1 then (0, propIdProhibited, buf)
  else
    let (second, buf) := buf.pullLe 1
    ((first >>> 1 &&& 0xF) + 1, first >>> 5 ||| second <<< 3, buf)

/-- `sensor_value_encode`: what the buffer holds afterwards, also on an error. -/
def sensorValueEncode : List SensorFormat → List SensorValue → NetBuf → NetBuf × Except Errno Unit
  | [], _, buf => (buf, .ok ())
  | format :: channels, values, buf =>
    match format.encode (values.headD ⟨0, 0⟩) buf with
    | .error e => (buf, .error e)
    | .ok buf => sensorValueEncode channels values.tail buf

def sensorValueDecode : List SensorFormat → NetBuf → NetBuf × Except Errno (List SensorValue)
  | [], buf => (buf, .ok [])
  | format :: channels, buf =>
    match format.decode buf with
    | (buf, .error e) => (buf, .error e)
    | (buf, .ok value) =>
      let (buf, values) := sensorValueDecode channels buf
      (buf, values.map (value :: ·))

def sensorStatusEncode (buf : NetBuf) (sensor : Sensor) (values : List SensorValue) :
    NetBuf × Except Errno Unit :=
  match sensorStatusIdEncode buf (sensor.type.len % 256) sensor.type.id with
  | .error e => (buf, .error e)
  | .ok buf => sensorValueEncode sensor.type.channels values buf

theorem NetBuf.addLe_eq_addMem (buf : NetBuf) (count value : Nat) :
    buf.addLe count value = buf.addMem (leBytes count (value % 2 ^ (8 * count))) := by
  have hvalue : (toUnsigned (8 * count) value).toNat = value % 2 ^ (8 * count) := by
    rw [toUnsigned, ← Int.toNat_natCast (value % 2 ^ (8 * count))]
    push_cast
    rfl
  rw [NetBuf.addLe, hvalue, NetBuf.addMem]

def statusHeader (len id : Nat) : List UInt8 :=
  if (len > 0 ∧ len ≤ 16) ∧ id < 2048 then leBytes 2 ((len - 1) * 2 + id * 32)
  else leBytes 1 (((len + 127) % 128) * 2 + 1) ++ leBytes 2 id

variable {len id : Nat}

private theorem shortWord_eq (hlen : len ≤ 16) :
    (len - 1) <<< 1 ||| id <<< 5 = (len - 1) * 2 + id * 32 := by
  rw [Nat.shiftLeft_eq, Nat.shiftLeft_eq, Nat.or_comm, Nat.mul_comm id,
    ← Nat.two_pow_add_eq_or_of_lt (by omega : (len - 1) * 2 ^ 1 < 2 ^ 5)]
  omega

private theorem longByte_eq (len : Nat) :
    1 ||| (toUnsigned 7 ((len : Int) - 1)).toNat <<< 1 = (len + 127) % 128 * 2 + 1 := by
  have hmod : (toUnsigned 7 ((len : Int) - 1)).toNat = (len + 127) % 128 := by
    rw [toUnsigned]
    omega
  rw [hmod, Nat.shiftLeft_eq, Nat.or_comm, Nat.mul_comm _ (2 ^ 1),
    ← Nat.two_pow_add_eq_or_of_lt (by decide : 1 < 2 ^ 1)]

theorem sensorStatusIdEncode_eq (buf : NetBuf) (hid : id < 2 ^ 16) :
    sensorStatusIdEncode buf len id
      = if buf.tailroom < (statusHeader len id).length + len then .error .ENOMEM
        else .ok (buf.addMem (statusHeader len id)) := by
  by_cases hshort : (len > 0 ∧ len ≤ 16) ∧ id < 2048
  · have hword : ((len - 1) * 2 + id * 32) % 2 ^ (8 * 2) = (len - 1) * 2 + id * 32 :=
      Nat.mod_eq_of_lt (by omega)
    simp only [sensorStatusIdEncode, statusHeader, if_pos hshort, shortWord_eq hshort.1.2,
      NetBuf.addLe_eq_addMem, hword, length_leBytes]
  · have hbyte : ((len + 127) % 128 * 2 + 1) % 2 ^ (8 * 1) = (len + 127) % 128 * 2 + 1 :=
      Nat.mod_eq_of_lt (by omega)
    have hid' : id % 2 ^ (8 * 2) = id := Nat.mod_eq_of_lt hid
    simp only [sensorStatusIdEncode, statusHeader, if_neg hshort, longByte_eq,
      NetBuf.addLe_eq_addMem, hbyte, hid', length_leBytes, List.length_append,
      NetBuf.addMem_addMem]

theorem NetBuf.pullLe_leBytes (count value : Nat) (rest : List UInt8) (size : Nat) :
    NetBuf.pullLe ⟨leBytes count value ++ rest, size⟩ count
      = (value % 2 ^ (8 * count), ⟨rest, size⟩) := by
  have hlength := length_leBytes count value
  simp only [NetBuf.pullLe, List.take_left' hlength, List.drop_left' hlength, leValue_leBytes]

private theorem shortHeader_fields (hpos : 0 < len) (hlen : len ≤ 16) (hid : id < 2048) :
    (((len - 1) * 2 + id * 32) % 2 ^ (8 * 1)).testBit 0 = false
      ∧ ((((len - 1) * 2 + id * 32) % 2 ^ (8 * 1)) >>> 1 &&& 0xF) + 1 = len
      ∧ (((len - 1) * 2 + id * 32) % 2 ^ (8 * 1)) >>> 5
          ||| (((len - 1) * 2 + id * 32) / 256 % 2 ^ (8 * 1)) <<< 3 = id := by
  refine ⟨?_, ?_, ?_⟩
  · rw [Nat.testBit_zero, decide_eq_false_iff_not]
    omega
  · rw [show 0xF = 2 ^ 4 - 1 from rfl, Nat.and_two_pow_sub_one_eq_mod, Nat.shiftRight_eq_div_pow]
    omega
  · rw [Nat.shiftRight_eq_div_pow, Nat.or_comm,
      ← Nat.shiftLeft_add_eq_or_of_lt (by omega), Nat.shiftLeft_eq]
    omega

theorem sensorStatusIdDecode_header (hlen : len ≤ 128) (hid : id < 2 ^ 16) (rest : List UInt8)
    (size : Nat) :
    sensorStatusIdDecode ⟨statusHeader len id ++ rest, size⟩
      = (if len = 0 then 128 else len, id, ⟨rest, size⟩) := by
  by_cases hshort : (len > 0 ∧ len ≤ 16) ∧ id < 2048
  · have hfields := shortHeader_fields hshort.1.1 hshort.1.2 hshort.2
    have hbytes : leBytes 2 ((len - 1) * 2 + id * 32) ++ rest
        = leBytes 1 ((len - 1) * 2 + id * 32)
          ++ (leBytes 1 (((len - 1) * 2 + id * 32) / 256) ++ rest) := rfl
    have hlong : ¬ (leBytes 1 (((len - 1) * 2 + id * 32) / 256) ++ rest).length < 1 := by
      rw [List.length_append, length_leBytes]
      omega
    simp only [statusHeader, if_pos hshort, hbytes, sensorStatusIdDecode, NetBuf.pullLe_leBytes,
      hfields, hlong, Bool.false_eq_true, if_false, if_neg (Nat.pos_iff_ne_zero.mp hshort.1.1)]
  · have hbyte : ((len + 127) % 128 * 2 + 1) % 2 ^ (8 * 1) = (len + 127) % 128 * 2 + 1 :=
      Nat.mod_eq_of_lt (by omega)
    have hodd : ((len + 127) % 128 * 2 + 1).testBit 0 = true := by
      rw [Nat.testBit_zero, decide_eq_true_iff]
      omega
    have hlong : ¬ (leBytes 2 id ++ rest).length < 2 := by
      rw [List.length_append, length_leBytes]
      omega
    have hlen' : ((len + 127) % 128 * 2 + 1) >>> 1 + 1 = if len = 0 then 128 else len := by
      rw [Nat.shiftRight_eq_div_pow]
      split <;> omega
    simp only [statusHeader, if_neg hshort, List.append_assoc, sensorStatusIdDecode,
      NetBuf.pullLe_leBytes, hbyte, hodd, hlong, if_true, if_false, hlen',
      Nat.mod_eq_of_lt (show id < 2 ^ (8 * 2) from hid)]

def payloads : List SensorFormat → List SensorValue → Except Errno (List UInt8)
  | [], _ => .ok []
  | format :: channels, values => do
    let first ← format.payload (values.headD ⟨0, 0⟩)
    let rest ← payloads channels values.tail
    return first ++ rest

def interprets : List SensorFormat → List UInt8 → Except Errno (List SensorValue)
  | [], _ => .ok []
  | format :: channels, bytes => do
    let value ← format.interpret (bytes.take format.size)
    let values ← interprets channels (bytes.drop format.size)
    return value :: values

variable {channels : List SensorFormat} {values : List SensorValue}

theorem length_payloads (h : payloads channels values = .ok bytes) :
    bytes.length = (channels.map SensorFormat.size).sum := by
  induction channels generalizing values bytes with
  | nil =>
    cases h
    rfl
  | cons format channels ih =>
    simp only [payloads, bind_eq_ok, pure_eq_ok] at h
    obtain ⟨first, hfirst, rest, hrest, rfl⟩ := h
    rw [List.length_append, List.map_cons, List.sum_cons, ih hrest,
      format.length_payload _ _ hfirst]

theorem sensorValueEncode_of_room (channels : List SensorFormat) (values : List SensorValue)
    {buf : NetBuf} (hroom : (channels.map SensorFormat.size).sum ≤ buf.tailroom) :
    ∃ bytes, (sensorValueEncode channels values buf).1 = buf.addMem bytes
      ∧ ((payloads channels values = .ok bytes
          ∧ (sensorValueEncode channels values buf).2 = .ok ())
        ∨ (∃ e, payloads channels values = .error e
          ∧ (sensorValueEncode channels values buf).2 = .error e)) := by
  induction channels generalizing values buf with
  | nil => exact ⟨[], by simp [sensorValueEncode], .inl ⟨rfl, rfl⟩⟩
  | cons format channels ih =>
    rw [List.map_cons, List.sum_cons] at hroom
    have hfits : ¬ buf.tailroom < format.size := by omega
    cases hfirst : format.payload (values.headD ⟨0, 0⟩) with
    | error e =>
      refine ⟨[], ?_, .inr ⟨e, ?_, ?_⟩⟩
      all_goals
        simp only [sensorValueEncode, SensorFormat.encode, if_neg hfits, hfirst, Except.map,
          payloads, NetBuf.addMem_nil]
      rfl
    | ok first =>
      have hlength := format.length_payload _ _ hfirst
      have hrest : (channels.map SensorFormat.size).sum ≤ (buf.addMem first).tailroom := by
        rw [NetBuf.tailroom_addMem]
        omega
      obtain ⟨bytes, hbuf, hresult⟩ := ih values.tail hrest
      have hstep : sensorValueEncode (format :: channels) values buf
          = sensorValueEncode channels values.tail (buf.addMem first) := by
        simp only [sensorValueEncode, SensorFormat.encode, if_neg hfits, hfirst, Except.map]
      refine ⟨first ++ bytes, by rw [hstep, hbuf, NetBuf.addMem_addMem], ?_⟩
      rw [hstep, payloads, hfirst]
      cases hresult with
      | inl hok =>
        left
        rw [hok.1]
        exact ⟨rfl, hok.2⟩
      | inr herror =>
        right
        obtain ⟨e, hpayloads, hencode⟩ := herror
        exact ⟨e, by rw [hpayloads]; rfl, hencode⟩

theorem exists_of_sensorValueEncode_eq_ok {buf : NetBuf}
    (h : (sensorValueEncode channels values buf).2 = .ok ()) :
    ∃ bytes, payloads channels values = .ok bytes
      ∧ (sensorValueEncode channels values buf).1 = buf.addMem bytes := by
  induction channels generalizing values buf with
  | nil => exact ⟨[], rfl, (NetBuf.addMem_nil buf).symm⟩
  | cons format channels ih =>
    rw [sensorValueEncode] at h ⊢
    cases hfirst : format.encode (values.headD ⟨0, 0⟩) buf with
    | error e =>
      rw [hfirst] at h
      cases h
    | ok buf' =>
      rw [hfirst] at h
      obtain ⟨first, hpayload, rfl⟩ := SensorFormat.exists_of_encode_eq_ok hfirst
      obtain ⟨rest, hrest, hbuf⟩ := ih h
      refine ⟨first ++ rest, ?_, ?_⟩
      · rw [payloads, hpayload, hrest]
        rfl
      · simp only [hbuf, NetBuf.addMem_addMem]

theorem sensorValueDecode_append (hlength : bytes.length = (channels.map SensorFormat.size).sum)
    (h : interprets channels bytes = .ok values) (rest : List UInt8) (size : Nat) :
    sensorValueDecode channels ⟨bytes ++ rest, size⟩ = (⟨rest, size⟩, .ok values) := by
  induction channels generalizing bytes values with
  | nil =>
    cases h
    rw [List.map_nil, List.sum_nil, List.length_eq_zero_iff] at hlength
    rw [hlength]
    rfl
  | cons format channels ih =>
    rw [List.map_cons, List.sum_cons] at hlength
    simp only [interprets, bind_eq_ok, pure_eq_ok] at h
    obtain ⟨value, hvalue, others, hothers, rfl⟩ := h
    have hsplit : bytes ++ rest
        = bytes.take format.size ++ (bytes.drop format.size ++ rest) := by
      rw [← List.append_assoc, List.take_append_drop]
    have htake : (bytes.take format.size).length = format.size := by
      rw [List.length_take]
      omega
    have hdrop : (bytes.drop format.size).length = (channels.map SensorFormat.size).sum := by
      rw [List.length_drop]
      omega
    simp only [sensorValueDecode]
    rw [hsplit, format.decode_append htake, hvalue]
    simp only [ih hdrop hothers]
    rfl

end SdkNrf.Mesh
