import SdkNrf.Mesh.Cadence

/-!
# The stored cadence of the sensor server

The server stores the cadence of all its sensors as one sequence of cadence messages, in the order
of its array, and reads them back by their IDs.
-/

namespace SdkNrf.Mesh

/-- `CONFIG_BT_MESH_SENSOR_SRV_SENSORS_MAX` and `CONFIG_BT_MESH_SENSOR_CHANNEL_ENCODED_SIZE_MAX`. -/
structure SensorConfig where
  sensorsMax : Nat
  encodedSizeMax : Nat

/-- The buffer for all messages: `BT_MESH_SENSOR_MSG_MAXLEN_CADENCE_STATUS` for each sensor. -/
def SensorConfig.capacity (config : SensorConfig) : Nat :=
  config.sensorsMax * (4 + 4 * config.encodedSizeMax)

/-- The types of the sensors of a server. `sensor_srv_init` reports a second sensor with the same ID as
an error. -/
structure SensorArray where
  types : List SensorType
  nodup : (types.map SensorType.id).Nodup

def sensorGet (sensors : List Sensor) (id : Nat) : Option Sensor := sensors.find? (·.type.id = id)

def Sensor.cadence (sensor : Sensor) : Cadence := ⟨sensor.pubDiv, sensor.minInt, sensor.threshold⟩

def Sensor.setCadence (sensor : Sensor) (cadence : Cadence) : Sensor :=
  { sensor with
    pubDiv := cadence.pubDiv % 16, minInt := cadence.minInt, threshold := cadence.threshold }

def putSensor (sensors : List Sensor) (new : Sensor) : List Sensor :=
  sensors.map fun sensor => if sensor.type.id = new.type.id then new else sensor

/-- `net_buf_simple_add_le16`. -/
def addLe16 (buf : NetBuf) (value : Nat) : Except CadenceFault NetBuf :=
  if buf.tailroom < 2 then .error .assertion else .ok (buf.addLe 2 value)

/-- The loop of `cadence_store`. -/
def storeLoop : List Sensor → NetBuf → Except CadenceFault NetBuf
  | [], buf => .ok buf
  | sensor :: sensors, buf => do
    let buf ← addLe16 buf sensor.type.id
    let buf ← sensorCadenceEncode buf sensor.type sensor.cadence
    storeLoop sensors buf

/-- `cadence_store`: the data that is stored. On an error nothing is stored. -/
def cadenceStore (config : SensorConfig) (sensors : List Sensor) : Except CadenceFault (List UInt8) :=
  (storeLoop sensors ⟨[], config.capacity⟩).map NetBuf.data

/-- `BT_MESH_SENSOR_MSG_MINLEN_CADENCE_SET`. -/
def minlenCadenceSet : Nat := 8

/-- `cadence_set`, with what has been stored. A message that is too short does not get here, and an
encoding error of the store is ignored. -/
def cadenceSet (config : SensorConfig) (sensors : List Sensor) (data : List UInt8) :
    Except CadenceFault (List Sensor × Option (List UInt8)) :=
  if data.length < minlenCadenceSet then .ok (sensors, none)
  else
    let (id, buf) := NetBuf.pullLe ⟨data, data.length⟩ 2
    if id = propIdProhibited then .ok (sensors, none)
    else
      match sensorGet sensors id with
      | none => .ok (sensors, none)
      | some sensor =>
        if sensor.type.channels.length ≠ 1 then .ok (sensors, none)
        else
          match sensorCadenceDecode sensor.type ⟨buf, sensor.cadence⟩ with
          | (.error .assertion, _) => .error .assertion
          | (.error (.errno _), _) => .ok (sensors, none)
          | (.ok (), st) =>
            let sensors := putSensor sensors (sensor.setCadence st.cadence)
            match cadenceStore config sensors with
            | .error .assertion => .error .assertion
            | .error (.errno _) => .ok (sensors, none)
            | .ok image => .ok (sensors, some image)

inductive SettingsFault
  | errno (e : Errno)
  | ENODEV
  | assertion
  deriving DecidableEq, Repr

def CadenceFault.toSettings : CadenceFault → SettingsFault
  | .errno e => .errno e
  | .assertion => .assertion

/-- The sensor and the buffer after `sensor_cadence_decode` into the sensor. The divisor alone is decoded
into a variable. -/
def decodeIntoSensor (sensor : Sensor) (buf : NetBuf) : Sensor × Except CadenceFault NetBuf :=
  match sensorCadenceDecode sensor.type ⟨buf, sensor.cadence⟩ with
  | (.error e, st) =>
    ({ sensor with minInt := st.cadence.minInt, threshold := st.cadence.threshold }, .error e)
  | (.ok (), st) => (sensor.setCadence st.cadence, .ok st.buf)

/-- One turn of the loop of `sensor_srv_settings_set`. -/
def settingsTurn (sensors : List Sensor) (buf : NetBuf) : List Sensor × Except SettingsFault NetBuf :=
  if buf.data.length < 2 then (sensors, .error .assertion)
  else
    match sensorGet sensors (buf.pullLe 2).1 with
    | none => (sensors, .error .ENODEV)
    | some sensor =>
      let (sensor, result) := decodeIntoSensor sensor (buf.pullLe 2).2
      (putSensor sensors sensor, result.mapError CadenceFault.toSettings)

theorem settingsTurn_length_lt {sensors sensors' : List Sensor} {buf buf' : NetBuf}
    (h : settingsTurn sensors buf = (sensors', .ok buf')) : buf'.data.length < buf.data.length := by
  unfold settingsTurn at h
  split_ifs at h with hshort
  · cases h
  · cases hget : sensorGet sensors (buf.pullLe 2).1 with
    | none =>
      rw [hget] at h
      cases h
    | some sensor =>
      rw [hget] at h
      cases hdecode : sensorCadenceDecode sensor.type ⟨(buf.pullLe 2).2, sensor.cadence⟩ with
      | mk result st =>
        cases result with
        | error e =>
          simp only [decodeIntoSensor, hdecode, Prod.mk.injEq] at h
          cases h.2
        | ok u =>
          simp only [decodeIntoSensor, hdecode, Prod.mk.injEq] at h
          cases h.2
          obtain ⟨record, hbuf, -⟩ := sensorCadenceDecode_eq_ok hdecode
          have hlength := congrArg (fun buf => buf.data.length) hbuf
          simp only [NetBuf.pullLe, List.length_drop, List.length_append] at hlength
          omega

/-- The loop of `sensor_srv_settings_set`. -/
def settingsLoop (sensors : List Sensor) (buf : NetBuf) : List Sensor × Except SettingsFault Unit :=
  if buf.data = [] then (sensors, .ok ())
  else
    match _h : settingsTurn sensors buf with
    | (sensors, .error e) => (sensors, .error e)
    | (sensors, .ok buf) => settingsLoop sensors buf
termination_by buf.data.length
decreasing_by exact settingsTurn_length_lt ‹_›

/-- An item of the settings: its name below that of the model, what `read_cb` returns, and the `len_rd`
bytes of the buffer behind it. -/
structure SettingsItem where
  name : Option String
  len : Int
  data : List UInt8

def settingsSet (config : SensorConfig) (sensors : List Sensor) (item : SettingsItem) :
    List Sensor × Except SettingsFault Unit :=
  if item.name.isSome then (sensors, .error (.errno .ENOENT))
  else if config.capacity < item.data.length then (sensors, .error .assertion)
  else if item.len = 0 then (sensors, .ok ())
  else if item.len ≠ item.data.length then (sensors, .error (.errno .EINVAL))
  else settingsLoop sensors ⟨item.data, config.capacity⟩

def SettingsItem.stored (image : List UInt8) : SettingsItem :=
  ⟨none, image.length, image⟩

section Loop

variable {sensors sensors' : List Sensor} {buf buf' : NetBuf}

theorem settingsLoop_nil (size : Nat) : settingsLoop sensors ⟨[], size⟩ = (sensors, .ok ()) := by
  rw [settingsLoop, if_pos rfl]

theorem settingsLoop_error {e : SettingsFault} (hne : buf.data ≠ [])
    (h : settingsTurn sensors buf = (sensors', .error e)) :
    settingsLoop sensors buf = (sensors', .error e) := by
  rw [settingsLoop, if_neg hne]
  split
  · next herror =>
    rw [h] at herror
    cases herror
    rfl
  · next hok =>
    rw [h] at hok
    cases hok

theorem settingsLoop_step (hne : buf.data ≠ [])
    (h : settingsTurn sensors buf = (sensors', .ok buf')) :
    settingsLoop sensors buf = settingsLoop sensors' buf' := by
  rw [settingsLoop, if_neg hne]
  split
  · next herror =>
    rw [h] at herror
    cases herror
  · next hok =>
    rw [h] at hok
    cases hok
    rfl

theorem leBytes_append_ne_nil (id : Nat) (rest : List UInt8) : leBytes 2 id ++ rest ≠ [] := by
  intro hnil
  have hlength := congrArg List.length hnil
  simp only [List.length_append, length_leBytes, List.length_nil] at hlength
  omega

theorem settingsTurn_id {id : Nat} (hid : id < 2 ^ 16) (rest : List UInt8) (size : Nat) :
    settingsTurn sensors ⟨leBytes 2 id ++ rest, size⟩ =
      match sensorGet sensors id with
      | none => (sensors, .error .ENODEV)
      | some sensor =>
        (putSensor sensors (decodeIntoSensor sensor ⟨rest, size⟩).1,
          (decodeIntoSensor sensor ⟨rest, size⟩).2.mapError CadenceFault.toSettings) := by
  have hlen : ¬ (leBytes 2 id ++ rest).length < 2 := by
    rw [List.length_append, length_leBytes]
    omega
  unfold settingsTurn
  rw [if_neg hlen]
  simp only [NetBuf.pullLe_leBytes, Nat.mod_eq_of_lt (show id < 2 ^ (8 * 2) from hid)]

theorem settingsTurn_record {type : SensorType} {sensor : Sensor}
    (hget : sensorGet sensors type.id = some sensor) (htype : sensor.type = type)
    (record : CadenceRecord type) (rest : List UInt8) (size : Nat) :
    settingsTurn sensors ⟨leBytes 2 type.id ++ (record.bytes ++ rest), size⟩ =
      (putSensor sensors (sensor.setCadence record.cadence), .ok ⟨rest, size⟩) := by
  subst htype
  rw [settingsTurn_id sensor.type.id_lt, hget]
  simp only [decodeIntoSensor, sensorCadenceDecode_record]
  rfl

end Loop

section Sensors

variable {sensors pre post : List Sensor} {sensor new : Sensor}

@[simp] theorem setCadence_type (sensor : Sensor) (cadence : Cadence) :
    (sensor.setCadence cadence).type = sensor.type := rfl

theorem setCadence_cadence (sensor : Sensor) {cadence : Cadence}
    (h : cadence.pubDiv ≤ sensorPeriodDivMax) : (sensor.setCadence cadence).cadence = cadence := by
  have hlt : cadence.pubDiv < 16 := Nat.lt_succ_of_le h
  simp only [Sensor.cadence, Sensor.setCadence, Nat.mod_eq_of_lt hlt]

theorem ids_ne_of_nodup (hnodup : ((pre ++ sensor :: post).map (·.type.id)).Nodup) :
    (∀ other ∈ pre, other.type.id ≠ sensor.type.id) ∧
      ∀ other ∈ post, other.type.id ≠ sensor.type.id := by
  simp only [List.map_append, List.map_cons, List.nodup_append, List.nodup_cons, List.mem_map,
    List.mem_cons] at hnodup
  obtain ⟨-, ⟨hpost, -⟩, hpre⟩ := hnodup
  constructor
  · intro other hother
    exact hpre _ ⟨other, hother, rfl⟩ _ (Or.inl rfl)
  · intro other hother hid
    exact hpost ⟨other, hother, hid⟩

theorem sensorGet_append (hnodup : ((pre ++ sensor :: post).map (·.type.id)).Nodup) :
    sensorGet (pre ++ sensor :: post) sensor.type.id = some sensor := by
  apply List.find?_eq_some_iff_append.mpr
  refine ⟨by simp, pre, post, rfl, ?_⟩
  intro other hother
  simpa using (ids_ne_of_nodup hnodup).1 other hother

theorem putSensor_append (hnodup : ((pre ++ sensor :: post).map (·.type.id)).Nodup)
    (htype : new.type = sensor.type) :
    putSensor (pre ++ sensor :: post) new = pre ++ new :: post := by
  obtain ⟨hpre, hpost⟩ := ids_ne_of_nodup hnodup
  have hkeep (others : List Sensor) (h : ∀ other ∈ others, other.type.id ≠ sensor.type.id) :
      others.map (fun other => if other.type.id = new.type.id then new else other) = others := by
    apply (List.map_congr_left ?_).trans (List.map_id' others)
    intro other hother
    rw [htype, if_neg (h other hother)]
  unfold putSensor
  rw [List.map_append, List.map_cons, hkeep pre hpre, hkeep post hpost, htype, if_pos rfl]

theorem putSensor_of_get (hnodup : (sensors.map (·.type.id)).Nodup) {id : Nat}
    (hget : sensorGet sensors id = some sensor) (htype : new.type = sensor.type) :
    sensor.type.id = id ∧ ∃ pre post, sensors = pre ++ sensor :: post ∧
      putSensor sensors new = pre ++ new :: post := by
  obtain ⟨hid, pre, post, hsensors, -⟩ := List.find?_eq_some_iff_append.mp hget
  refine ⟨of_decide_eq_true hid, pre, post, hsensors, ?_⟩
  subst hsensors
  exact putSensor_append hnodup htype

end Sensors

structure CadenceStorable (type : SensorType) (cadence : Cadence) : Prop
    extends CadenceValues type cadence where
  not_disabled : cadence.threshold.deltaType ≠ .disabled
  ordered : cadence.threshold.rangeHigh.lexLt cadence.threshold.rangeLow = false

def Cadence.RangeKept (cadence : Cadence) : Prop :=
  cadence.threshold.rangeCadence = .normal →
    cadence.threshold.rangeLow ≠ cadence.threshold.rangeHigh

structure CadenceRecord.Sendable {type : SensorType} (record : CadenceRecord type) : Prop where
  down : Represents (deltaFormat type (headDelta record.head)) record.down.value
  up : Represents (deltaFormat type (headDelta record.head)) record.up.value
  first : Represents type.firstFormat record.first.value
  second : Represents type.firstFormat record.second.value

section Restored

variable {a b : SensorValue} {type : SensorType} {cadence : Cadence}

theorem not_lexLt_of_lexLt (h : a.lexLt b = true) : b.lexLt a = false := by
  simp only [SensorValue.lexLt, Bool.or_eq_true, Bool.and_eq_true, decide_eq_true_eq] at h
  simp only [SensorValue.lexLt, Bool.or_eq_false_iff, Bool.and_eq_false_iff, decide_eq_false_iff_not]
  omega

theorem eq_of_not_lexLt (hab : a.lexLt b = false) (hba : b.lexLt a = false) : a = b := by
  simp only [SensorValue.lexLt, Bool.or_eq_false_iff, Bool.and_eq_false_iff,
    decide_eq_false_iff_not] at hab hba
  obtain ⟨a1, a2⟩ := a
  obtain ⟨b1, b2⟩ := b
  simp only [SensorValue.mk.injEq]
  dsimp only at hab hba
  omega

theorem ne_of_lexLt (h : a.lexLt b = true) : a ≠ b := by
  rintro rfl
  exact absurd h (by rw [not_lexLt_of_lexLt h]; decide)

theorem restored_eq_iff (h : cadence.threshold.rangeHigh.lexLt cadence.threshold.rangeLow = false) :
    cadence.restored = cadence ↔ cadence.RangeKept := by
  obtain ⟨pubDiv, minInt, deltaType, deltaUp, deltaDown, rangeCadence, low, high⟩ := cadence
  dsimp only at h
  cases rangeCadence with
  | normal =>
    cases hlt : low.lexLt high with
    | true => simp [Cadence.restored, Cadence.RangeKept, SensorThreshold.ordered,
        SensorThreshold.firstEnd, SensorThreshold.secondEnd, hlt, ne_of_lexLt hlt]
    | false =>
      obtain rfl := eq_of_not_lexLt hlt h
      simp [Cadence.restored, Cadence.RangeKept, SensorThreshold.ordered,
        SensorThreshold.firstEnd, SensorThreshold.secondEnd, h]
  | fast => simp [Cadence.restored, Cadence.RangeKept, SensorThreshold.ordered,
      SensorThreshold.firstEnd, SensorThreshold.secondEnd, h]

theorem CadenceRecord.Sendable.storable {record : CadenceRecord type} (h : record.Sendable) :
    CadenceStorable type record.cadence := by
  have hnot := record.not_disabled
  unfold CadenceRecord.cadence SensorThreshold.ordered at hnot ⊢
  dsimp only at hnot ⊢
  split_ifs at hnot ⊢ with hlt
  · exact ⟨⟨record.pubDiv_le, record.minInt_le, h.down, h.up, h.second, h.first⟩, hnot,
      not_lexLt_of_lexLt hlt⟩
  · exact ⟨⟨record.pubDiv_le, record.minInt_le, h.down, h.up, h.first, h.second⟩, hnot,
      eq_false_of_ne_true hlt⟩

end Restored

structure SensorsStorable (array : SensorArray) (sensors : List Sensor) : Prop where
  types : sensors.map Sensor.type = array.types
  storable : ∀ sensor ∈ sensors, CadenceStorable sensor.type sensor.cadence

def restoredFrom (fresh sensors : List Sensor) : List Sensor :=
  List.zipWith (fun sensor stored => sensor.setCadence stored.cadence.restored) fresh sensors

section StoreLoad

variable {sensors : List Sensor}

theorem addLe16_eq {buf : NetBuf} (hroom : 2 ≤ buf.tailroom) {value : Nat} (h : value < 2 ^ 16) :
    addLe16 buf value = .ok (buf.addMem (leBytes 2 value)) := by
  unfold addLe16
  rw [if_neg (by omega), NetBuf.addLe_eq_addMem,
    Nat.mod_eq_of_lt (show value < 2 ^ (8 * 2) from h)]

/-- The image by induction on the sensors: it is written behind anything, and read back into sensors of
which the first ones are done. -/
theorem exists_image {maxLen : Nat} (hstorable : ∀ sensor ∈ sensors,
      CadenceStorable sensor.type sensor.cadence)
    (hlen : ∀ sensor ∈ sensors, 2 + cadenceLen sensor.type sensor.threshold.deltaType ≤ maxLen) :
    ∃ image : List UInt8, image.length ≤ sensors.length * maxLen ∧
      (∀ buf : NetBuf, sensors.length * maxLen ≤ buf.tailroom →
        storeLoop sensors buf = .ok (buf.addMem image)) ∧
      ∀ (done fresh : List Sensor) (size : Nat), fresh.map Sensor.type = sensors.map Sensor.type →
        ((done ++ fresh).map (·.type.id)).Nodup →
          settingsLoop (done ++ fresh) ⟨image, size⟩ =
            (done ++ restoredFrom fresh sensors, .ok ()) := by
  induction sensors with
  | nil =>
    refine ⟨[], Nat.zero_le _, ?_, ?_⟩
    · intro buf _
      rw [storeLoop, NetBuf.addMem_nil]
    · intro done fresh size htypes _
      have hfresh : fresh = [] := List.map_eq_nil_iff.mp htypes
      rw [hfresh, settingsLoop_nil]
      rfl
  | cons sensor sensors ih =>
    have hsensor := hstorable sensor List.mem_cons_self
    have hsensorLen := hlen sensor List.mem_cons_self
    obtain ⟨image, himageLen, hstore, hload⟩ := ih
      (fun other hother => hstorable other (List.mem_cons_of_mem _ hother))
      fun other hother => hlen other (List.mem_cons_of_mem _ hother)
    obtain ⟨record, hrecord, hencode⟩ :=
      sensorCadenceEncode_record hsensor.toCadenceValues hsensor.not_disabled
    have hdelta : headDelta record.head = sensor.threshold.deltaType := by
      have h := congrArg (fun cadence => cadence.threshold.deltaType) hrecord
      simp only [CadenceRecord.cadence, Cadence.restored, SensorThreshold.ordered_deltaType] at h
      exact h
    have hrecordLen := record.length_bytes
    rw [hdelta] at hrecordLen
    refine ⟨leBytes 2 sensor.type.id ++ (record.bytes ++ image), ?_, ?_, ?_⟩
    · rw [List.length_cons, Nat.succ_mul, List.length_append, List.length_append, length_leBytes]
      omega
    · intro buf hroom
      rw [List.length_cons, Nat.succ_mul] at hroom
      have hid := sensor.type.id_lt
      unfold storeLoop
      simp only [bind, Except.bind]
      rw [addLe16_eq (by omega) hid]
      dsimp only
      rw [hencode _ (by
        simp only [NetBuf.tailroom_addMem, length_leBytes, Sensor.cadence]
        omega)]
      dsimp only
      rw [hstore _ (by
        simp only [NetBuf.tailroom_addMem, length_leBytes]
        omega)]
      simp only [NetBuf.addMem_addMem, List.append_assoc]
    · intro done fresh size htypes hnodup
      cases fresh with
      | nil => cases htypes
      | cons first fresh =>
        rw [List.map_cons, List.map_cons, List.cons.injEq] at htypes
        obtain ⟨htype, htypes⟩ := htypes
        have hget : sensorGet (done ++ first :: fresh) sensor.type.id = some first := by
          rw [← htype]
          exact sensorGet_append hnodup
        have hput : putSensor (done ++ first :: fresh) (first.setCadence record.cadence) =
            (done ++ [first.setCadence record.cadence]) ++ fresh := by
          rw [putSensor_append hnodup (setCadence_type first record.cadence), List.append_assoc]
          rfl
        have hnodup' : (((done ++ [first.setCadence record.cadence]) ++ fresh).map
            (·.type.id)).Nodup := by
          simpa using hnodup
        rw [settingsLoop_step (leBytes_append_ne_nil _ _)
          (settingsTurn_record hget htype record image size), hput, hload _ _ _ htypes hnodup',
          hrecord, List.append_assoc]
        rfl

structure SensorConfig.Fits (config : SensorConfig) (array : SensorArray) : Prop where
  count : array.types.length ≤ config.sensorsMax
  size : ∀ type ∈ array.types, type.firstFormat.size ≤ config.encodedSizeMax
  percent : percentage16Format.size ≤ config.encodedSizeMax

theorem SensorConfig.Fits.cadenceLen_le {config : SensorConfig} {array : SensorArray}
    (h : config.Fits array) {type : SensorType} (htype : type ∈ array.types) (delta : SensorDelta) :
    2 + cadenceLen type delta ≤ 4 + 4 * config.encodedSizeMax := by
  have hfirst := h.size type htype
  have hdelta : (deltaFormat type delta).size ≤ config.encodedSizeMax := by
    unfold deltaFormat
    split_ifs
    · exact h.percent
    · exact hfirst
  unfold cadenceLen
  omega

/-- What is stored for these sensors is loaded into the same sensors in any state, without an error and
with the cadence of all of them. -/
def Restores (config : SensorConfig) (sensors : List Sensor) : Prop :=
  ∃ image, cadenceStore config sensors = .ok image ∧
    ∀ fresh : List Sensor, fresh.map Sensor.type = sensors.map Sensor.type →
      ∃ loaded, settingsSet config fresh (.stored image) = (loaded, .ok ()) ∧
        loaded.map Sensor.cadence = sensors.map Sensor.cadence

theorem restoredFrom_cadence {fresh : List Sensor}
    (htypes : fresh.map Sensor.type = sensors.map Sensor.type)
    (hpubDiv : ∀ sensor ∈ sensors, sensor.cadence.pubDiv ≤ sensorPeriodDivMax) :
    (restoredFrom fresh sensors).map Sensor.cadence =
      sensors.map fun sensor => sensor.cadence.restored := by
  induction sensors generalizing fresh with
  | nil =>
    rw [restoredFrom, List.zipWith_nil_right]
    rfl
  | cons sensor sensors ih =>
    cases fresh with
    | nil => cases htypes
    | cons first fresh =>
      rw [List.map_cons, List.map_cons, List.cons.injEq] at htypes
      have hrest := ih htypes.2 fun other hother => hpubDiv other (List.mem_cons_of_mem _ hother)
      have hfirst := setCadence_cadence first
        (show sensor.cadence.restored.pubDiv ≤ _ from hpubDiv sensor List.mem_cons_self)
      rw [List.map_cons, ← hrest, ← hfirst]
      rfl

theorem restores_iff {config : SensorConfig} {array : SensorArray} (hfits : config.Fits array)
    (h : SensorsStorable array sensors) :
    Restores config sensors ↔ ∀ sensor ∈ sensors, sensor.cadence.RangeKept := by
  have hmem : ∀ sensor ∈ sensors, sensor.type ∈ array.types := by
    intro sensor hsensor
    rw [← h.types]
    exact List.mem_map_of_mem hsensor
  have hcount : sensors.length * (4 + 4 * config.encodedSizeMax) ≤ config.capacity := by
    have hlength : sensors.length = array.types.length := by
      rw [← h.types, List.length_map]
    rw [hlength]
    exact Nat.mul_le_mul_right _ hfits.count
  obtain ⟨image, hlength, hstore, hload⟩ := exists_image h.storable
    fun sensor hsensor => hfits.cadenceLen_le (hmem sensor hsensor) _
  have himage : cadenceStore config sensors = .ok image := by
    unfold cadenceStore
    rw [hstore _ (by simpa only [NetBuf.tailroom, List.length_nil, Nat.sub_zero] using hcount)]
    rfl
  have hset : ∀ fresh : List Sensor, fresh.map Sensor.type = sensors.map Sensor.type →
      settingsSet config fresh (.stored image) = (restoredFrom fresh sensors, .ok ()) := by
    intro fresh htypes
    have hfresh : fresh.map (·.type.id) = array.types.map SensorType.id := by
      rw [← h.types, ← htypes, List.map_map]
      rfl
    have hloop := hload [] fresh config.capacity htypes (by
      rw [List.nil_append, hfresh]
      exact array.nodup)
    rw [List.nil_append, List.nil_append] at hloop
    cases image with
    | nil =>
      rw [settingsLoop_nil] at hloop
      rw [← hloop]
      rfl
    | cons byte rest =>
      have hroom : ¬ config.capacity < (byte :: rest).length := by omega
      have hne : ((byte :: rest).length : Int) ≠ 0 := by
        rw [List.length_cons]
        omega
      unfold settingsSet SettingsItem.stored
      dsimp only
      rw [if_neg (by decide), if_neg hroom, if_neg hne, if_neg (by simp), hloop]
  have hcadence : ∀ fresh : List Sensor, fresh.map Sensor.type = sensors.map Sensor.type →
      (restoredFrom fresh sensors).map Sensor.cadence =
        sensors.map fun sensor => sensor.cadence.restored :=
    fun fresh htypes => restoredFrom_cadence htypes fun sensor hsensor =>
      (h.storable sensor hsensor).pubDiv
  have hkept : (∀ sensor ∈ sensors, sensor.cadence.RangeKept) ↔
      (sensors.map fun sensor => sensor.cadence.restored) = sensors.map Sensor.cadence := by
    rw [List.map_inj_left]
    apply forall₂_congr
    intro sensor hsensor
    exact (restored_eq_iff (h.storable sensor hsensor).ordered).symm
  rw [hkept]
  constructor
  · intro hrestores
    obtain ⟨image', himage', hrestores⟩ := hrestores
    obtain ⟨loaded, hloaded, hsame⟩ := hrestores sensors rfl
    rw [himage] at himage'
    cases himage'
    rw [hset sensors rfl] at hloaded
    cases hloaded
    rw [← hcadence sensors rfl, hsame]
  · intro hsame
    refine ⟨image, himage, ?_⟩
    intro fresh htypes
    refine ⟨_, hset fresh htypes, ?_⟩
    rw [hcadence fresh htypes, hsame]

end StoreLoad

end SdkNrf.Mesh
