import SdkNrf.Mesh.CadenceStore

/-!
# Runs of the sensor server with stored cadences

Messages set whole cadences, and settings that are read to the end or to an unknown sensor do so too.
-/

namespace SdkNrf.Mesh

def MessageSendable (array : SensorArray) (data : List UInt8) : Prop :=
  ∀ type ∈ array.types, type.id = leValue (data.take 2) → type.channels.length = 1 →
    ∀ (record : CadenceRecord type) (rest : List UInt8), data.drop 2 = record.bytes ++ rest →
      record.Sendable

inductive Loadable (array : SensorArray) (good : ∀ type : SensorType, CadenceRecord type → Prop) :
    List UInt8 → Prop
  | nil : Loadable array good []
  | unknown {id : Nat} (rest : List UInt8) (hid : id < 2 ^ 16)
      (hunknown : ∀ type ∈ array.types, type.id ≠ id) : Loadable array good (leBytes 2 id ++ rest)
  | record {type : SensorType} (record : CadenceRecord type) {rest : List UInt8}
      (htype : type ∈ array.types) (hgood : good type record) (hrest : Loadable array good rest) :
      Loadable array good (leBytes 2 type.id ++ (record.bytes ++ rest))

/-- Settings that break off nowhere, or at a sensor that is not known. -/
def SettingsWhole (array : SensorArray) : List UInt8 → Prop := Loadable array fun _ _ => True

def SettingsSendable (array : SensorArray) : List UInt8 → Prop :=
  Loadable array fun _ record => record.Sendable

/-- The states of a server that gets cadence messages, loads settings and publishes values. -/
inductive CadenceRun (config : SensorConfig) (array : SensorArray) : List Sensor → Prop
  | powerUp : CadenceRun config array (array.types.map initialSensor)
  | message {sensors sensors' : List Sensor} {data : List UInt8} {image : Option (List UInt8)}
      (h : CadenceRun config array sensors) (hdata : MessageSendable array data)
      (hset : cadenceSet config sensors data = .ok (sensors', image)) :
      CadenceRun config array sensors'
  | settings {sensors : List Sensor} {item : SettingsItem} (h : CadenceRun config array sensors)
      (hitem : SettingsSendable array item.data) :
      CadenceRun config array (settingsSet config sensors item).1
  | publication {sensors sensors' : List Sensor} (h : CadenceRun config array sensors)
      (hsame : sensors'.map (fun sensor => (sensor.type, sensor.cadence)) =
        sensors.map fun sensor => (sensor.type, sensor.cadence)) : CadenceRun config array sensors'

def WholeCadence (data : List UInt8) (before after : Sensor) : Prop :=
  after.cadence = before.cadence ∨ ∃ record : CadenceRecord after.type,
    record.bytes <:+: data ∧ after.cadence = record.cadence

/-- After loading the item, whether it fails or not, no sensor has a partly decoded cadence. -/
def LoadsWhole (config : SensorConfig) (sensors : List Sensor) (item : SettingsItem) : Prop :=
  List.Forall₂ (WholeCadence item.data) sensors (settingsSet config sensors item).1

section Runs

variable {config : SensorConfig} {array : SensorArray} {sensors sensors' : List Sensor}
  {good : ∀ type : SensorType, CadenceRecord type → Prop}

theorem cadenceSet_cases {data : List UInt8} {image : Option (List UInt8)}
    (h : cadenceSet config sensors data = .ok (sensors', image)) :
    sensors' = sensors ∨ ∃ (sensor : Sensor) (record : CadenceRecord sensor.type)
      (rest : List UInt8), sensorGet sensors (leValue (data.take 2)) = some sensor ∧
        sensor.type.channels.length = 1 ∧ data.drop 2 = record.bytes ++ rest ∧
          sensors' = putSensor sensors (sensor.setCadence record.cadence) := by
  unfold cadenceSet at h
  split_ifs at h with hshort
  · cases h
    exact Or.inl rfl
  · dsimp only [NetBuf.pullLe] at h
    split_ifs at h with hprohibited
    · cases h
      exact Or.inl rfl
    · cases hget : sensorGet sensors (leValue (data.take 2)) with
      | none =>
        rw [hget] at h
        cases h
        exact Or.inl rfl
      | some sensor =>
        rw [hget] at h
        dsimp only at h
        split_ifs at h with hchannels
        · cases h
          exact Or.inl rfl
        · cases hdecode : sensorCadenceDecode sensor.type
              ⟨⟨data.drop 2, data.length⟩, sensor.cadence⟩ with
          | mk result st =>
            rw [hdecode] at h
            cases result with
            | error e =>
              cases e with
              | errno e =>
                cases h
                exact Or.inl rfl
              | assertion => cases h
            | ok u =>
              obtain ⟨record, hbuf, hcadence⟩ := sensorCadenceDecode_eq_ok hdecode
              have hdata : data.drop 2 = record.bytes ++ st.buf.data := congrArg NetBuf.data hbuf
              refine Or.inr ⟨sensor, record, _, rfl, not_not.mp hchannels, hdata, ?_⟩
              cases u
              dsimp only at h
              rw [hcadence] at h
              cases hstore : cadenceStore config
                  (putSensor sensors (sensor.setCadence record.cadence)) with
              | error e =>
                rw [hstore] at h
                cases e with
                | errno e =>
                  cases h
                  rfl
                | assertion => cases h
              | ok stored =>
                rw [hstore] at h
                cases h
                rfl

theorem SensorsStorable.nodup (h : sensors.map Sensor.type = array.types) :
    (sensors.map (·.type.id)).Nodup := by
  have hids : sensors.map (·.type.id) = array.types.map SensorType.id := by
    rw [← h, List.map_map]
    rfl
  rw [hids]
  exact array.nodup

theorem putSensor_types (h : sensors.map Sensor.type = array.types) {id : Nat} {sensor : Sensor}
    (hget : sensorGet sensors id = some sensor) (cadence : Cadence) :
    (putSensor sensors (sensor.setCadence cadence)).map Sensor.type = array.types := by
  obtain ⟨-, pre, post, hsensors, hput⟩ :=
    putSensor_of_get (SensorsStorable.nodup h) hget (setCadence_type sensor cadence)
  rw [hput, ← h, hsensors]
  simp

theorem SensorsStorable.put (h : SensorsStorable array sensors) {id : Nat} {sensor : Sensor}
    (hget : sensorGet sensors id = some sensor) {record : CadenceRecord sensor.type}
    (hrecord : record.Sendable) :
    SensorsStorable array (putSensor sensors (sensor.setCadence record.cadence)) := by
  refine ⟨putSensor_types h.types hget _, ?_⟩
  intro other hother
  obtain ⟨old, hold, rfl⟩ := List.mem_map.mp hother
  split_ifs
  · rw [setCadence_cadence sensor record.pubDiv_le]
    exact hrecord.storable
  · exact h.storable old hold

theorem settingsLoop_induction {P : List Sensor → Prop} {data : List UInt8}
    (hload : Loadable array good data)
    (htypes : ∀ sensors, P sensors → sensors.map Sensor.type = array.types)
    (hput : ∀ (sensors : List Sensor) (id : Nat) (sensor : Sensor) (record : CadenceRecord sensor.type),
      P sensors → sensorGet sensors id = some sensor → good sensor.type record →
        record.bytes <:+: data → P (putSensor sensors (sensor.setCadence record.cadence)))
    (h : P sensors) (size : Nat) : P (settingsLoop sensors ⟨data, size⟩).1 := by
  induction hload generalizing sensors with
  | nil =>
    rw [settingsLoop_nil]
    exact h
  | unknown rest hid hunknown =>
    rename_i id
    have hget : sensorGet sensors id = none := by
      apply List.find?_eq_none.mpr
      intro sensor hsensor
      have hmem : sensor.type ∈ array.types := by
        rw [← htypes sensors h]
        exact List.mem_map_of_mem hsensor
      simpa using hunknown _ hmem
    rw [settingsLoop_error (leBytes_append_ne_nil _ _) (by rw [settingsTurn_id hid, hget])]
    exact h
  | record record htype hgood hrest ih =>
    rename_i type rest
    have hmem : type ∈ sensors.map Sensor.type := by
      rw [htypes sensors h]
      exact htype
    obtain ⟨sensor, hsensor, rfl⟩ := List.mem_map.mp hmem
    obtain ⟨pre, post, rfl⟩ := List.append_of_mem hsensor
    have hget := sensorGet_append (SensorsStorable.nodup (htypes _ h))
    rw [settingsLoop_step (leBytes_append_ne_nil _ _) (settingsTurn_record hget rfl record rest size)]
    apply ih
    · intro sensors id sensor record hP hget hrecord hinside
      exact hput sensors id sensor record hP hget hrecord
        (hinside.trans ((List.suffix_append _ _).trans (List.suffix_append _ _)).isInfix)
    · exact hput _ _ sensor record h hget hgood ⟨_, rest, by rw [List.append_assoc]⟩

theorem settingsSet_induction {P : List Sensor → Prop} {item : SettingsItem}
    (hload : Loadable array good item.data)
    (htypes : ∀ sensors, P sensors → sensors.map Sensor.type = array.types)
    (hput : ∀ (sensors : List Sensor) (id : Nat) (sensor : Sensor) (record : CadenceRecord sensor.type),
      P sensors → sensorGet sensors id = some sensor → good sensor.type record →
        record.bytes <:+: item.data → P (putSensor sensors (sensor.setCadence record.cadence)))
    (h : P sensors) : P (settingsSet config sensors item).1 := by
  unfold settingsSet
  split_ifs
  · exact h
  · exact h
  · exact h
  · exact h
  · exact settingsLoop_induction hload htypes hput h _

theorem loadsWhole {item : SettingsItem} (hload : SettingsWhole array item.data)
    (h : sensors.map Sensor.type = array.types) : LoadsWhole config sensors item := by
  have hall : (settingsSet config sensors item).1.map Sensor.type = array.types ∧
      LoadsWhole config sensors item := by
    apply settingsSet_induction (P := fun after => after.map Sensor.type = array.types ∧
      List.Forall₂ (WholeCadence item.data) sensors after) hload fun after hafter => hafter.1
    · intro after id sensor record hafter hget hrecord hinside
      refine ⟨putSensor_types hafter.1 hget _, ?_⟩
      unfold putSensor
      rw [List.forall₂_map_right_iff]
      apply hafter.2.imp
      intro before sensor' hwhole
      split_ifs
      · exact Or.inr ⟨record, hinside, setCadence_cadence sensor record.pubDiv_le⟩
      · exact hwhole
    · refine ⟨h, List.forall₂_same.mpr ?_⟩
      intro sensor hsensor
      exact Or.inl rfl
  exact hall.2

private theorem scalar_zero : ∀ format ∈ scalarFormats, returnsWith
    ((scalarEncode format ⟨0, 0⟩ ⟨[], format.size⟩).map NetBuf.data >>= fun bytes =>
      (scalarDecode format ⟨bytes, 0⟩).map Prod.fst) (· = (⟨0, 0⟩ : SensorValue)) = true := by
  decide +kernel

theorem InTable.zero {coefficient format : SensorFormat} (hzero : Represents coefficient ⟨0, 0⟩)
    (h : InTable coefficient format) : Represents format ⟨0, 0⟩ := by
  cases h with
  | scalar hformat hpos hle => exact represents_of_returnsWith (scalar_zero _ hformat)
  | boolean => exact represents_of_returnsWith (by decide)
  | timeExp8 => exact represents_of_returnsWith (by decide)
  | coefficient => exact hzero

theorem sensorsStorable_initial {coefficient : SensorFormat} (hzero : Represents coefficient ⟨0, 0⟩)
    (hformats : ∀ type ∈ array.types, InTable coefficient type.firstFormat) :
    SensorsStorable array (array.types.map initialSensor) := by
  constructor
  · rw [List.map_map]
    exact List.map_id _
  · intro sensor hsensor
    obtain ⟨type, htype, rfl⟩ := List.mem_map.mp hsensor
    have hrepresents := (hformats type htype).zero hzero
    exact ⟨⟨Nat.zero_le _, Nat.zero_le _, hrepresents, hrepresents, hrepresents, hrepresents⟩,
      (by decide : SensorDelta.value ≠ .disabled), rfl⟩

theorem CadenceRun.storable {coefficient : SensorFormat} (hzero : Represents coefficient ⟨0, 0⟩)
    (hformats : ∀ type ∈ array.types, InTable coefficient type.firstFormat)
    (h : CadenceRun config array sensors) : SensorsStorable array sensors := by
  induction h with
  | powerUp => exact sensorsStorable_initial hzero hformats
  | message h hdata hset ih =>
    rcases cadenceSet_cases hset with hsame | ⟨sensor, record, rest, hget, hsingle, hrest, hput⟩
    · rw [hsame]
      exact ih
    · obtain ⟨hid, pre, post, hsensors, -⟩ :=
        putSensor_of_get (SensorsStorable.nodup ih.types) hget rfl
      have hmem : sensor.type ∈ array.types := by
        rw [← ih.types, hsensors]
        simp
      rw [hput]
      exact ih.put hget (hdata _ hmem hid hsingle record rest hrest)
  | settings h hitem ih =>
    exact settingsSet_induction hitem (fun sensors hsensors => hsensors.types)
      (fun sensors id sensor record hsensors hget hrecord _ => hsensors.put hget hrecord) ih
  | publication h hsame ih =>
    rename_i sensors sensors'
    constructor
    · have htypes := congrArg (List.map Prod.fst) hsame
      simp only [List.map_map] at htypes
      exact htypes.trans ih.types
    · intro sensor hsensor
      have hmem := List.mem_map_of_mem (f := fun sensor => (sensor.type, sensor.cadence)) hsensor
      rw [hsame] at hmem
      obtain ⟨old, hold, heq⟩ := List.mem_map.mp hmem
      simp only [Prod.mk.injEq] at heq
      rw [← heq.1, ← heq.2]
      exact ih.storable old hold

/-- In every run the stored image is loaded without an error, and restores every cadence exactly if the
order of the ends tells that of every range; and settings that break off only at an unknown sensor leave
no cadence partly decoded. -/
theorem cadence_persists {coefficient : SensorFormat} (hzero : Represents coefficient ⟨0, 0⟩)
    (hfits : config.Fits array)
    (hformats : ∀ type ∈ array.types, InTable coefficient type.firstFormat)
    (h : CadenceRun config array sensors) :
    (Restores config sensors ↔ ∀ sensor ∈ sensors, sensor.cadence.RangeKept) ∧
      ∀ item : SettingsItem, SettingsWhole array item.data → LoadsWhole config sensors item := by
  have hstorable := h.storable hzero hformats
  exact ⟨restores_iff hfits hstorable, fun item hitem => loadsWhole hitem hstorable.types⟩

end Runs

def defaultConfig : SensorConfig := ⟨4, 4⟩

theorem count16_size_pos : 0 < count16.size := by decide

theorem count16_size_le : count16.size ≤ 4 := by decide

def countArray : SensorArray where
  types := [peopleCount]
  nodup := List.nodup_singleton _

theorem countArray_fits : defaultConfig.Fits countArray := by
  refine ⟨by decide, ?_, by decide⟩
  intro type htype
  rw [List.mem_singleton.mp htype]
  decide

theorem countArray_inTable :
    ∀ type ∈ countArray.types, InTable zeroCoefficient type.firstFormat := by
  intro type htype
  rw [List.mem_singleton.mp htype]
  exact .scalar (by decide +kernel) count16_size_pos count16_size_le

theorem zeroCoefficient_represents : Represents zeroCoefficient ⟨0, 0⟩ :=
  ⟨[0, 0, 0, 0], rfl, rfl⟩

private theorem count_represented :
    peopleCount.firstFormat.payload ⟨5, 0⟩ = .ok [5, 0] ∧
      peopleCount.firstFormat.interpret [5, 0] = .ok ⟨5, 0⟩ ∧
        peopleCount.firstFormat.payload ⟨20, 0⟩ = .ok [20, 0] ∧
          peopleCount.firstFormat.interpret [20, 0] = .ok ⟨20, 0⟩ := by
  decide +kernel

def fiveField : FormatField peopleCount.firstFormat :=
  ⟨[5, 0], ⟨5, 0⟩, rfl, count_represented.2.1⟩

def twentyField : FormatField peopleCount.firstFormat :=
  ⟨[20, 0], ⟨20, 0⟩, rfl, count_represented.2.2.2⟩

theorem countRecord_head_lt : 2 < 256 := by decide

theorem countRecord_pubDiv_le : 2 &&& 127 ≤ sensorPeriodDivMax := by decide

theorem countRecord_minInt_le : 3 ≤ sensorIntervalMax := by decide

def countRecord : CadenceRecord peopleCount where
  head := 2
  minInt := 3
  down := fiveField
  up := fiveField
  first := fiveField
  second := twentyField
  head_lt := countRecord_head_lt
  pubDiv_le := countRecord_pubDiv_le
  minInt_le := countRecord_minInt_le

theorem countRecord_sendable : countRecord.Sendable := by
  obtain ⟨hfive, hfive', htwenty, htwenty'⟩ := count_represented
  exact ⟨⟨_, hfive, hfive'⟩, ⟨_, hfive, hfive'⟩, ⟨_, hfive, hfive'⟩, ⟨_, htwenty, htwenty'⟩⟩

def countSettings : SettingsItem := .stored (leBytes 2 peopleCount.id ++ (countRecord.bytes ++ []))

/-- After the settings have been loaded. -/
theorem countSettings_persists :
    Restores defaultConfig
        (settingsSet defaultConfig (countArray.types.map initialSensor) countSettings).1 ∧
    ∀ item : SettingsItem, SettingsWhole countArray item.data → LoadsWhole defaultConfig
      (settingsSet defaultConfig (countArray.types.map initialSensor) countSettings).1 item := by
  have hrun : CadenceRun defaultConfig countArray
      (settingsSet defaultConfig (countArray.types.map initialSensor) countSettings).1 :=
    .settings .powerUp (.record countRecord (List.mem_singleton.mpr rfl) countRecord_sendable .nil)
  refine (cadence_persists zeroCoefficient_represents countArray_fits countArray_inTable
    hrun).imp_left fun h => h.mpr ?_
  unfold Cadence.RangeKept
  decide +kernel

def longInterval : List UInt8 := [0x4C, 0, 2, 5, 0, 5, 0, 27, 5, 0, 20, 0]

private theorem longInterval_turn :
    (settingsTurn [initialSensor peopleCount] ⟨longInterval, defaultConfig.capacity⟩).2 =
        .error (.errno .EINVAL) ∧
      (settingsTurn [initialSensor peopleCount] ⟨longInterval, defaultConfig.capacity⟩).1.map
        Sensor.minInt = [27] := by
  decide

/-- A sensor whose cadence has never been set comes back with another one, and settings that are refused
leave their interval in the sensor. -/
theorem powerUp_not_persists :
    CadenceRun defaultConfig countArray (countArray.types.map initialSensor) ∧
      ¬ Restores defaultConfig (countArray.types.map initialSensor) ∧
        ¬ LoadsWhole defaultConfig (countArray.types.map initialSensor) (.stored longInterval) := by
  refine ⟨.powerUp, ?_, ?_⟩
  · rw [restores_iff countArray_fits
      (sensorsStorable_initial zeroCoefficient_represents countArray_inTable)]
    intro hkept
    exact hkept (initialSensor peopleCount) (List.mem_singleton.mpr rfl) rfl rfl
  · intro hwhole
    obtain ⟨herror, hminInt⟩ := longInterval_turn
    have hloop := settingsLoop_error (by decide) (Prod.ext rfl herror)
    have hset : (settingsSet defaultConfig (countArray.types.map initialSensor)
        (.stored longInterval)).1 = (settingsTurn [initialSensor peopleCount]
          ⟨longInterval, defaultConfig.capacity⟩).1 := congrArg Prod.fst hloop
    unfold LoadsWhole at hwhole
    rw [hset] at hwhole
    obtain ⟨sensor, hsensors, hsensor⟩ := List.map_eq_singleton_iff.mp hminInt
    rw [hsensors] at hwhole
    rcases (List.forall₂_cons.mp hwhole).1 with hold | ⟨record, -, hnew⟩
    · have hminInt' : sensor.minInt = 0 := congrArg Cadence.minInt hold
      omega
    · have hminInt' : sensor.minInt = record.minInt := congrArg Cadence.minInt hnew
      have hle := record.minInt_le
      unfold sensorIntervalMax at hle
      omega

end SdkNrf.Mesh
