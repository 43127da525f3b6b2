import SdkNrf.Mesh.Sensor

/-!
# Sensor status messages between server and client

`handle_get` of `sensor_srv.c` appends a status for every sensor, and `handle_status` of `sensor_cli.c` reads
them back.
-/

namespace SdkNrf.Mesh

/-- What the `get` callback of a sensor gives in one call, if there is a callback. -/
abbrev Reading := Option (Except Errno (List SensorValue))

def valueGet (sensor : Sensor) : Reading → Sensor × Except Errno (List SensorValue)
  | none => (sensor, .error .ENOTSUP)
  | some (.error e) => (sensor, .error e)
  | some (.ok values) => (sensorCadenceUpdate sensor (values.headD ⟨0, 0⟩), .ok values)

def addNoValue (buf : NetBuf) (id : Nat) : NetBuf :=
  match sensorStatusIdEncode buf 0 id with
  | .error _ => buf
  | .ok buf => buf

def bufStatusAdd (sensor : Sensor) (reading : Reading) (buf : NetBuf) : Sensor × NetBuf :=
  match valueGet sensor reading with
  | (sensor, .error _) => (sensor, addNoValue buf sensor.type.id)
  | (sensor, .ok values) =>
    match sensorStatusEncode buf sensor values with
    | (buf, .error _) => (sensor, addNoValue buf sensor.type.id)
    | (buf, .ok ()) => (sensor, buf)

/-- The loop of `handle_get` over the sensors. -/
def statusLoop : List (Sensor × Reading) → NetBuf → List Sensor × NetBuf
  | [], buf => ([], buf)
  | (sensor, reading) :: sensors, buf =>
    let (sensor, buf) := bufStatusAdd sensor reading buf
    let (rest, buf) := statusLoop sensors buf
    (sensor :: rest, buf)

/-- `handle_get`: the sensors and the response, if one is sent. The opcode is not part of the
response buffer here. -/
def handleGet (sensors : List (Sensor × Reading)) (request rsp : NetBuf) :
    Option (List Sensor × NetBuf) :=
  if request.data.length ≠ 0 ∧ request.data.length ≠ 2 then none
  else if request.data.length = 2 then
    let id := (request.pullLe 2).1
    if id = propIdProhibited then none
    else
      match sensors.find? (·.1.type.id = id) with
      | none => some (sensors.map Prod.fst, addNoValue rsp id)
      | some (sensor, reading) =>
        let (updated, rsp) := bufStatusAdd sensor reading rsp
        some (sensors.map fun other => if other.1.type.id = id then updated else other.1, rsp)
  else some (statusLoop sensors rsp)

inductive RspValue
  | waiting
  | noValue
  | values (values : List SensorValue)
  deriving DecidableEq

structure SensorDataRsp where
  id : Nat
  value : RspValue
  deriving DecidableEq

structure SensorCli where
  rsp : Option SensorDataRsp
  data : List (SensorType × List SensorValue)
  unknownTypes : List Nat

namespace SensorCli

def complete (rsp : Option SensorDataRsp) (id : Nat) (value : RspValue) : Option SensorDataRsp :=
  rsp.map fun rsp => if rsp.id = id then ⟨propIdProhibited, value⟩ else rsp

def noValue (cli : SensorCli) (id : Nat) : SensorCli :=
  { cli with rsp := complete cli.rsp id .noValue }

def reportData (cli : SensorCli) (type : SensorType) (values : List SensorValue) : SensorCli :=
  { cli with
    data := cli.data ++ [(type, values)]
    rsp := complete cli.rsp type.id (.values values) }

/-- One turn of the loop of `handle_status`; `none` where the handler returns. -/
def statusStep (table : TypeTable) (cli : SensorCli) (buf : NetBuf) :
    Option (SensorCli × NetBuf) :=
  let (length, id, buf) := sensorStatusIdDecode buf
  if length = 0 then some (cli.noValue id, buf)
  else
    match sensorTypeGet table id with
    | none => some ({ cli with unknownTypes := cli.unknownTypes ++ [id] }, buf.pull length)
    | some type =>
      if length ≠ sensorValueLen type then none
      else
        match sensorValueDecode type.channels buf with
        | (_, .error _) => none
        | (buf, .ok values) => some (cli.reportData type values, buf)

end SensorCli

theorem sensorStatusIdDecode_length_lt {buf : NetBuf} (h : buf.data ≠ []) :
    (sensorStatusIdDecode buf).2.2.data.length < buf.data.length := by
  have hpos := List.length_pos_iff.mpr h
  by_cases hlong : (leValue (buf.data.take 1)).testBit 0
  · by_cases hshort : buf.data.length - 1 < 2
    all_goals
      simp only [sensorStatusIdDecode, NetBuf.pullLe, List.length_drop, hlong, hshort,
        if_true, if_false]
      omega
  · by_cases hshort : buf.data.length - 1 < 1
    all_goals
      simp only [sensorStatusIdDecode, NetBuf.pullLe, List.length_drop, hlong, hshort,
        Bool.false_eq_true, if_true, if_false]
      omega

theorem SensorFormat.decode_length_le (format : SensorFormat) (buf : NetBuf) :
    (format.decode buf).1.data.length ≤ buf.data.length := by
  simp only [SensorFormat.decode]
  split_ifs
  · exact Nat.le_refl _
  · simp only [NetBuf.pull, List.length_drop]
    omega

theorem sensorValueDecode_length_le (channels : List SensorFormat) (buf : NetBuf) :
    (sensorValueDecode channels buf).1.data.length ≤ buf.data.length := by
  induction channels generalizing buf with
  | nil => exact Nat.le_refl _
  | cons format channels ih =>
    have hformat := format.decode_length_le buf
    simp only [sensorValueDecode]
    cases hdecode : format.decode buf with
    | mk rest result =>
      rw [hdecode] at hformat
      cases result with
      | error e => exact hformat
      | ok value => exact (ih rest).trans hformat

theorem SensorCli.statusStep_length_lt {table : TypeTable} {cli cli' : SensorCli}
    {buf buf' : NetBuf} (hne : buf.data ≠ [])
    (h : cli.statusStep table buf = some (cli', buf')) :
    buf'.data.length < buf.data.length := by
  have hid := sensorStatusIdDecode_length_lt hne
  simp only [SensorCli.statusStep] at h
  generalize sensorStatusIdDecode buf = decoded at h hid
  obtain ⟨length, id, rest⟩ := decoded
  replace hid : rest.data.length < buf.data.length := hid
  split at h
  · cases h
    exact hid
  · split at h
    · cases h
      simp only [NetBuf.pull, List.length_drop]
      omega
    · next type _ =>
      split at h
      · cases h
      · have hvalue := sensorValueDecode_length_le type.channels rest
        split at h
        · cases h
        · next _ values hdecode =>
          cases h
          rw [hdecode] at hvalue
          exact Nat.lt_of_le_of_lt hvalue hid

def handleStatus (table : TypeTable) (cli : SensorCli) (buf : NetBuf) : SensorCli :=
  if buf.data = [] then cli
  else
    match _h : cli.statusStep table buf with
    | none => cli
    | some (cli, buf) => handleStatus table cli buf
termination_by buf.data.length
decreasing_by exact SensorCli.statusStep_length_lt ‹_› ‹_›

section Agreement

variable {table : TypeTable} {cli cli' : SensorCli} {buf buf' : NetBuf}

theorem handleStatus_nil (h : buf.data = []) : handleStatus table cli buf = cli := by
  rw [handleStatus, if_pos h]

theorem handleStatus_return (h : cli.statusStep table buf = none) :
    handleStatus table cli buf = cli := by
  rw [handleStatus]
  split
  · rfl
  · split
    · rfl
    · next hsome =>
      rw [h] at hsome
      cases hsome

theorem handleStatus_step (hne : buf.data ≠ [])
    (h : cli.statusStep table buf = some (cli', buf')) :
    handleStatus table cli buf = handleStatus table cli' buf' := by
  rw [handleStatus, if_neg hne]
  split
  · next hnone =>
    rw [h] at hnone
    cases hnone
  · next hsome =>
    rw [h] at hsome
    cases hsome
    rfl

def sensorPayload (sensor : Sensor) (reading : Reading) : Except Errno (List UInt8) := do
  let values ← (valueGet sensor reading).2
  payloads sensor.type.channels values

inductive Expected (sensor : Sensor) (reading : Reading) : Option (List SensorValue) → Prop
  | value {bytes : List UInt8} {values : List SensorValue}
      (hbytes : sensorPayload sensor reading = .ok bytes)
      (hvalues : interprets sensor.type.channels bytes = .ok values) :
      Expected sensor reading (some values)
  | failed {e : Errno} (herror : sensorPayload sensor reading = .error e) :
      Expected sensor reading none

def SensorCli.expect (cli : SensorCli) (entry : (Sensor × Reading) × Option (List SensorValue)) :
    SensorCli :=
  match entry.2 with
  | none => cli.noValue entry.1.1.type.id
  | some values => cli.reportData entry.1.1.type values

/-- The client reports exactly what is expected of the sensors, in their order, whatever it waits
for. -/
def StatusAgrees (table : TypeTable) (sensors : List (Sensor × Reading)) (capacity : Nat) : Prop :=
  ∃ outcomes, List.Forall₂ (fun entry => Expected entry.1 entry.2) sensors outcomes
    ∧ ∃ states msg, handleGet sensors ⟨[], 0⟩ ⟨[], capacity⟩ = some (states, msg)
      ∧ ∀ cli, handleStatus table cli msg = (sensors.zip outcomes).foldl SensorCli.expect cli

/-- A sensor with a value that its formats encode and read back. -/
def Readable (sensor : Sensor) (reading : Reading) : Prop :=
  ∃ bytes values, sensorPayload sensor reading = .ok bytes
    ∧ interprets sensor.type.channels bytes = .ok values

def statusLen (type : SensorType) : Nat := (statusHeader type.len type.id).length + type.len

theorem length_statusHeader (len id : Nat) :
    (statusHeader len id).length = if (len > 0 ∧ len ≤ 16) ∧ id < 2048 then 2 else 3 := by
  rw [statusHeader]
  split <;> simp

theorem addNoValue_eq (buf : NetBuf) {id : Nat} (hid : id < 2 ^ 16) :
    addNoValue buf id = if buf.tailroom < 3 then buf else buf.addMem (statusHeader 0 id) := by
  rw [addNoValue, sensorStatusIdEncode_eq buf hid, length_statusHeader]
  by_cases hfull : buf.tailroom < 3
  · simp [hfull]
  · simp [hfull]

theorem addNoValue_appends (buf : NetBuf) {id : Nat} (hid : id < 2 ^ 16) :
    ∃ bytes, addNoValue buf id = buf.addMem bytes := by
  rw [addNoValue_eq buf hid]
  split
  · exact ⟨[], (NetBuf.addMem_nil buf).symm⟩
  · exact ⟨_, rfl⟩

theorem sensorStatusEncode_cases (sensor : Sensor) (values : List SensorValue) (buf : NetBuf) :
    (∃ bytes, payloads sensor.type.channels values = .ok bytes
        ∧ statusLen sensor.type ≤ buf.tailroom ∧ sensorStatusEncode buf sensor values
          = (buf.addMem (statusHeader sensor.type.len sensor.type.id ++ bytes), .ok ()))
      ∨ (¬ statusLen sensor.type ≤ buf.tailroom
        ∧ sensorStatusEncode buf sensor values = (buf, .error .ENOMEM))
      ∨ ∃ e part, payloads sensor.type.channels values = .error e
        ∧ statusLen sensor.type ≤ buf.tailroom ∧ sensorStatusEncode buf sensor values
          = (buf.addMem (statusHeader sensor.type.len sensor.type.id ++ part), .error e) := by
  have hlen : sensor.type.len % 256 = sensor.type.len := sensorValueLen_eq sensor.type
  by_cases hroom : statusLen sensor.type ≤ buf.tailroom
  · have hfits : ¬ buf.tailroom < (statusHeader sensor.type.len sensor.type.id).length
        + sensor.type.len := Nat.not_lt.mpr hroom
    have hstatus : sensorStatusEncode buf sensor values = sensorValueEncode sensor.type.channels
        values (buf.addMem (statusHeader sensor.type.len sensor.type.id)) := by
      simp only [sensorStatusEncode, hlen, sensorStatusIdEncode_eq buf sensor.type.id_lt,
        if_neg hfits]
    have hvalues : (sensor.type.channels.map SensorFormat.size).sum
        ≤ (buf.addMem (statusHeader sensor.type.len sensor.type.id)).tailroom := by
      rw [NetBuf.tailroom_addMem]
      simp only [statusLen, SensorType.len] at hroom ⊢
      omega
    obtain ⟨bytes, hbuf, hresult⟩ := sensorValueEncode_of_room _ values hvalues
    rw [NetBuf.addMem_addMem] at hbuf
    cases hresult with
    | inl hok =>
      refine .inl ⟨bytes, hok.1, hroom, ?_⟩
      rw [hstatus, ← hbuf, ← hok.2]
    | inr herror =>
      obtain ⟨e, hpayloads, hencode⟩ := herror
      refine .inr (.inr ⟨e, bytes, hpayloads, hroom, ?_⟩)
      rw [hstatus, ← hbuf, ← hencode]
  · have hfull : buf.tailroom < (statusHeader sensor.type.len sensor.type.id).length
        + sensor.type.len := Nat.not_le.mp hroom
    refine .inr (.inl ⟨hroom, ?_⟩)
    simp only [sensorStatusEncode, hlen, sensorStatusIdEncode_eq buf sensor.type.id_lt,
      if_pos hfull]

/-- Everything that `buf_status_add` can do to the buffer. -/
theorem bufStatusAdd_cases (sensor : Sensor) (reading : Reading) (buf : NetBuf) :
    (∃ bytes, sensorPayload sensor reading = .ok bytes ∧ statusLen sensor.type ≤ buf.tailroom
        ∧ (bufStatusAdd sensor reading buf).2
          = buf.addMem (statusHeader sensor.type.len sensor.type.id ++ bytes))
      ∨ ((statusLen sensor.type ≤ buf.tailroom → ∃ e, sensorPayload sensor reading = .error e)
        ∧ (bufStatusAdd sensor reading buf).2 = addNoValue buf sensor.type.id)
      ∨ ∃ e part, sensorPayload sensor reading = .error e ∧ statusLen sensor.type ≤ buf.tailroom
        ∧ (bufStatusAdd sensor reading buf).2 = addNoValue
          (buf.addMem (statusHeader sensor.type.len sensor.type.id ++ part)) sensor.type.id := by
  match reading with
  | none => exact .inr (.inl ⟨fun _ => ⟨.ENOTSUP, rfl⟩, rfl⟩)
  | some (.error e) => exact .inr (.inl ⟨fun _ => ⟨e, rfl⟩, rfl⟩)
  | some (.ok values) =>
    obtain ⟨bytes, hpayloads, hroom, hencode⟩ | ⟨hroom, hencode⟩ |
        ⟨e, part, hpayloads, hroom, hencode⟩ :=
      sensorStatusEncode_cases (sensorCadenceUpdate sensor (values.headD ⟨0, 0⟩)) values buf
    · left
      refine ⟨bytes, hpayloads, hroom, ?_⟩
      simp only [bufStatusAdd, valueGet, hencode]
      rfl
    · right
      left
      refine ⟨fun hle => absurd hle hroom, ?_⟩
      simp only [bufStatusAdd, valueGet, hencode]
      rfl
    · right
      right
      refine ⟨e, part, hpayloads, hroom, ?_⟩
      simp only [bufStatusAdd, valueGet, hencode]
      rfl

variable {reading : Reading} {sensor : Sensor} {bytes : List UInt8}

theorem bufStatusAdd_of_payload (hbytes : sensorPayload sensor reading = .ok bytes)
    (hroom : statusLen sensor.type ≤ buf.tailroom) :
    (bufStatusAdd sensor reading buf).2
      = buf.addMem (statusHeader sensor.type.len sensor.type.id ++ bytes) := by
  obtain ⟨bytes', hbytes', -, h⟩ | ⟨herror, -⟩ | ⟨e, part, herror, -, -⟩ :=
    bufStatusAdd_cases sensor reading buf
  · cases hbytes.symm.trans hbytes'
    exact h
  · obtain ⟨e, herror⟩ := herror hroom
    cases hbytes.symm.trans herror
  · cases hbytes.symm.trans herror

theorem length_sensorPayload (hbytes : sensorPayload sensor reading = .ok bytes) :
    bytes.length = sensor.type.len := by
  simp only [sensorPayload, bind_eq_ok] at hbytes
  obtain ⟨values, -, hpayloads⟩ := hbytes
  exact length_payloads hpayloads

theorem bufStatusAdd_appends (sensor : Sensor) (reading : Reading) (buf : NetBuf) :
    ∃ bytes, (bufStatusAdd sensor reading buf).2 = buf.addMem bytes := by
  obtain ⟨bytes, -, -, h⟩ | ⟨-, h⟩ | ⟨e, part, -, -, h⟩ := bufStatusAdd_cases sensor reading buf
  · exact ⟨_, h⟩
  · rw [h]
    exact addNoValue_appends buf sensor.type.id_lt
  · obtain ⟨bytes, hbytes⟩ := addNoValue_appends
      (buf.addMem (statusHeader sensor.type.len sensor.type.id ++ part)) sensor.type.id_lt
    exact ⟨_, by rw [h, hbytes, NetBuf.addMem_addMem]⟩

theorem statusLoop_appends (sensors : List (Sensor × Reading)) (buf : NetBuf) :
    ∃ bytes, (statusLoop sensors buf).2 = buf.addMem bytes := by
  induction sensors generalizing buf with
  | nil => exact ⟨[], (NetBuf.addMem_nil buf).symm⟩
  | cons entry sensors ih =>
    obtain ⟨first, hfirst⟩ := bufStatusAdd_appends entry.1 entry.2 buf
    obtain ⟨rest, hrest⟩ := ih (buf.addMem first)
    refine ⟨first ++ rest, ?_⟩
    simp only [statusLoop, hfirst, hrest, NetBuf.addMem_addMem]

variable {sensors : List (Sensor × Reading)}

theorem statusLoop_tail {first tail : List UInt8}
    (h : (statusLoop sensors (buf.addMem first)).2 = buf.addMem tail) :
    ∃ rest, tail = first ++ rest
      ∧ (statusLoop sensors (buf.addMem first)).2 = (buf.addMem first).addMem rest := by
  obtain ⟨rest, hrest⟩ := statusLoop_appends sensors (buf.addMem first)
  refine ⟨rest, ?_, hrest⟩
  rw [hrest, NetBuf.addMem_addMem] at h
  have hdata := congrArg NetBuf.data h
  simpa using hdata.symm

theorem three_le_statusLen (type : SensorType) : 3 ≤ statusLen type := by
  have hpos := type.len_pos
  rw [statusLen, length_statusHeader, SensorType.len]
  split <;> omega

theorem statusLoop_full (sensors : List (Sensor × Reading)) (hfull : buf.tailroom < 3) :
    (statusLoop sensors buf).2 = buf := by
  induction sensors with
  | nil => rfl
  | cons entry sensors ih =>
    have hlen := three_le_statusLen entry.1.type
    have hstep : (bufStatusAdd entry.1 entry.2 buf).2 = buf := by
      obtain ⟨bytes, -, hroom, -⟩ | ⟨-, h⟩ | ⟨e, part, -, hroom, -⟩ :=
        bufStatusAdd_cases entry.1 entry.2 buf
      · omega
      · rw [h, addNoValue_eq buf entry.1.type.id_lt, if_pos hfull]
      · omega
    simp only [statusLoop, hstep, ih]

theorem statusHeader_ne_nil (len id : Nat) (rest : List UInt8) : statusHeader len id ++ rest ≠ [] := by
  intro h
  have hlength := congrArg List.length h
  rw [List.length_append, length_statusHeader, List.length_nil] at hlength
  split at hlength <;> omega

variable {type : SensorType}

theorem handleStatus_value (hknown : sensorTypeGet table type.id = some type)
    {values : List SensorValue} (hlength : bytes.length = type.len)
    (hvalues : interprets type.channels bytes = .ok values) (rest : List UInt8) (size : Nat) :
    handleStatus table cli ⟨statusHeader type.len type.id ++ bytes ++ rest, size⟩
      = handleStatus table (cli.reportData type values) ⟨rest, size⟩ := by
  have hlen : type.len ≠ 0 := Nat.pos_iff_ne_zero.mp type.len_pos
  have hle : type.len ≤ 128 := Nat.le_of_lt type.len_lt
  apply handleStatus_step
  · rw [List.append_assoc]
    apply statusHeader_ne_nil
  · simp only [SensorCli.statusStep]
    rw [List.append_assoc, sensorStatusIdDecode_header hle type.id_lt]
    simp only [if_neg hlen, hknown, sensorValueLen_eq, ne_eq, not_true_eq_false, if_false,
      sensorValueDecode_append hlength hvalues]

theorem handleStatus_noValue (hknown : sensorTypeGet table type.id = some type) (rest : List UInt8)
    (size : Nat) :
    handleStatus table cli ⟨statusHeader 0 type.id ++ rest, size⟩ = cli := by
  have hlen : 128 ≠ sensorValueLen type := by
    rw [sensorValueLen_eq, SensorType.len]
    exact Nat.ne_of_gt type.len_lt
  apply handleStatus_return
  simp only [SensorCli.statusStep]
  rw [sensorStatusIdDecode_header (by omega) type.id_lt]
  simp only [if_true, hknown, hlen, ne_eq, not_false_eq_true]
  rfl

theorem handleStatus_header (hknown : sensorTypeGet table type.id = some type) (rest : List UInt8)
    (size : Nat) :
    handleStatus table cli ⟨statusHeader type.len type.id ++ rest, size⟩ = cli
      ∨ ∃ values buf, handleStatus table cli ⟨statusHeader type.len type.id ++ rest, size⟩
        = handleStatus table (cli.reportData type values) buf := by
  have hlen : type.len ≠ 0 := Nat.pos_iff_ne_zero.mp type.len_pos
  have hle : type.len ≤ 128 := Nat.le_of_lt type.len_lt
  have hdecode := sensorStatusIdDecode_header hle type.id_lt rest size
  cases hvalue : sensorValueDecode type.channels ⟨rest, size⟩ with
  | mk buf result =>
    cases result with
    | error e =>
      left
      apply handleStatus_return
      simp only [SensorCli.statusStep]
      rw [hdecode]
      simp only [if_neg hlen, hknown, sensorValueLen_eq, ne_eq, not_true_eq_false, if_false, hvalue]
    | ok values =>
      right
      refine ⟨values, buf, ?_⟩
      apply handleStatus_step
      · apply statusHeader_ne_nil
      · simp only [SensorCli.statusStep]
        rw [hdecode]
        simp only [if_neg hlen, hknown, sensorValueLen_eq, ne_eq, not_true_eq_false, if_false,
          hvalue]

theorem SensorCli.statusStep_data (h : cli.statusStep table buf = some (cli', buf')) :
    ∃ more, cli'.data = cli.data ++ more := by
  simp only [SensorCli.statusStep] at h
  split at h
  · cases h
    exact ⟨[], (List.append_nil _).symm⟩
  · split at h
    · cases h
      exact ⟨[], (List.append_nil _).symm⟩
    · split at h
      · cases h
      · split at h
        · cases h
        · cases h
          exact ⟨_, rfl⟩

theorem handleStatus_data (table : TypeTable) (cli : SensorCli) (buf : NetBuf) :
    ∃ more, (handleStatus table cli buf).data = cli.data ++ more := by
  fun_induction handleStatus table cli buf with
  | case1 cli buf h => exact ⟨[], (List.append_nil _).symm⟩
  | case2 cli buf h hstep => exact ⟨[], (List.append_nil _).symm⟩
  | case3 cli buf h cli' buf' hstep ih =>
    obtain ⟨first, hfirst⟩ := SensorCli.statusStep_data hstep
    obtain ⟨rest, hrest⟩ := ih
    exact ⟨first ++ rest, by rw [hrest, hfirst, List.append_assoc]⟩

theorem complete_of_prohibited {value : RspValue} {id : Nat} (hid : 0 < id) (new : RspValue) :
    SensorCli.complete (some ⟨propIdProhibited, value⟩) id new = some ⟨propIdProhibited, value⟩ := by
  have hne : propIdProhibited ≠ id := Nat.ne_of_lt hid
  simp only [SensorCli.complete, Option.map_some, if_neg hne]

theorem expect_rsp (cli : SensorCli) (entry : (Sensor × Reading) × Option (List SensorValue)) :
    ∃ value, value ≠ .waiting
      ∧ (cli.expect entry).rsp = SensorCli.complete cli.rsp entry.1.1.type.id value := by
  obtain ⟨sensor, outcome⟩ := entry
  cases outcome with
  | none => exact ⟨.noValue, by simp, rfl⟩
  | some values => exact ⟨.values values, by simp, rfl⟩

theorem foldl_expect_rsp {value : RspValue} (hcli : cli.rsp = some ⟨propIdProhibited, value⟩)
    (entries : List ((Sensor × Reading) × Option (List SensorValue))) :
    (entries.foldl SensorCli.expect cli).rsp = some ⟨propIdProhibited, value⟩ := by
  induction entries generalizing cli with
  | nil => exact hcli
  | cons entry entries ih =>
    apply ih
    obtain ⟨new, -, hrsp⟩ := expect_rsp cli entry
    rw [hrsp, hcli, complete_of_prohibited entry.1.1.type.id_pos]

theorem foldl_expect_answers (entry : (Sensor × Reading) × Option (List SensorValue))
    (hcli : cli.rsp = some ⟨entry.1.1.type.id, .waiting⟩)
    (entries : List ((Sensor × Reading) × Option (List SensorValue))) :
    ((entry :: entries).foldl SensorCli.expect cli).rsp ≠ cli.rsp := by
  obtain ⟨value, hvalue, hrsp⟩ := expect_rsp cli entry
  have hanswer : (cli.expect entry).rsp = some ⟨propIdProhibited, value⟩ := by
    rw [hrsp, hcli]
    simp only [SensorCli.complete, Option.map_some, if_true]
  rw [List.foldl_cons, foldl_expect_rsp hanswer, hcli]
  intro heq
  exact hvalue (SensorDataRsp.mk.inj (Option.some.inj heq)).2

theorem foldl_expect_data (cli : SensorCli)
    (entries : List ((Sensor × Reading) × Option (List SensorValue))) :
    ∃ more, (entries.foldl SensorCli.expect cli).data = cli.data ++ more
      ∧ ∀ report ∈ more, ∃ entry ∈ entries, report.1 = entry.1.1.type := by
  induction entries generalizing cli with
  | nil => exact ⟨[], (List.append_nil _).symm, by simp⟩
  | cons entry entries ih =>
    obtain ⟨more, hmore, htypes⟩ := ih (cli.expect entry)
    obtain ⟨sensor, outcome⟩ := entry
    cases outcome with
    | none =>
      refine ⟨more, hmore, ?_⟩
      intro report hreport
      obtain ⟨other, hother, htype⟩ := htypes report hreport
      exact ⟨other, List.mem_cons_of_mem _ hother, htype⟩
    | some values =>
      refine ⟨(sensor.1.type, values) :: more, ?_, ?_⟩
      · rw [List.foldl_cons, hmore]
        simp [SensorCli.expect, SensorCli.reportData]
      · intro report hreport
        cases List.mem_cons.mp hreport with
        | inl h => exact ⟨_, List.mem_cons_self, by rw [h]⟩
        | inr h =>
          obtain ⟨other, hother, htype⟩ := htypes report h
          exact ⟨other, List.mem_cons_of_mem _ hother, htype⟩

variable {tail : List UInt8}

/-- The first sensor that is not readable or does not fit: a client that waits for it gets no
answer, or is given a value that the sensor does not have. -/
theorem handleStatus_of_failed (cli : SensorCli)
    (hknown : sensorTypeGet table sensor.type.id = some sensor.type)
    (hfailed : ∀ bytes, sensorPayload sensor reading = .ok bytes → ¬ statusLen sensor.type ≤ buf.tailroom)
    (sensors : List (Sensor × Reading))
    (htail : (statusLoop ((sensor, reading) :: sensors) buf).2 = buf.addMem tail) (size : Nat) :
    handleStatus table cli ⟨tail, size⟩ = cli
      ∨ (∃ e, sensorPayload sensor reading = .error e)
        ∧ ∃ values more, (handleStatus table cli ⟨tail, size⟩).data
          = cli.data ++ (sensor.type, values) :: more := by
  have hloop : (statusLoop ((sensor, reading) :: sensors) buf).2
      = (statusLoop sensors (bufStatusAdd sensor reading buf).2).2 := rfl
  rw [hloop] at htail
  obtain ⟨bytes, hbytes, hroom, -⟩ | ⟨-, h⟩ | ⟨e, part, herror, -, h⟩ :=
    bufStatusAdd_cases sensor reading buf
  · exact absurd hroom (hfailed bytes hbytes)
  · left
    rw [h, addNoValue_eq buf sensor.type.id_lt] at htail
    by_cases hfull : buf.tailroom < 3
    · rw [if_pos hfull, statusLoop_full sensors hfull] at htail
      have hnil : tail = [] := by
        have hdata := congrArg NetBuf.data htail
        simpa using hdata
      exact handleStatus_nil hnil
    · rw [if_neg hfull] at htail
      obtain ⟨rest, hrest, -⟩ := statusLoop_tail htail
      rw [hrest]
      exact handleStatus_noValue hknown rest size
  · obtain ⟨marker, hmarker⟩ := addNoValue_appends
      (buf.addMem (statusHeader sensor.type.len sensor.type.id ++ part)) sensor.type.id_lt
    rw [h, hmarker, NetBuf.addMem_addMem] at htail
    obtain ⟨rest, hrest, -⟩ := statusLoop_tail htail
    rw [List.append_assoc, List.append_assoc] at hrest
    rw [hrest]
    cases handleStatus_header hknown (part ++ (marker ++ rest)) size with
    | inl hreturn => exact .inl hreturn
    | inr hvalue =>
      right
      obtain ⟨values, buf, hrun⟩ := hvalue
      obtain ⟨more, hmore⟩ := handleStatus_data table (cli.reportData sensor.type values) buf
      refine ⟨⟨e, herror⟩, values, more, ?_⟩
      rw [hrun, hmore]
      simp [SensorCli.reportData]

theorem handleStatus_ne_of_failed {outcome : Option (List SensorValue)}
    {outcomes : List (Option (List SensorValue))} {size : Nat}
    (hknown : sensorTypeGet table sensor.type.id = some sensor.type)
    (hnew : sensor.type.id ∉ sensors.map (·.1.type.id))
    (hexpected : Expected sensor reading outcome)
    (hfailed : ∀ bytes, sensorPayload sensor reading = .ok bytes → ¬ statusLen sensor.type ≤ buf.tailroom)
    (htail : (statusLoop ((sensor, reading) :: sensors) buf).2 = buf.addMem tail)
    (hcli : cli.rsp = some ⟨sensor.type.id, .waiting⟩) :
    handleStatus table cli ⟨tail, size⟩
      ≠ (((sensor, reading) :: sensors).zip (outcome :: outcomes)).foldl SensorCli.expect cli := by
  intro hrun
  rw [List.zip_cons_cons] at hrun
  obtain hreturn | ⟨⟨e, herror⟩, values, more, hdata⟩ :=
    handleStatus_of_failed cli hknown hfailed sensors htail size
  · have hanswers := foldl_expect_answers ((sensor, reading), outcome) hcli
      (sensors.zip outcomes)
    rw [← hrun, hreturn] at hanswers
    exact hanswers rfl
  · cases hexpected with
    | value hbytes _ => cases herror.symm.trans hbytes
    | failed _ =>
      -- The value that the client reports for this sensor is expected for none of the others.
      obtain ⟨reports, hreports, htypes⟩ := foldl_expect_data
        (cli.noValue sensor.type.id) (sensors.zip outcomes)
      have hmem : (sensor.type, values) ∈ reports := by
        have happend : cli.data ++ reports = cli.data ++ (sensor.type, values) :: more := by
          rw [← hdata, hrun]
          exact hreports.symm
        rw [List.append_cancel_left happend]
        exact List.mem_cons_self
      obtain ⟨other, hother, hsame⟩ := htypes _ hmem
      apply hnew
      apply List.mem_map.mpr
      refine ⟨other.1, (List.of_mem_zip hother).1, ?_⟩
      rw [← hsame]

/-- If the client reports what is expected to whoever waits for one of the sensors, every sensor is
readable and all fit. -/
theorem readable_of_expected {outcomes : List (Option (List SensorValue))} {size : Nat}
    (hknown : ∀ entry ∈ sensors, sensorTypeGet table entry.1.type.id = some entry.1.type)
    (hnodup : (sensors.map (·.1.type.id)).Nodup)
    (houtcomes : List.Forall₂ (fun entry => Expected entry.1 entry.2) sensors outcomes)
    (htail : (statusLoop sensors buf).2 = buf.addMem tail)
    (hagrees : ∀ id ∈ sensors.map (·.1.type.id), ∃ cli : SensorCli, cli.rsp = some ⟨id, .waiting⟩ ∧
        handleStatus table cli ⟨tail, size⟩ = (sensors.zip outcomes).foldl SensorCli.expect cli) :
    (∀ entry ∈ sensors, Readable entry.1 entry.2)
      ∧ (sensors.map (statusLen ·.1.type)).sum ≤ buf.tailroom := by
  induction houtcomes generalizing buf tail with
  | nil => simp
  | @cons entry outcome sensors outcomes hexpected _ ih =>
    obtain ⟨sensor, reading⟩ := entry
    rw [List.map_cons, List.nodup_cons] at hnodup
    have htype := hknown (sensor, reading) List.mem_cons_self
    by_cases hgood : ∃ bytes, sensorPayload sensor reading = .ok bytes
        ∧ statusLen sensor.type ≤ buf.tailroom
    · obtain ⟨bytes, hbytes, hroom⟩ := hgood
      have hlength := length_sensorPayload hbytes
      cases hexpected with
      | failed herror => cases hbytes.symm.trans herror
      | @value bytes' values hbytes' hvalues =>
        cases hbytes.symm.trans hbytes'
        have hloop : (statusLoop ((sensor, reading) :: sensors) buf).2
            = (statusLoop sensors (bufStatusAdd sensor reading buf).2).2 := rfl
        rw [hloop, bufStatusAdd_of_payload hbytes hroom] at htail
        obtain ⟨rest, hrest, hloop⟩ := statusLoop_tail htail
        have hothers := ih (fun entry hentry => hknown entry (List.mem_cons_of_mem _ hentry))
          hnodup.2 hloop (by
            intro id hid
            obtain ⟨cli, hcli, hrun⟩ := hagrees id (by
              rw [List.map_cons]
              exact List.mem_cons_of_mem _ hid)
            have hne : id ≠ sensor.type.id := fun heq => hnodup.1 (heq ▸ hid)
            refine ⟨cli.reportData sensor.type values, ?_, ?_⟩
            · simp only [SensorCli.reportData, SensorCli.complete, hcli, Option.map_some,
                if_neg hne]
            · rw [hrest, handleStatus_value htype hlength hvalues] at hrun
              exact hrun)
        constructor
        · intro entry hentry
          cases List.mem_cons.mp hentry with
          | inl h =>
            rw [h]
            exact ⟨bytes, values, hbytes, hvalues⟩
          | inr h => exact hothers.1 entry h
        · have hsum := hothers.2
          rw [NetBuf.tailroom_addMem, List.length_append, hlength] at hsum
          rw [List.map_cons, List.sum_cons]
          simp only [statusLen] at hroom hsum ⊢
          omega
    · exfalso
      obtain ⟨cli, hcli, hrun⟩ := hagrees sensor.type.id (by simp)
      exact handleStatus_ne_of_failed htype hnodup.1 hexpected
        (fun bytes hbytes hroom => hgood ⟨bytes, hbytes, hroom⟩) htail hcli hrun

theorem expected_of_readable
    (hknown : ∀ entry ∈ sensors, sensorTypeGet table entry.1.type.id = some entry.1.type)
    (hreadable : ∀ entry ∈ sensors, Readable entry.1 entry.2)
    (hroom : (sensors.map (statusLen ·.1.type)).sum ≤ buf.tailroom) (size : Nat) :
    ∃ outcomes tail, List.Forall₂ (fun entry => Expected entry.1 entry.2) sensors outcomes
      ∧ (statusLoop sensors buf).2 = buf.addMem tail
      ∧ ∀ cli, handleStatus table cli ⟨tail, size⟩
        = (sensors.zip outcomes).foldl SensorCli.expect cli := by
  induction sensors generalizing buf with
  | nil =>
    refine ⟨[], [], .nil, (NetBuf.addMem_nil buf).symm, ?_⟩
    intro cli
    exact handleStatus_nil rfl
  | cons entry sensors ih =>
    obtain ⟨sensor, reading⟩ := entry
    rw [List.map_cons, List.sum_cons] at hroom
    obtain ⟨bytes, values, hbytes, hvalues⟩ := hreadable (sensor, reading) List.mem_cons_self
    have hlength := length_sensorPayload hbytes
    have htype := hknown (sensor, reading) List.mem_cons_self
    have hfirst : statusLen sensor.type ≤ buf.tailroom := by
      simp only at hroom
      omega
    have hrest : (sensors.map (statusLen ·.1.type)).sum
        ≤ (buf.addMem (statusHeader sensor.type.len sensor.type.id ++ bytes)).tailroom := by
      rw [NetBuf.tailroom_addMem, List.length_append, hlength]
      simp only [statusLen] at hroom ⊢
      omega
    obtain ⟨outcomes, tail, houtcomes, htail, hrun⟩ := ih
      (fun entry hentry => hknown entry (List.mem_cons_of_mem _ hentry))
      (fun entry hentry => hreadable entry (List.mem_cons_of_mem _ hentry)) hrest
    refine ⟨some values :: outcomes,
      statusHeader sensor.type.len sensor.type.id ++ bytes ++ tail,
      .cons (.value hbytes hvalues) houtcomes, ?_, ?_⟩
    · rw [← NetBuf.addMem_addMem, ← htail, ← bufStatusAdd_of_payload hbytes hfirst]
      rfl
    · intro cli
      rw [handleStatus_value htype hlength hvalues, hrun]
      rfl

/-- The message of `handle_get` without a property ID. -/
theorem handleGet_all (sensors : List (Sensor × Reading)) (rsp : NetBuf) :
    handleGet sensors ⟨[], 0⟩ rsp = some (statusLoop sensors rsp) := rfl

private theorem addMem_empty (tail : List UInt8) (capacity : Nat) :
    NetBuf.addMem ⟨[], capacity⟩ tail = ⟨tail, capacity⟩ := rfl

theorem readable_of_statusAgrees {capacity : Nat}
    (hknown : ∀ entry ∈ sensors, entry.1.type ∈ table.types)
    (hnodup : (sensors.map (·.1.type.id)).Nodup) (h : StatusAgrees table sensors capacity) :
    (∀ entry ∈ sensors, Readable entry.1 entry.2)
      ∧ (sensors.map (statusLen ·.1.type)).sum ≤ capacity := by
  obtain ⟨outcomes, houtcomes, states, msg, hget, hagrees⟩ := h
  obtain ⟨tail, htail⟩ := statusLoop_appends sensors ⟨[], capacity⟩
  rw [handleGet_all] at hget
  have hmsg : msg = ⟨tail, capacity⟩ := by
    rw [← addMem_empty, ← htail, Option.some.inj hget]
  apply readable_of_expected
    (fun entry hentry => sensorTypeGet_of_mem (hknown entry hentry)) hnodup houtcomes htail
  intro id _
  refine ⟨⟨some ⟨id, .waiting⟩, [], []⟩, rfl, ?_⟩
  rw [← hmsg]
  apply hagrees

/-- Server and client agree on a status message exactly if every sensor has a value that its
formats encode and read back, and the statuses fit the buffer. -/
theorem statusAgrees_iff (table : TypeTable) (sensors : List (Sensor × Reading)) (capacity : Nat)
    (hknown : ∀ entry ∈ sensors, entry.1.type ∈ table.types)
    (hnodup : (sensors.map (·.1.type.id)).Nodup) :
    StatusAgrees table sensors capacity ↔ (∀ entry ∈ sensors, Readable entry.1 entry.2)
      ∧ (sensors.map (statusLen ·.1.type)).sum ≤ capacity := by
  constructor
  · exact readable_of_statusAgrees hknown hnodup
  · rintro ⟨hreadable, hroom⟩
    have hfits : (sensors.map (statusLen ·.1.type)).sum
        ≤ (NetBuf.mk [] capacity).tailroom := hroom
    obtain ⟨outcomes, tail, houtcomes, htail, hrun⟩ := expected_of_readable
      (fun entry hentry => sensorTypeGet_of_mem (hknown entry hentry))
      hreadable hfits capacity
    refine ⟨outcomes, houtcomes, (statusLoop sensors ⟨[], capacity⟩).1, ⟨tail, capacity⟩, ?_, hrun⟩
    rw [handleGet_all, ← addMem_empty tail capacity, ← htail]

end Agreement

/-- `bt_mesh_sensor_people_count`. -/
def peopleCount : SensorType where
  id := 0x004C
  flagSeries := false
  channels := [.ofScalar count16 (by decide) (by decide)]
  id_pos := by decide
  id_lt := by decide
  len_pos := by decide
  len_lt := by decide

/-- `bt_mesh_sensor_present_amb_temp`. -/
def presentAmbTemp : SensorType where
  id := 0x004F
  flagSeries := false
  channels := [.ofScalar temp8 temp8_size_pos temp8_size_le]
  id_pos := by decide
  id_lt := by decide
  len_pos := by decide
  len_lt := by decide

def initialSensor (type : SensorType) : Sensor where
  type := type
  threshold := ⟨.value, ⟨0, 0⟩, ⟨0, 0⟩, .normal, ⟨0, 0⟩, ⟨0, 0⟩⟩
  prev := ⟨0, 0⟩
  seq := 0
  minInt := 0
  pubDiv := 0
  fastPub := false

def twoTypes : TypeTable where
  types := [peopleCount, presentAmbTemp]
  nodup := by decide

def countMissing : List (Sensor × Reading) :=
  [(initialSensor peopleCount, some (Except.error Errno.EIO)),
    (initialSensor presentAmbTemp, some (.ok [⟨21, 500000⟩]))]

/-- The client does not read past the sensor without a value. -/
theorem countMissing_not_agrees :
    (∀ entry ∈ countMissing, entry.1.type ∈ twoTypes.types)
      ∧ (countMissing.map (·.1.type.id)).Nodup
      ∧ (countMissing.map (statusLen ·.1.type)).sum ≤ 379
      ∧ ¬ StatusAgrees twoTypes countMissing 379 := by
  have hknown : ∀ entry ∈ countMissing, entry.1.type ∈ twoTypes.types := by
    simp [countMissing, twoTypes, initialSensor]
  have hnodup : (countMissing.map (·.1.type.id)).Nodup := by decide
  refine ⟨hknown, hnodup, by decide, ?_⟩
  intro hagrees
  have hreadable := (readable_of_statusAgrees hknown hnodup hagrees).1
  obtain ⟨bytes, values, hbytes, -⟩ := hreadable _ List.mem_cons_self
  cases hbytes

def bothAvailable : List (Sensor × Reading) :=
  [(initialSensor peopleCount, some (.ok [⟨7, 0⟩])),
    (initialSensor presentAmbTemp, some (.ok [⟨21, 500000⟩]))]

private theorem readable_of_returnsWith {sensor : Sensor} {reading : Reading}
    (h : returnsWith (sensorPayload sensor reading >>= interprets sensor.type.channels)
      (fun _ => true) = true) : Readable sensor reading := by
  obtain ⟨values, hvalues, -⟩ := exists_of_returnsWith _ h
  rw [bind_eq_ok] at hvalues
  obtain ⟨bytes, hbytes, hvalues⟩ := hvalues
  exact ⟨bytes, values, hbytes, hvalues⟩

theorem bothAvailable_agrees :
    (∀ entry ∈ bothAvailable, entry.1.type ∈ twoTypes.types)
      ∧ (bothAvailable.map (·.1.type.id)).Nodup ∧ StatusAgrees twoTypes bothAvailable 379 := by
  have hknown : ∀ entry ∈ bothAvailable, entry.1.type ∈ twoTypes.types := by
    simp [bothAvailable, twoTypes, initialSensor]
  have hnodup : (bothAvailable.map (·.1.type.id)).Nodup := by decide
  refine ⟨hknown, hnodup, (statusAgrees_iff twoTypes bothAvailable 379 hknown hnodup).mpr ⟨?_, ?_⟩⟩
  · intro entry hentry
    simp only [bothAvailable, List.mem_cons, List.not_mem_nil, or_false] at hentry
    cases hentry with
    | inl h =>
      rw [h]
      exact readable_of_returnsWith (by decide +kernel)
    | inr h =>
      rw [h]
      exact readable_of_returnsWith (by decide +kernel)
  · decide

end SdkNrf.Mesh
