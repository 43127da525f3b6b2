import SdkNrf.Mesh.SensorStatus

/-!
# The publication schedule of the sensor server

`_bt_mesh_sensor_srv_update_handler` adds a sensor to a publication when its minimum interval has expired and
its value has changed or its publication interval has expired.
-/

namespace SdkNrf.Mesh

/-- `struct bt_mesh_sensor_srv`, with the fields of its publication parameters that the handler
uses. -/
structure SensorSrv where
  sensors : List Sensor
  seq : Nat
  periodDiv : Nat
  fastPeriod : Bool

inductive PubFault
  | divisionByZero
  deriving DecidableEq

def pubIntGet (sensor : Sensor) (periodDiv : Nat) : Nat :=
  let div := sensor.pubDiv * sensor.fastPub.toNat
  2 ^ (periodDiv - div) % 2 ^ 16

/-- `min_int_get`. The quotient of two `uint32_t` is cut to 16 bits. -/
def minIntGet (sensor : Sensor) (periodDiv basePeriod : Nat) : Except PubFault Nat :=
  let pubInt := basePeriod >>> periodDiv
  let minInt := 2 ^ sensor.minInt % 2 ^ 32
  if pubInt = 0 then .error .divisionByZero
  else .ok ((minInt + (pubInt - 1)) % 2 ^ 32 / pubInt % 2 ^ 16)

/-- What `pub_msg_add` does with a sensor, and from what. -/
structure PubTurn where
  before : Sensor
  reading : Reading
  msg : NetBuf
  after : Sensor
  msgAfter : NetBuf
  included : Bool

/-- `pub_msg_add`. When the encoding fails, the bytes that it has appended stay. -/
def pubMsgAdd (seq periodDiv basePeriod : Nat) (sensor : Sensor) (reading : Reading)
    (msg : NetBuf) : Except PubFault PubTurn := do
  let minInt ← minIntGet sensor periodDiv basePeriod
  if (seq : Int) - sensor.seq < minInt then return ⟨sensor, reading, msg, sensor, msg, false⟩
  match valueGet sensor reading with
  | (updated, .error _) => return ⟨sensor, reading, msg, updated, msg, false⟩
  | (updated, .ok values) =>
    let deltaTriggered := sensorDeltaThreshold updated (values.headD ⟨0, 0⟩)
    let interval := pubIntGet updated periodDiv
    if !deltaTriggered ∧ (seq : Int) - updated.seq < interval then
      return ⟨sensor, reading, msg, updated, msg, false⟩
    match sensorStatusEncode msg updated values with
    | (msgAfter, .error _) => return ⟨sensor, reading, msg, updated, msgAfter, false⟩
    | (msgAfter, .ok ()) =>
      return ⟨sensor, reading, msg, { updated with prev := values.headD ⟨0, 0⟩, seq := seq },
        msgAfter, true⟩

def pubLoop (seq periodDiv basePeriod : Nat) :
    List Sensor → List Reading → NetBuf → Except PubFault (List PubTurn)
  | [], _, _ => return []
  | sensor :: sensors, readings, msg => do
    let turn ← pubMsgAdd seq periodDiv basePeriod sensor (readings.headD none) msg
    let turns ← pubLoop seq periodDiv basePeriod sensors readings.tail turn.msgAfter
    return turn :: turns

namespace SensorSrv

/-- The turns of `_bt_mesh_sensor_srv_update_handler` with a base period, what the sensors read,
and the room in the publication message. -/
def turns (srv : SensorSrv) (basePeriod : Nat) (readings : List Reading) (capacity : Nat) :
    Except PubFault (List PubTurn) :=
  pubLoop srv.seq srv.periodDiv basePeriod srv.sensors readings ⟨[], capacity⟩

/-- The server behind the turns of an update: the fastest divisor of the sensors in fast cadence,
and the next sequence number. -/
def afterTurns (srv : SensorSrv) (turns : List PubTurn) : SensorSrv where
  sensors := turns.map PubTurn.after
  seq := (srv.seq + 1) % 2 ^ 16
  periodDiv := ((turns.map PubTurn.after).filter Sensor.fastPub).foldl
    (fun div sensor => max div sensor.pubDiv) 0
  fastPeriod := (turns.map PubTurn.after).any Sensor.fastPub

def modify (srv : SensorSrv) (id : Nat) (f : Sensor → Sensor) : SensorSrv :=
  { srv with
    sensors := srv.sensors.map fun sensor => if sensor.type.id = id then f sensor else sensor }

/-- `cadence_set` with a message that was decoded. Only sensors with one channel have a cadence. -/
def cadenceSet (srv : SensorSrv) (id : Nat) (threshold : SensorThreshold) (minInt pubDiv : Nat) :
    SensorSrv :=
  srv.modify id fun sensor =>
    if sensor.type.channels.length ≠ 1 then sensor
    else { sensor with minInt := minInt, pubDiv := pubDiv % 16, threshold := threshold }

def sensorCadenceSet (srv : SensorSrv) (id : Nat) (cadence : SensorCadence) : SensorSrv :=
  srv.modify id fun sensor => { sensor with fastPub := cadence = .fast }

/-- `bt_mesh_sensor_srv_pub` with a value that is encoded and sent. -/
def pub (srv : SensorSrv) (id : Nat) (values : List SensorValue) : SensorSrv :=
  srv.modify id fun sensor =>
    { sensorCadenceUpdate sensor (values.headD ⟨0, 0⟩) with prev := values.headD ⟨0, 0⟩ }

/-- The sensors after `handle_get` for all of them. -/
def get (srv : SensorSrv) (readings : List Reading) : SensorSrv :=
  let read := fun sensor reading => (valueGet sensor reading).1
  let padded := readings ++ List.replicate srv.sensors.length none
  { srv with sensors := List.zipWith read srv.sensors padded }

end SensorSrv

inductive PubStep
  | update (basePeriod : Nat) (readings : List Reading) (capacity : Nat)
  | cadenceSet (id : Nat) (threshold : SensorThreshold) (minInt pubDiv : Nat)
  | sensorCadenceSet (id : Nat) (cadence : SensorCadence)
  | pub (id : Nat) (values : List SensorValue)
  | get (readings : List Reading)

structure Schedule where
  srv : SensorSrv
  calls : Nat
  last : List (Option Nat)

namespace Schedule

def included (calls : Nat) (turn : PubTurn) (last : Option Nat) : Option Nat :=
  if turn.included then some calls else last

def step (st : Schedule) : PubStep → Except PubFault Schedule
  | .update basePeriod readings capacity => do
    let turns ← st.srv.turns basePeriod readings capacity
    return ⟨st.srv.afterTurns turns, st.calls + 1,
      List.zipWith (included st.calls) turns st.last⟩
  | .cadenceSet id threshold minInt pubDiv =>
    return { st with srv := st.srv.cadenceSet id threshold minInt pubDiv }
  | .sensorCadenceSet id cadence => return { st with srv := st.srv.sensorCadenceSet id cadence }
  | .pub id values => return { st with srv := st.srv.pub id values }
  | .get readings => return { st with srv := st.srv.get readings }

structure Initial (st : Schedule) : Prop where
  seq : st.srv.seq = 0
  calls : st.calls = 0
  last : st.last = List.replicate st.srv.sensors.length none

/-- What the schedule asks for a sensor in an update: it is included only when its
minimum interval has passed since its last inclusion, and it is included when its publication
interval has passed, unless that is shorter than the minimum interval, its value is not available or
does not fit. -/
structure TurnKeeps (calls periodDiv basePeriod : Nat) (turn : PubTurn) (last : Option Nat) :
    Prop where
  spaced : turn.included = true → ∀ call, last = some call →
    ∃ minInt, minIntGet turn.before periodDiv basePeriod = .ok minInt ∧ call + minInt ≤ calls
  timely : ∀ call minInt values, last = some call →
    minIntGet turn.before periodDiv basePeriod = .ok minInt →
    (valueGet turn.before turn.reading).2 = .ok values →
    (sensorStatusEncode turn.msg (valueGet turn.before turn.reading).1 values).2 = .ok () →
    minInt ≤ pubIntGet (valueGet turn.before turn.reading).1 periodDiv →
    call + pubIntGet (valueGet turn.before turn.reading).1 periodDiv ≤ calls →
    turn.included = true

def StepKeeps (st : Schedule) : PubStep → Prop
  | .update basePeriod readings capacity =>
    ∃ turns, st.srv.turns basePeriod readings capacity = .ok turns
      ∧ List.Forall₂ (TurnKeeps st.calls st.srv.periodDiv basePeriod) turns st.last
  | _ => True

def Keeps : Schedule → List PubStep → Prop
  | _, [] => True
  | st, step :: steps => st.StepKeeps step ∧ ∃ st', st.step step = .ok st' ∧ Keeps st' steps

/-- The sequence numbers of the server and of a sensor with a value, as 16-bit numbers, do not hide
that its publication interval has passed. -/
def SensorClean (calls periodDiv : Nat) (sensor : Sensor) (reading : Reading) (last : Option Nat) :
    Prop :=
  ∀ call values, last = some call → reading = some (.ok values) →
    call + pubIntGet (valueGet sensor reading).1 periodDiv ≤ calls →
    call % 2 ^ 16 + pubIntGet (valueGet sensor reading).1 periodDiv ≤ calls % 2 ^ 16

/-- An update with a message interval that does not vanish, while no wrap of the sequence number
hides an interval that has passed. -/
def StepClean (st : Schedule) : PubStep → Prop
  | .update basePeriod readings _ => basePeriod >>> st.srv.periodDiv ≠ 0
      ∧ ∀ i sensor last, st.srv.sensors[i]? = some sensor → st.last[i]? = some last →
        SensorClean st.calls st.srv.periodDiv sensor (readings.getD i none) last
  | _ => True

def Clean : Schedule → List PubStep → Prop
  | _, [] => True
  | st, step :: steps => st.StepClean step ∧ ∀ st', st.step step = .ok st' → Clean st' steps

def Recorded (calls : Nat) (sensor : Sensor) (last : Option Nat) : Prop :=
  ∀ call, last = some call → call ≤ calls ∧ sensor.seq = call % 2 ^ 16

structure Inv (st : Schedule) : Prop where
  seq : st.srv.seq = st.calls % 2 ^ 16
  sensors : List.Forall₂ (Recorded st.calls) st.srv.sensors st.last

section Turn

variable {seq periodDiv basePeriod : Nat} {sensor : Sensor} {reading : Reading} {msg : NetBuf}
  {turn : PubTurn}

theorem valueGet_seq (sensor : Sensor) (reading : Reading) :
    (valueGet sensor reading).1.seq = sensor.seq := by
  match reading with
  | none => rfl
  | some (.error _) => rfl
  | some (.ok _) => rfl

theorem reading_of_valueGet {values : List SensorValue}
    (h : (valueGet sensor reading).2 = .ok values) : reading = some (.ok values) := by
  match reading, h with
  | some (.ok _), h => rw [← Except.ok.inj h]

theorem pubMsgAdd_turn (h : pubMsgAdd seq periodDiv basePeriod sensor reading msg = .ok turn) :
    (turn.before = sensor ∧ turn.reading = reading ∧ turn.msg = msg)
      ∧ turn.after.seq = (if turn.included then seq else sensor.seq)
      ∧ ∃ minInt, minIntGet sensor periodDiv basePeriod = .ok minInt
        ∧ (turn.included = true → (minInt : Int) ≤ seq - sensor.seq) := by
  simp only [pubMsgAdd, bind_eq_ok] at h
  obtain ⟨minInt, hminInt, h⟩ := h
  split at h
  · cases h
    exact ⟨⟨rfl, rfl, rfl⟩, rfl, minInt, hminInt, by simp⟩
  · next hexpired =>
    have hseq := valueGet_seq sensor reading
    split at h
    · next hget =>
      rw [hget] at hseq
      cases h
      exact ⟨⟨rfl, rfl, rfl⟩, hseq, minInt, hminInt, by simp⟩
    · next hget =>
      rw [hget] at hseq
      split at h
      · cases h
        exact ⟨⟨rfl, rfl, rfl⟩, hseq, minInt, hminInt, by simp⟩
      · split at h
        · cases h
          exact ⟨⟨rfl, rfl, rfl⟩, hseq, minInt, hminInt, by simp⟩
        · cases h
          exact ⟨⟨rfl, rfl, rfl⟩, rfl, minInt, hminInt, fun _ => Int.not_lt.mp hexpired⟩

theorem pubMsgAdd_included (h : pubMsgAdd seq periodDiv basePeriod sensor reading msg = .ok turn)
    {minInt : Nat} {values : List SensorValue}
    (hminInt : minIntGet sensor periodDiv basePeriod = .ok minInt)
    (hvalue : (valueGet sensor reading).2 = .ok values)
    (hencode : (sensorStatusEncode msg (valueGet sensor reading).1 values).2 = .ok ())
    (hmin : (minInt : Int) ≤ seq - sensor.seq)
    (hpub : (pubIntGet (valueGet sensor reading).1 periodDiv : Int) ≤ seq - sensor.seq) :
    turn.included = true := by
  have hseq := valueGet_seq sensor reading
  cases hget : valueGet sensor reading with
  | mk updated result =>
    rw [hget] at hvalue hencode hpub hseq
    simp only at hvalue hencode hpub hseq
    subst hvalue
    have hexpired : ¬ ((!sensorDeltaThreshold updated (values.headD ⟨0, 0⟩)) = true
        ∧ (seq : Int) - updated.seq < pubIntGet updated periodDiv) := by
      intro hwait
      rw [hseq] at hwait
      exact absurd hwait.2 (Int.not_lt.mpr hpub)
    simp only [pubMsgAdd, hminInt, hget, bind, Except.bind, if_neg (Int.not_lt.mpr hmin),
      if_neg hexpired] at h
    split at h
    · next hstatus =>
      rw [hstatus] at hencode
      cases hencode
    · cases h
      rfl

theorem pubMsgAdd_isOk (seq : Nat) (sensor : Sensor) (reading : Reading) (msg : NetBuf)
    (hinterval : basePeriod >>> periodDiv ≠ 0) :
    ∃ turn, pubMsgAdd seq periodDiv basePeriod sensor reading msg = .ok turn := by
  simp only [pubMsgAdd, minIntGet, if_neg hinterval, bind, Except.bind]
  split
  · exact ⟨_, rfl⟩
  · split
    · exact ⟨_, rfl⟩
    · split
      · exact ⟨_, rfl⟩
      · split <;> exact ⟨_, rfl⟩

theorem turnKeeps_of_recorded {calls : Nat} {last : Option Nat}
    (hrecorded : Recorded calls sensor last)
    (hclean : SensorClean calls periodDiv sensor reading last)
    (h : pubMsgAdd (calls % 2 ^ 16) periodDiv basePeriod sensor reading msg = .ok turn) :
    TurnKeeps calls periodDiv basePeriod turn last := by
  obtain ⟨⟨rfl, rfl, rfl⟩, -, minInt, hminInt, hincluded⟩ := pubMsgAdd_turn h
  constructor
  · intro hin call hlast
    obtain ⟨hle, hseq⟩ := hrecorded call hlast
    have hmin := hincluded hin
    exact ⟨minInt, hminInt, by omega⟩
  · intro call minInt' values hlast hminInt' hvalue hencode hle hdue
    obtain ⟨-, hseq⟩ := hrecorded call hlast
    have hreading := reading_of_valueGet hvalue
    have hshown := hclean call values hlast hreading hdue
    apply pubMsgAdd_included h hminInt' hvalue hencode <;> omega

theorem recorded_after_turn {calls : Nat} {last : Option Nat}
    (hrecorded : Recorded calls sensor last)
    (h : pubMsgAdd (calls % 2 ^ 16) periodDiv basePeriod sensor reading msg = .ok turn) :
    Recorded (calls + 1) turn.after (included calls turn last) := by
  obtain ⟨-, hseq, -⟩ := pubMsgAdd_turn h
  intro call hcall
  rw [hseq]
  rw [included] at hcall
  split at hcall
  · next hin =>
    cases hcall
    rw [if_pos hin]
    exact ⟨Nat.le_succ _, rfl⟩
  · next hout =>
    obtain ⟨hle, hsensor⟩ := hrecorded call hcall
    rw [if_neg hout]
    exact ⟨Nat.le_succ_of_le hle, hsensor⟩

end Turn

variable {last : List (Option Nat)} {sensors : List Sensor}

theorem pubLoop_of_recorded {calls periodDiv basePeriod : Nat}
    (hrecorded : List.Forall₂ (Recorded calls) sensors last)
    (hinterval : basePeriod >>> periodDiv ≠ 0) (readings : List Reading) (msg : NetBuf)
    (hclean : ∀ i sensor lastOne, sensors[i]? = some sensor → last[i]? = some lastOne →
        SensorClean calls periodDiv sensor (readings.getD i none) lastOne) :
    ∃ turns, pubLoop (calls % 2 ^ 16) periodDiv basePeriod sensors readings msg = .ok turns
      ∧ List.Forall₂ (TurnKeeps calls periodDiv basePeriod) turns last
      ∧ List.Forall₂ (Recorded (calls + 1)) (turns.map PubTurn.after)
        (List.zipWith (included calls) turns last) := by
  induction hrecorded generalizing readings msg with
  | nil => exact ⟨[], rfl, .nil, .nil⟩
  | @cons sensor last sensors lasts hsensor _ ih =>
    obtain ⟨turn, hturn⟩ :=
      pubMsgAdd_isOk (calls % 2 ^ 16) sensor (readings.headD none) msg hinterval
    have htail : ∀ i sensor last, sensors[i]? = some sensor → lasts[i]? = some last →
        SensorClean calls periodDiv sensor (readings.tail.getD i none) last := by
      intro i sensor last hget hlast
      have := hclean (i + 1) sensor last hget hlast
      simpa [List.getD_eq_getElem?_getD] using this
    have hhead : SensorClean calls periodDiv sensor (readings.headD none) last := by
      simpa [List.getD_eq_getElem?_getD, List.headD_eq_head?_getD, List.head?_eq_getElem?] using
        hclean 0 sensor last rfl rfl
    obtain ⟨turns, hturns, hkeeps, hafter⟩ := ih readings.tail turn.msgAfter htail
    refine ⟨turn :: turns, ?_, .cons ?_ hkeeps, .cons ?_ hafter⟩
    · simp only [pubLoop, hturn, hturns, bind, Except.bind]
      rfl
    · exact turnKeeps_of_recorded hsensor hhead hturn
    · exact recorded_after_turn hsensor hturn

variable {f : Sensor → Sensor}

theorem recorded_map {calls : Nat} (hrecorded : List.Forall₂ (Recorded calls) sensors last)
    (hf : ∀ sensor, (f sensor).seq = sensor.seq) :
    List.Forall₂ (Recorded calls) (sensors.map f) last := by
  rw [List.forall₂_map_left_iff]
  apply hrecorded.imp
  intro sensor last h call hcall
  rw [hf]
  exact h call hcall

theorem modify_seq (id : Nat) (hf : ∀ sensor, (f sensor).seq = sensor.seq) (sensor : Sensor) :
    (if sensor.type.id = id then f sensor else sensor).seq = sensor.seq := by
  split
  · exact hf sensor
  · rfl

theorem recorded_get {calls : Nat} (hrecorded : List.Forall₂ (Recorded calls) sensors last)
    {readings : List Reading} (hlength : sensors.length ≤ readings.length) :
    List.Forall₂ (Recorded calls)
      (List.zipWith (fun sensor reading => (valueGet sensor reading).1) sensors readings) last := by
  induction hrecorded generalizing readings with
  | nil => exact .nil
  | cons hsensor _ ih =>
    cases readings with
    | nil => simp at hlength
    | cons reading readings =>
      refine .cons ?_ (ih (by simpa using hlength))
      intro call hcall
      rw [valueGet_seq]
      exact hsensor call hcall

variable {st : Schedule}

theorem inv_modify (hinv : Inv st) (id : Nat) (hf : ∀ sensor, (f sensor).seq = sensor.seq) :
    Inv { st with srv := st.srv.modify id f } where
  seq := hinv.seq
  sensors := recorded_map hinv.sensors (modify_seq id hf)

theorem step_of_clean (hinv : Inv st) {step : PubStep} (hclean : st.StepClean step) :
    st.StepKeeps step ∧ ∃ st', st.step step = .ok st' ∧ Inv st' := by
  cases step with
  | update basePeriod readings capacity =>
    obtain ⟨turns, hturns, hkeeps, hafter⟩ :=
      pubLoop_of_recorded hinv.sensors hclean.1 readings ⟨[], capacity⟩ hclean.2
    rw [← hinv.seq] at hturns
    refine ⟨⟨turns, hturns, hkeeps⟩, ⟨st.srv.afterTurns turns, st.calls + 1,
      List.zipWith (included st.calls) turns st.last⟩, ?_, ?_, hafter⟩
    · simp only [Schedule.step, SensorSrv.turns, hturns, bind, Except.bind]
      rfl
    · change (st.srv.seq + 1) % 2 ^ 16 = (st.calls + 1) % 2 ^ 16
      rw [hinv.seq, Nat.mod_add_mod]
  | cadenceSet id threshold minInt pubDiv =>
    refine ⟨trivial, _, rfl, inv_modify hinv id ?_⟩
    intro sensor
    split <;> rfl
  | sensorCadenceSet id cadence =>
    exact ⟨trivial, _, rfl, inv_modify hinv id fun _ => rfl⟩
  | pub id values =>
    exact ⟨trivial, _, rfl, inv_modify hinv id fun _ => rfl⟩
  | get readings =>
    refine ⟨trivial, _, rfl, hinv.seq, recorded_get hinv.sensors ?_⟩
    simp

theorem inv_of_initial (hinit : Initial st) : Inv st where
  seq := by simp [hinit.seq, hinit.calls]
  sensors := by
    rw [hinit.last, List.forall₂_iff_get]
    simp [Recorded]

theorem keeps_of_inv (hinv : Inv st) {steps : List PubStep} (hclean : Clean st steps) :
    Keeps st steps := by
  induction steps generalizing st with
  | nil => trivial
  | cons step steps ih =>
    obtain ⟨hkeeps, st', hstep, hinv'⟩ := step_of_clean hinv hclean.1
    exact ⟨hkeeps, st', hstep, ih hinv' (hclean.2 st' hstep)⟩

/-- From a new server, every run whose message intervals do not vanish and in which no wrap of the
sequence number hides an interval that has passed keeps the schedule. -/
theorem keeps_of_clean (hinit : Initial st) {steps : List PubStep} (hclean : Clean st steps) :
    Keeps st steps :=
  keeps_of_inv (inv_of_initial hinit) hclean

def new (types : List SensorType) : Schedule where
  srv := ⟨types.map initialSensor, 0, 0, false⟩
  calls := 0
  last := List.replicate types.length none

theorem new_initial (types : List SensorType) : Initial (new types) where
  seq := rfl
  calls := rfl
  last := by simp [new]

theorem stepClean_of_lt {st : Schedule} {basePeriod : Nat} (hcalls : st.calls < 2 ^ 16)
    (hinterval : basePeriod >>> st.srv.periodDiv ≠ 0) (readings : List Reading) (capacity : Nat) :
    st.StepClean (.update basePeriod readings capacity) := by
  refine ⟨hinterval, ?_⟩
  intro i sensor last _ _ call values _ _ hdue
  omega

def peopleUpdate (count : Int) : PubStep := .update 1000 [some (.ok [⟨count, 0⟩])] 32

-- The second and the third update include the sensor.

example :
    ([peopleUpdate 3, peopleUpdate 5, peopleUpdate 5].foldlM step (new [peopleCount])).map
      Schedule.last = .ok [some 2] := by
  decide +kernel

theorem keeps_peopleUpdates :
    Keeps (new [peopleCount]) [peopleUpdate 3, peopleUpdate 5, peopleUpdate 5] := by
  have hshape : ([peopleUpdate 3, peopleUpdate 5].foldlM step (new [peopleCount])).map
      (fun st => (st.calls, st.srv.periodDiv)) = .ok (2, 0) := by
    decide +kernel
  apply keeps_of_clean (new_initial [peopleCount])
  refine ⟨stepClean_of_lt (by decide) (by decide) _ _, ?_⟩
  intro first hfirst
  simp only [List.foldlM_cons, List.foldlM_nil, hfirst, bind, Except.bind] at hshape
  cases hfirst
  refine ⟨stepClean_of_lt (by decide) (by decide) _ _, ?_⟩
  intro second hsecond
  simp only [hsecond, pure, Except.pure, Except.map, Except.ok.injEq, Prod.mk.injEq] at hshape
  refine ⟨stepClean_of_lt ?_ ?_ _ _, fun _ _ => trivial⟩
  · simp [hshape.1]
  · simp [hshape.2]

theorem turns_fault {srv : SensorSrv} {basePeriod : Nat} (hsensors : srv.sensors ≠ [])
    (hinterval : basePeriod >>> srv.periodDiv = 0) (readings : List Reading) (capacity : Nat) :
    srv.turns basePeriod readings capacity = .error .divisionByZero := by
  cases hlist : srv.sensors with
  | nil => exact absurd hlist hsensors
  | cons sensor sensors =>
    simp [SensorSrv.turns, hlist, pubLoop, pubMsgAdd, minIntGet, hinterval, bind, Except.bind]

def fastUpdates : List PubStep :=
  [.cadenceSet peopleCount.id ⟨.value, ⟨0, 0⟩, ⟨0, 0⟩, .fast, ⟨0, 0⟩, ⟨10, 0⟩⟩ 0 7,
    .sensorCadenceSet peopleCount.id .fast,
    .update 100 [some (.ok [⟨3, 0⟩])] 32, .update 100 [some (.ok [⟨3, 0⟩])] 32]

/-- In the second update, 100 ms shifted by the divisor 7 divide. -/
theorem not_keeps_fastUpdates :
    Initial (new [peopleCount]) ∧ ¬ Keeps (new [peopleCount]) fastUpdates := by
  refine ⟨new_initial _, ?_⟩
  intro ⟨_, _, hset, _, _, hfast, _, _, hfirst, ⟨_, hsecond, _⟩, _⟩
  cases hset
  cases hfast
  cases hfirst
  rw [turns_fault (by simp [SensorSrv.afterTurns]) (by decide)] at hsecond
  cases hsecond

end Schedule

end SdkNrf.Mesh
