import SdkNrf.Framework.Reachable
import SdkNrf.Mesh.LevelServers
import SdkNrf.Mesh.SensorTypes

/-!
# The Light Lightness Control server

The server of `light_ctrl_srv.c`, built with the illuminance regulator and with persistent storage.
-/

namespace SdkNrf.Mesh

/-- `enum bt_mesh_light_ctrl_srv_state`. -/
inductive CtrlState
  | standby
  | on
  | prolong
  deriving DecidableEq, Repr

structure PerState (α : Type) where
  standby : α
  on : α
  prolong : α
  deriving DecidableEq, Repr

namespace PerState

variable {α : Type}

def get (a : PerState α) : CtrlState → α
  | .standby => a.standby
  | .on => a.on
  | .prolong => a.prolong

def set (a : PerState α) (state : CtrlState) (val : α) : PerState α :=
  match state with
  | .standby => { a with standby := val }
  | .on => { a with on := val }
  | .prolong => { a with prolong := val }

end PerState

/-- `struct bt_mesh_light_ctrl_srv_cfg`, with times in milliseconds. -/
structure LightCtrlCfg where
  occupancyDelay : UInt32
  fadeOn : UInt32
  on : UInt32
  fadeProlong : UInt32
  prolong : UInt32
  fadeStandbyAuto : UInt32
  fadeStandbyManual : UInt32
  light : PerState UInt16
  deriving DecidableEq, Repr

/-- `struct bt_mesh_light_ctrl_srv_reg_cfg`. -/
structure LightCtrlRegCfg where
  lux : PerState SensorValue
  kiu : UInt16
  kid : UInt16
  kpu : UInt16
  kpd : UInt16
  accuracy : UInt8
  deriving DecidableEq, Repr

structure LightCtrlConfig where
  cfg : LightCtrlCfg
  regCfg : LightCtrlRegCfg
  occupancyMode : Bool
  storeTimeout : UInt32
  timeManual : UInt32
  regInterval : UInt32
  lightRepr : LightRepr

def LightCtrlConfig.default : LightCtrlConfig where
  cfg :=
    { occupancyDelay := 0, fadeOn := 500, on := 60000, fadeProlong := 5000, prolong := 30000
      fadeStandbyAuto := 5000, fadeStandbyManual := 500, light := ⟨0, 65535, 10000⟩ }
  regCfg :=
    { lux := ⟨⟨0, 0⟩, ⟨167772, 0⟩, ⟨83886, 0⟩⟩
      kiu := 250, kid := 25, kpu := 80, kpd := 80, accuracy := 2 }
  occupancyMode := false
  storeTimeout := 5000
  timeManual := 5
  regInterval := 100
  lightRepr := .actual

/-- `enum flags`. -/
structure LightCtrlFlags where
  on : Bool := false
  occMode : Bool := false
  manual : Bool := false
  regulator : Bool := false
  occPending : Bool := false
  onPending : Bool := false
  offPending : Bool := false
  transition : Bool := false
  storeCfg : Bool := false
  storeState : Bool := false
  manuallyEnabled : Bool := false
  started : Bool := false
  deriving DecidableEq, Repr

structure Fade where
  initialLight : UInt16
  initialLux : SensorValue
  duration : UInt32
  deriving DecidableEq, Repr

/-- The stored flags, `enum stored_flags`. -/
structure LightCtrlStored where
  on : Bool
  occMode : Bool
  enabled : Bool
  deriving DecidableEq, Repr

/-- The flags that `store` is called with: `FLAG_STORE_CFG` and `FLAG_STORE_STATE`. -/
inductive StoreKind
  | cfg
  | state
  deriving DecidableEq, Repr

/-- `struct bt_mesh_light_ctrl_srv` with its lightness server and its persistent storage;
`controlled` is `LIGHTNESS_SRV_FLAG_CONTROLLED`. -/
structure LightCtrl where
  state : CtrlState
  flags : LightCtrlFlags
  fade : Fade
  ambientLux : SensorValue
  timer : Option UInt32
  storeTimer : Option UInt32
  actionDelay : Option UInt32
  regTimer : Option UInt32
  cfg : LightCtrlCfg
  regI : UInt16
  regCfg : LightCtrlRegCfg
  lightness : LevelSrv
  controlled : Bool
  storedCfg : Option (LightCtrlCfg × LightCtrlRegCfg)
  storedState : Option LightCtrlStored
  deriving DecidableEq, Repr

/-- `struct bt_mesh_model_transition`, in milliseconds. -/
structure CtrlTransition where
  time : UInt32
  delay : UInt32
  deriving DecidableEq, Repr

/-- `enum bt_mesh_on_power_up`. -/
inductive OnPowerUp
  | off
  | on
  | restore
  deriving DecidableEq, Repr

/-- `enum bt_mesh_light_ctrl_prop`. -/
inductive LightCtrlProp
  | regKid | regKiu | regKpd | regKpu | regAccuracy
  | illuminance (state : CtrlState)
  | lightness (state : CtrlState)
  | timeFadeProlong | timeFadeOn | timeFadeStandbyAuto | timeFadeStandbyManual
  | timeOccupancyDelay | timeProlong | timeOn
  deriving DecidableEq, Repr

def toCentiLux (lux : SensorValue) : UInt32 := .ofInt (lux.val1 * 100 + lux.val2.tdiv 10000)

def fromCentiLux (centiLux : UInt32) : SensorValue :=
  ⟨(centiLux / 100).toNat, (centiLux % 10000).toNat⟩

def fromPropTime (prop : SensorValue) : UInt32 := .ofInt (prop.val1 * 1000 + prop.val2.tdiv 1000)

/-- The linear interpolation in `uint32_t`. -/
def interpolate (start stop curr duration : UInt32) : UInt32 :=
  start + (stop - start) * curr / duration

namespace LightCtrl

variable (C : LightCtrlConfig) (srv : LightCtrl)

/-- `k_delayed_work_remaining_get`. -/
def remaining (timer : Option UInt32) : UInt32 := timer.getD 0

def restartTimer (delay : UInt32) : LightCtrl := { srv with timer := some delay }

def regStart : LightCtrl := { srv with regTimer := some C.regInterval }

def store (kind : StoreKind) : LightCtrl :=
  let pending := srv.flags.storeCfg || srv.flags.storeState
  { srv with
    flags :=
      match kind with
      | .cfg => { srv.flags with storeCfg := true }
      | .state => { srv.flags with storeState := true }
    storeTimer := if pending then srv.storeTimer else some C.storeTimeout }

/-- `delayed_change`; `none` when the change is ignored. -/
def delayedChange (value : Bool) (delay : UInt32) : Option LightCtrl :=
  let same := if value then srv.flags.onPending || srv.flags.occPending else srv.flags.offPending
  if same ∧ remaining srv.actionDelay < delay then none
  else some { srv with
    flags := { srv.flags with onPending := false, offPending := false, occPending := false }
    actionDelay := some delay }

/-- `delayed_occupancy`. The time since the motion is compared as an unsigned number. -/
def delayedOccupancy (timeSinceMotion : SensorValue) : LightCtrl :=
  let msSinceMotion : UInt32 := .ofInt (timeSinceMotion.val1 * 1000)
  if msSinceMotion > srv.cfg.occupancyDelay then srv
  else
    match srv.delayedChange true (srv.cfg.occupancyDelay - msSinceMotion) with
    | none => srv
    | some srv => { srv with flags := { srv.flags with occPending := true } }

def delayedSet (transition : CtrlTransition) (value : Bool) : LightCtrl :=
  match srv.delayedChange value transition.delay with
  | none => srv
  | some srv => { srv with
    flags :=
      if value then { srv.flags with onPending := true } else { srv.flags with offPending := true }
    fade := { srv.fade with duration := transition.time } }

theorem delayedChange_eq {srv srv' : LightCtrl} {value : Bool} {delay : UInt32}
    (h : srv.delayedChange value delay = some srv') : srv' = { srv with
      flags := { srv.flags with onPending := false, offPending := false, occPending := false }
      actionDelay := some delay } := by
  simp only [delayedChange, Option.ite_none_left_eq_some] at h
  exact (Option.some.inj h.2).symm

theorem delayedOccupancy_cases (timeSinceMotion : SensorValue) :
    srv.delayedOccupancy timeSinceMotion = srv
      ∨ UInt32.ofInt (timeSinceMotion.val1 * 1000) ≤ srv.cfg.occupancyDelay
        ∧ ∃ delay, srv.delayedOccupancy timeSinceMotion = { srv with
          flags := { srv.flags with onPending := false, offPending := false, occPending := true }
          actionDelay := some delay } := by
  simp only [delayedOccupancy]
  split
  · exact .inl rfl
  · next hdelay =>
    split
    · exact .inl rfl
    · next hchange =>
      rw [delayedChange_eq hchange]
      exact .inr ⟨UInt32.not_lt.mp hdelay, _, rfl⟩

theorem delayedSet_cases (transition : CtrlTransition) (value : Bool) :
    srv.delayedSet transition value = srv
      ∨ srv.delayedSet transition value = { srv with
        flags := { srv.flags with onPending := value, offPending := !value, occPending := false }
        actionDelay := some transition.delay
        fade := { srv.fade with duration := transition.time } } := by
  rw [delayedSet]
  split
  · exact .inl rfl
  · next hchange =>
    rw [delayedChange_eq hchange]
    cases value <;> exact .inr rfl

def lightSet (lvl : UInt16) (transitionTime : UInt32) : LightCtrl :=
  { srv with lightness := (srv.lightness.changeLvl ⟨lvl, some ⟨transitionTime.toNat, 0⟩⟩).1 }

def currFadeTime : UInt32 :=
  if srv.flags.transition then srv.fade.duration - remaining srv.timer else 0

def remainingFadeTime : UInt32 := if srv.flags.transition then remaining srv.timer else 0

def lightGet : UInt16 :=
  if !srv.controlled then 0
  else if !srv.flags.transition ∨ srv.fade.duration = 0 then srv.cfg.light.get srv.state
  else (interpolate srv.fade.initialLight.toUInt32 (srv.cfg.light.get srv.state).toUInt32
    srv.currFadeTime srv.fade.duration).toUInt16

def luxGet : SensorValue :=
  if !srv.controlled then ⟨0, 0⟩
  else if !srv.flags.transition ∨ srv.fade.duration = 0 then srv.regCfg.lux.get srv.state
  else fromCentiLux (interpolate (toCentiLux srv.fade.initialLux)
    (toCentiLux (srv.regCfg.lux.get srv.state)) srv.currFadeTime srv.fade.duration)

/-- `transition_start`. The initial light is read with the new state and the old duration, the
initial illuminance with both new. -/
def transitionStart (state : CtrlState) (fadeTime : UInt32) : LightCtrl :=
  let srv := { srv with state := state }
  let srv := { srv with fade := { srv.fade with initialLight := srv.lightGet } }
  let srv := { srv with fade := { srv.fade with duration := fadeTime } }
  let srv := { srv with fade := { srv.fade with initialLux := srv.luxGet } }
  let srv := { srv with flags := { srv.flags with transition := true } }
  (srv.lightSet (srv.cfg.light.get state) fadeTime).restartTimer fadeTime

variable (kind : StoreKind)

@[simp] theorem store_state : (srv.store C kind).state = srv.state := rfl

@[simp] theorem store_fade : (srv.store C kind).fade = srv.fade := rfl

@[simp] theorem store_timer : (srv.store C kind).timer = srv.timer := rfl

@[simp] theorem store_actionDelay :
    (srv.store C kind).actionDelay = srv.actionDelay := rfl

@[simp] theorem store_cfg : (srv.store C kind).cfg = srv.cfg := rfl

@[simp] theorem store_regCfg : (srv.store C kind).regCfg = srv.regCfg := rfl

@[simp] theorem store_controlled :
    (srv.store C kind).controlled = srv.controlled := rfl

@[simp] theorem store_storedCfg :
    (srv.store C kind).storedCfg = srv.storedCfg := rfl

@[simp] theorem store_storedState :
    (srv.store C kind).storedState = srv.storedState := rfl

@[simp] theorem store_flags :
    (srv.store C .state).flags = { srv.flags with storeState := true } := rfl

section TransitionStart

variable (state : CtrlState) (fadeTime : UInt32)

@[simp] theorem transitionStart_state : (srv.transitionStart state fadeTime).state = state := rfl

@[simp] theorem transitionStart_flags :
    (srv.transitionStart state fadeTime).flags = { srv.flags with transition := true } := rfl

@[simp] theorem transitionStart_timer :
    (srv.transitionStart state fadeTime).timer = some fadeTime := rfl

@[simp] theorem transitionStart_storeTimer :
    (srv.transitionStart state fadeTime).storeTimer = srv.storeTimer := rfl

@[simp] theorem transitionStart_actionDelay :
    (srv.transitionStart state fadeTime).actionDelay = srv.actionDelay := rfl

@[simp] theorem transitionStart_cfg : (srv.transitionStart state fadeTime).cfg = srv.cfg := rfl

@[simp] theorem transitionStart_regCfg :
    (srv.transitionStart state fadeTime).regCfg = srv.regCfg := rfl

@[simp] theorem transitionStart_controlled :
    (srv.transitionStart state fadeTime).controlled = srv.controlled := rfl

@[simp] theorem transitionStart_storedCfg :
    (srv.transitionStart state fadeTime).storedCfg = srv.storedCfg := rfl

@[simp] theorem transitionStart_storedState :
    (srv.transitionStart state fadeTime).storedState = srv.storedState := rfl

end TransitionStart

/-- `turn_on`; without a transition, the configured fade time is used. -/
def turnOn (fadeTime : Option UInt32) : LightCtrl :=
  if !srv.controlled then srv
  else
    match srv.state with
    | .on => srv.restartTimer (srv.remainingFadeTime + srv.cfg.on)
    | .standby =>
      let srv := { srv with flags := { srv.flags with on := true, manual := false } }.store C .state
      srv.transitionStart .on (fadeTime.getD srv.cfg.fadeOn)
    | .prolong => srv.transitionStart .on (fadeTime.getD srv.cfg.fadeOn)

def turnOffAuto : LightCtrl :=
  if !srv.controlled ∨ srv.state ≠ .prolong then srv
  else
    let srv := srv.transitionStart .standby srv.cfg.fadeStandbyAuto
    { srv with flags := { srv.flags with on := false } }.store C .state

/-- `turn_off`. A transition to Standby that is under way is only replaced by a faster one. -/
def turnOff (fadeTime : Option UInt32) : LightCtrl :=
  if !srv.controlled then srv
  else
    let srv := { srv with flags := { srv.flags with manual := true } }
    let fadeTime := fadeTime.getD srv.cfg.fadeStandbyManual
    if srv.state ≠ .standby then
      let srv := srv.transitionStart .standby fadeTime
      { srv with flags := { srv.flags with on := false } }.store C .state
    else if fadeTime < srv.remainingFadeTime then srv.transitionStart .standby fadeTime
    else srv

/-- `prolong`. -/
def enterProlong : LightCtrl :=
  if !srv.controlled ∨ srv.state ≠ .on then srv
  else srv.transitionStart .prolong srv.cfg.fadeProlong

def ctrlEnable : LightCtrl :=
  ({ srv with controlled := true }.transitionStart .standby 0).regStart C

/-- `ctrl_disable`. Only the occupancy mode is left of the flags. -/
def ctrlDisable : LightCtrl :=
  { srv with
    flags := { occMode := srv.flags.occMode }
    controlled := false
    state := .standby
    actionDelay := none
    timer := none
    regTimer := none }

/-- The value of `x`, taken as an unsigned number of `n` bits, as a signed one. -/
def asSigned (n : Nat) (x : Nat) : Int := (BitVec.ofNat n x).toInt

/-- The input of the regulator; none in the dead zone. Lux and accuracy are unsigned, so the error
is compared as an unsigned number. -/
def regInput (lux ambient : UInt32) (accuracy : UInt8) : Option Int :=
  let error := lux - ambient
  let accuracy := accuracy.toUInt32 * lux / 200
  if error > accuracy then some (asSigned 16 (error - accuracy).toNat)
  else if error < -accuracy then some (asSigned 16 (error + accuracy).toNat)
  else none

/-- The integral part for an input; the division by `MSEC_PER_SEC` is unsigned. -/
def regIntegral (input : Int) (k : UInt16) : Int :=
  asSigned 32 ((UInt32.ofInt (input * C.regInterval.toNat * k.toNat)) / 1000).toNat

def regOutput (input : Int) : UInt16 × UInt16 :=
  if 0 ≤ input then
    let regI := UInt16.ofInt (min 65535 (srv.regI.toNat + regIntegral C input srv.regCfg.kiu))
    (regI, .ofInt (min 65535 (regI.toNat + input * srv.regCfg.kpu.toNat)))
  else
    let regI := UInt16.ofInt (max 0 (srv.regI.toNat + regIntegral C input srv.regCfg.kid))
    (regI, .ofInt (max 0 (regI.toNat + input * srv.regCfg.kpd.toNat)))

def regLightSet (output : UInt16) : LightCtrl :=
  let lvl := srv.lightGet
  if output > lvl then
    { srv with flags := { srv.flags with regulator := true } }.lightSet
      (lightToRepr C.lightRepr .linear output) C.regInterval
  else if srv.flags.regulator then
    { srv with flags := { srv.flags with regulator := false } }.lightSet
      (lightToRepr C.lightRepr .linear lvl) C.regInterval
  else srv

/-- `reg_step`. The timer is not restarted in the dead zone. -/
def regStep : LightCtrl :=
  if !srv.controlled then srv
  else
    match regInput (.ofInt srv.luxGet.val1) (.ofInt srv.ambientLux.val1) srv.regCfg.accuracy with
    | none => srv
    | some input =>
      let output := (srv.regOutput C input).2
      { ({ srv with regI := (srv.regOutput C input).1 }.regLightSet C output) with
        regTimer := some C.regInterval }

theorem regLightSet_frame (output : UInt16) : ∃ lightness regulator, srv.regLightSet C output =
    { srv with lightness := lightness, flags := { srv.flags with regulator := regulator } } := by
  rw [regLightSet]
  split
  · exact ⟨_, _, rfl⟩
  · split <;> exact ⟨_, _, rfl⟩

theorem regStep_frame : ∃ regI lightness regTimer regulator, srv.regStep C =
    { srv with
      regI := regI, lightness := lightness, regTimer := regTimer
      flags := { srv.flags with regulator := regulator } } := by
  rw [regStep]
  split
  · exact ⟨_, _, _, _, rfl⟩
  · split
    · exact ⟨_, _, _, _, rfl⟩
    · next input _ =>
      obtain ⟨lightness, regulator, h⟩ := regLightSet_frame C
        { srv with regI := (srv.regOutput C input).1 } (srv.regOutput C input).2
      simp only [h]
      exact ⟨_, _, _, _, rfl⟩

def timeout : LightCtrl :=
  if srv.flags.transition then
    let srv := { srv with flags := { srv.flags with transition := false } }
    match srv.state with
    | .on => srv.restartTimer srv.cfg.on
    | .prolong => srv.restartTimer srv.cfg.prolong
    | .standby =>
      if srv.flags.manual then srv.restartTimer (C.timeManual - srv.cfg.fadeStandbyManual) else srv
  else
    match srv.state with
    | .on => srv.enterProlong
    | .prolong => srv.turnOffAuto C
    | .standby => { srv with flags := { srv.flags with manual := false } }

def delayedActionTimeout : LightCtrl :=
  let time := srv.fade.duration
  if srv.flags.onPending then
    { srv with flags := { srv.flags with onPending := false } }.turnOn C (some time)
  else if srv.flags.offPending then
    { srv with flags := { srv.flags with offPending := false } }.turnOff C (some time)
  else if srv.flags.occPending then
    let srv := { srv with flags := { srv.flags with occPending := false } }
    if srv.state = .on ∨ srv.flags.occMode then srv.turnOn C none else srv
  else srv

/-- `store_timeout`, when the storage takes the data. -/
def storeTimeout : LightCtrl :=
  let srv :=
    if srv.flags.storeCfg then
      { srv with
        flags := { srv.flags with storeCfg := false }
        storedCfg := some (srv.cfg, srv.regCfg) }
    else srv
  if srv.flags.storeState then
    { srv with
      flags := { srv.flags with storeState := false }
      storedState := some ⟨srv.flags.on, srv.flags.occMode, srv.controlled⟩ }
  else srv

def lightOnoffSet (onoff : Bool) (transition : Option CtrlTransition) : LightCtrl :=
  match transition with
  | some transition =>
    if transition.delay > 0 then srv.delayedSet transition onoff
    else if onoff then srv.turnOn C (some transition.time)
    else srv.turnOff C (some transition.time)
  | none => if onoff then srv.turnOn C none else srv.turnOff C none

/-- `onoff_set`, the handler of the Generic OnOff server. A transition without a time counts as
none. -/
def onoffSet (onOff : Bool) (transition : CtrlTransition) : LightCtrl :=
  let fadeTime := if transition.time = 0 then none else some transition.time
  if transition.delay ≠ 0 then srv.delayedSet transition onOff
  else if onOff then srv.turnOn C fadeTime
  else srv.turnOff C fadeTime

def omSet (mode : Bool) : LightCtrl :=
  { srv with flags := { srv.flags with occMode := mode } }.store C .state

def enable : LightCtrl :=
  let srv := { srv with flags := { srv.flags with manuallyEnabled := true } }
  if srv.controlled then srv
  else if srv.flags.started then (srv.ctrlEnable C).store C .state
  else srv

def disable : LightCtrl :=
  let srv := { srv with flags := { srv.flags with manuallyEnabled := false } }
  if !srv.controlled then srv else srv.ctrlDisable.store C .state

inductive SensorEntry
  | ambientLightLevel (value : SensorValue)
  | timeSinceMotionSensed (value : SensorValue)
  | occupancy (value : SensorValue)

/-- The turn of `handle_sensor_status` for an entry. -/
def handleSensorStatus : SensorEntry → LightCtrl
  | .ambientLightLevel value => { srv with ambientLux := value }
  | .timeSinceMotionSensed value =>
    if srv.state = .standby ∧ !srv.flags.occMode then srv else srv.delayedOccupancy value
  | .occupancy value =>
    if srv.state = .standby ∧ !srv.flags.occMode then srv
    else if value.val1 > 0 then srv.turnOn C none
    else srv

/-- `prop_set` with a decoded value. -/
def propSet (id : LightCtrlProp) (val : SensorValue) : LightCtrl :=
  match id with
  | .regKid => { srv with regCfg := { srv.regCfg with kid := .ofInt val.val1 } }
  | .regKiu => { srv with regCfg := { srv.regCfg with kiu := .ofInt val.val1 } }
  | .regKpd => { srv with regCfg := { srv.regCfg with kpd := .ofInt val.val1 } }
  | .regKpu => { srv with regCfg := { srv.regCfg with kpu := .ofInt val.val1 } }
  | .regAccuracy => { srv with regCfg := { srv.regCfg with accuracy := .ofInt val.val1 } }
  | .illuminance state =>
    { srv with regCfg := { srv.regCfg with lux := srv.regCfg.lux.set state val } }
  | .lightness state =>
    { srv with cfg := { srv.cfg with light := srv.cfg.light.set state (.ofInt val.val1) } }
  | .timeFadeProlong => { srv with cfg := { srv.cfg with fadeProlong := fromPropTime val } }
  | .timeFadeOn => { srv with cfg := { srv.cfg with fadeOn := fromPropTime val } }
  | .timeFadeStandbyAuto => { srv with cfg := { srv.cfg with fadeStandbyAuto := fromPropTime val } }
  | .timeFadeStandbyManual =>
    { srv with cfg := { srv.cfg with fadeStandbyManual := fromPropTime val } }
  | .timeOccupancyDelay => { srv with cfg := { srv.cfg with occupancyDelay := fromPropTime val } }
  | .timeProlong => { srv with cfg := { srv.cfg with prolong := fromPropTime val } }
  | .timeOn => { srv with cfg := { srv.cfg with on := fromPropTime val } }

/-- A message to the lightness server. `lightness_set` takes the control away. -/
def lightnessMsg (msg : LevelMsg) : LightCtrl :=
  let lightness := (srv.lightness.step (lightnessModel C.lightRepr) msg).1
  match msg with
  | .set .. => { srv with lightness := lightness, controlled := false }
  | _ => { srv with lightness := lightness }

/-- `light_ctrl_srv_init`: the server after a reset, with the persistent storage as it is. -/
def init : LightCtrl where
  state := .standby
  flags := { occMode := C.occupancyMode }
  fade := ⟨0, ⟨0, 0⟩, 0⟩
  ambientLux := ⟨0, 0⟩
  timer := none
  storeTimer := none
  actionDelay := none
  regTimer := none
  cfg := C.cfg
  regI := 0
  regCfg := C.regCfg
  lightness :=
    { (srv.lightness.stored.getD LevelSrv.reset.toLevelSettings) with
      stored := srv.lightness.stored }
  controlled := false
  storedCfg := srv.storedCfg
  storedState := srv.storedState

/-- `light_ctrl_srv_settings_set`: only the bits that are set are taken over. -/
def settingsSet : LightCtrl :=
  match srv.storedState with
  | none => srv
  | some data =>
    { srv with
      flags :=
        { srv.flags with
          on := srv.flags.on || data.on, occMode := srv.flags.occMode || data.occMode }
      controlled := srv.controlled || data.enabled }

/-- `lc_setup_srv_settings_set`. -/
def setupSettingsSet : LightCtrl :=
  match srv.storedCfg with
  | none => srv
  | some (cfg, regCfg) => { srv with cfg := cfg, regCfg := regCfg }

/-- `light_ctrl_srv_start`, when the lightness server is on another element. -/
def start (mode : OnPowerUp) (transitionTime : UInt32) : LightCtrl :=
  let srv := { srv with flags := { srv.flags with started := true } }
  match mode with
  | .off => (if srv.flags.manuallyEnabled then srv.ctrlEnable C else srv.ctrlDisable).store C .state
  | .on =>
    (if srv.flags.manuallyEnabled then srv.ctrlEnable C
    else
      (srv.lightSet (if srv.lightness.defaultLevel ≠ 0 then srv.lightness.defaultLevel
        else srv.lightness.last) transitionTime).ctrlDisable).store C .state
  | .restore =>
    if srv.controlled then
      let srv := srv.regStart C
      if srv.flags.on then srv.turnOn C none else srv
    else if srv.lightness.isOn then srv.lightSet srv.lightness.last transitionTime
    else srv

/-- What the settings handlers load after a reset. The application may have enabled or disabled the
server before. -/
def reload (calls : List Bool) : LightCtrl :=
  let srv := calls.foldl (fun srv call => if call then srv.enable C else srv.disable C) (srv.init C)
  srv.settingsSet.setupSettingsSet

theorem foldl_calls {srv : LightCtrl} (hcontrolled : srv.controlled = false)
    (hstarted : srv.flags.started = false) (calls : List Bool) :
    calls.foldl (fun srv call => if call then srv.enable C else srv.disable C) srv =
      { srv with flags :=
        { srv.flags with manuallyEnabled := calls.getLast?.getD srv.flags.manuallyEnabled } } := by
  induction calls generalizing srv with
  | nil => rfl
  | cons call calls ih =>
    have hcall : (if call then srv.enable C else srv.disable C) =
        { srv with flags := { srv.flags with manuallyEnabled := call } } := by
      cases call <;> simp [enable, disable, hcontrolled, hstarted]
    rw [List.foldl_cons, hcall]
    refine (ih ?_ ?_).trans ?_
    · exact hcontrolled
    · exact hstarted
    · rw [List.getLast?_cons]
      cases calls.getLast? <;> rfl

def storedFlags : LightCtrlStored := srv.storedState.getD ⟨false, false, false⟩

theorem reload_eq (calls : List Bool) : srv.reload C calls = { (srv.init C) with
    flags :=
      { on := srv.storedFlags.on, occMode := C.occupancyMode || srv.storedFlags.occMode
        manuallyEnabled := calls.getLast?.getD false }
    controlled := srv.storedFlags.enabled
    cfg := (srv.storedCfg.getD (C.cfg, C.regCfg)).1
    regCfg := (srv.storedCfg.getD (C.cfg, C.regCfg)).2 } := by
  rw [reload, foldl_calls C rfl rfl]
  cases hstate : srv.storedState <;> cases hcfg : srv.storedCfg <;>
    simp [settingsSet, setupSettingsSet, init, storedFlags, hstate, hcfg]

def powerUp (calls : List Bool) (mode : OnPowerUp) (transitionTime : UInt32) : LightCtrl :=
  (srv.reload C calls).start C mode transitionTime

def elapseTimer (ms : UInt32) (timer : Option UInt32) : Option UInt32 :=
  timer.map fun left => left - min left ms

def elapse (ms : UInt32) : LightCtrl :=
  { srv with
    timer := elapseTimer ms srv.timer
    storeTimer := elapseTimer ms srv.storeTimer
    actionDelay := elapseTimer ms srv.actionDelay
    regTimer := elapseTimer ms srv.regTimer }

inductive Event
  | elapse (ms : UInt32)
  | timer
  | actionDelay
  | storeTimer
  | regTimer
  | lightOnoffSet (onoff : Bool) (transition : Option CtrlTransition)
  | onoffSet (onOff : Bool) (transition : CtrlTransition)
  | on
  | off
  | enable
  | disable
  | omSet (mode : Bool)
  | sensorStatus (entry : SensorEntry)
  | propSet (id : LightCtrlProp) (val : SensorValue)
  | lightnessMsg (msg : LevelMsg)
  | powerUp (calls : List Bool) (mode : OnPowerUp) (transitionTime : UInt32)

/-- What an event does. The handler of a timer runs when it has expired. -/
def step : Event → LightCtrl
  | .elapse ms => srv.elapse ms
  | .timer => if srv.timer = some 0 then { srv with timer := none }.timeout C else srv
  | .actionDelay =>
    if srv.actionDelay = some 0 then { srv with actionDelay := none }.delayedActionTimeout C
    else srv
  | .storeTimer => if srv.storeTimer = some 0 then { srv with storeTimer := none }.storeTimeout
    else srv
  | .regTimer => if srv.regTimer = some 0 then { srv with regTimer := none }.regStep C else srv
  | .lightOnoffSet onoff transition => srv.lightOnoffSet C onoff transition
  | .onoffSet onOff transition => srv.onoffSet C onOff transition
  | .on => srv.turnOn C none
  | .off => srv.turnOff C none
  | .enable => srv.enable C
  | .disable => srv.disable C
  | .omSet mode => srv.omSet C mode
  | .sensorStatus entry => srv.handleSensorStatus C entry
  | .propSet id val => srv.propSet id val
  | .lightnessMsg msg => srv.lightnessMsg C msg
  | .powerUp calls mode transitionTime => srv.powerUp C calls mode transitionTime

def blank : LightCtrl :=
  { state := .standby, flags := {}, fade := ⟨0, ⟨0, 0⟩, 0⟩, ambientLux := ⟨0, 0⟩, timer := none,
    storeTimer := none, actionDelay := none, regTimer := none, cfg := C.cfg, regI := 0,
    regCfg := C.regCfg, lightness := .reset, controlled := false, storedCfg := none,
    storedState := none }

def enabledServer : LightCtrl := (blank .default).powerUp .default [true] .off 0

end LightCtrl

end SdkNrf.Mesh
