import SdkNrf.Mesh.LightCtrlFade

/-!
# Where a fade starts

A transition should start from the light and the illuminance that are reported when it is started.
-/

namespace SdkNrf.Mesh.LightCtrl

/-- A call of `transition_start`: the server right before it, and the arguments. -/
structure Start where
  srv : LightCtrl
  state : CtrlState
  fadeTime : UInt32
  deriving DecidableEq

namespace Start

variable (s : Start)

def after : LightCtrl := s.srv.transitionStart s.state s.fadeTime

/-- The new fade starts from what was reported right before the call. -/
structure Continuous : Prop where
  light : s.after.fade.initialLight = s.srv.lightGet
  lux : s.after.fade.initialLux = s.srv.luxGet

/-- The new state has the levels of the old one, and a transition that is under way is replaced by one
of the same duration. -/
structure Steady : Prop where
  light : s.srv.cfg.light.get s.state = s.srv.cfg.light.get s.srv.state
  lux : s.srv.regCfg.lux.get s.state = s.srv.regCfg.lux.get s.srv.state
  duration : s.srv.flags.transition = true → s.fadeTime = s.srv.fade.duration

instance : Decidable s.Continuous := decidable_of_iff (_ ∧ _) ⟨fun h => ⟨h.1, h.2⟩, fun h => ⟨h.1, h.2⟩⟩

instance : Decidable s.Steady :=
  decidable_of_iff (_ ∧ _ ∧ _) ⟨fun h => ⟨h.1, h.2.1, h.2.2⟩, fun h => ⟨h.1, h.2, h.3⟩⟩

end Start

section Calls

variable (C : LightCtrlConfig) (srv : LightCtrl)

/-- The call in `turn_on`. -/
def turnOnStart (fadeTime : Option UInt32) : Option Start :=
  if !srv.controlled then none
  else
    match srv.state with
    | .on => none
    | .standby =>
      let srv := { srv with flags := { srv.flags with on := true, manual := false } }.store C .state
      some ⟨srv, .on, fadeTime.getD srv.cfg.fadeOn⟩
    | .prolong => some ⟨srv, .on, fadeTime.getD srv.cfg.fadeOn⟩

/-- The call in `turn_off_auto`. -/
def turnOffAutoStart : Option Start :=
  if !srv.controlled ∨ srv.state ≠ .prolong then none
  else some ⟨srv, .standby, srv.cfg.fadeStandbyAuto⟩

/-- The calls in `turn_off`. -/
def turnOffStart (fadeTime : Option UInt32) : Option Start :=
  if !srv.controlled then none
  else
    let srv := { srv with flags := { srv.flags with manual := true } }
    let fadeTime := fadeTime.getD srv.cfg.fadeStandbyManual
    if srv.state ≠ .standby ∨ fadeTime < srv.remainingFadeTime then some ⟨srv, .standby, fadeTime⟩
    else none

/-- The call in `prolong`. -/
def prolongStart : Option Start :=
  if !srv.controlled ∨ srv.state ≠ .on then none else some ⟨srv, .prolong, srv.cfg.fadeProlong⟩

/-- The call in `ctrl_enable`. -/
def ctrlEnableStart : Start := ⟨{ srv with controlled := true }, .standby, 0⟩

/-- The calls in `timeout`. -/
def timeoutStart : Option Start :=
  if srv.flags.transition then none
  else
    match srv.state with
    | .on => srv.prolongStart
    | .prolong => srv.turnOffAutoStart
    | .standby => none

/-- The calls in `delayed_action_timeout`. -/
def delayedActionStart : Option Start :=
  let time := srv.fade.duration
  if srv.flags.onPending then
    { srv with flags := { srv.flags with onPending := false } }.turnOnStart C (some time)
  else if srv.flags.offPending then
    { srv with flags := { srv.flags with offPending := false } }.turnOffStart (some time)
  else if srv.flags.occPending then
    let srv := { srv with flags := { srv.flags with occPending := false } }
    if srv.state = .on ∨ srv.flags.occMode then srv.turnOnStart C none else none
  else none

def commandStart (onoff : Bool) (fadeTime : Option UInt32) : Option Start :=
  if onoff then srv.turnOnStart C fadeTime else srv.turnOffStart fadeTime

/-- The calls in `light_onoff_set`. -/
def lightOnoffStart (onoff : Bool) (transition : Option CtrlTransition) : Option Start :=
  match transition with
  | some transition =>
    if transition.delay > 0 then none else srv.commandStart C onoff (some transition.time)
  | none => srv.commandStart C onoff none

/-- The calls in `onoff_set`. -/
def onoffStart (onOff : Bool) (transition : CtrlTransition) : Option Start :=
  if transition.delay ≠ 0 then none
  else srv.commandStart C onOff (if transition.time = 0 then none else some transition.time)

/-- The call in `bt_mesh_light_ctrl_srv_enable`. -/
def enableStart : Option Start :=
  let srv := { srv with flags := { srv.flags with manuallyEnabled := true } }
  if srv.controlled then none else if srv.flags.started then some srv.ctrlEnableStart else none

/-- The call in `handle_sensor_status`. -/
def sensorStatusStart : SensorEntry → Option Start
  | .occupancy value =>
    if srv.state = .standby ∧ !srv.flags.occMode then none
    else if value.val1 > 0 then srv.turnOnStart C none
    else none
  | _ => none

/-- The calls in `light_ctrl_srv_start`. -/
def startStart (mode : OnPowerUp) : Option Start :=
  let srv := { srv with flags := { srv.flags with started := true } }
  match mode with
  | .restore =>
    if srv.controlled ∧ srv.flags.on then (srv.regStart C).turnOnStart C none else none
  | _ => if srv.flags.manuallyEnabled then some srv.ctrlEnableStart else none

def started : Event → Option Start
  | .timer => if srv.timer = some 0 then { srv with timer := none }.timeoutStart else none
  | .actionDelay =>
    if srv.actionDelay = some 0 then { srv with actionDelay := none }.delayedActionStart C else none
  | .lightOnoffSet onoff transition => srv.lightOnoffStart C onoff transition
  | .onoffSet onOff transition => srv.onoffStart C onOff transition
  | .on => srv.turnOnStart C none
  | .off => srv.turnOffStart none
  | .enable => srv.enableStart
  | .sensorStatus entry => srv.sensorStatusStart C entry
  | .powerUp calls mode _ => (srv.reload C calls).startStart C mode
  | _ => none

def loaded : Event → LightCtrl
  | .powerUp calls _ _ => srv.reload C calls
  | _ => srv

def starts : LightCtrl → List Event → List Start
  | _, [] => []
  | srv, e :: es => (srv.started C e).toList ++ starts (srv.step C e) es

end Calls

def origin (fade : Fade) : UInt16 × SensorValue := (fade.initialLight, fade.initialLux)

def originAfter (srv : LightCtrl) : Option Start → UInt16 × SensorValue
  | none => origin srv.fade
  | some s => origin s.after.fade

variable {C : LightCtrlConfig} {srv : LightCtrl}

theorem turnOn_origin (fadeTime : Option UInt32) :
    origin (srv.turnOn C fadeTime).fade = srv.originAfter (srv.turnOnStart C fadeTime) := by
  rw [turnOn, turnOnStart]
  split
  · rfl
  · cases hstate : srv.state <;> rfl

theorem turnOffAuto_origin :
    origin (srv.turnOffAuto C).fade = srv.originAfter srv.turnOffAutoStart := by
  rw [turnOffAuto, turnOffAutoStart]
  split <;> rfl

theorem turnOff_origin (fadeTime : Option UInt32) :
    origin (srv.turnOff C fadeTime).fade = srv.originAfter (srv.turnOffStart fadeTime) := by
  rw [turnOff, turnOffStart]
  split
  · rfl
  · dsimp only
    split
    · next hstate =>
      rw [if_pos (.inl hstate)]
      rfl
    · next hstate =>
      simp only [hstate, false_or]
      split <;> rfl

theorem enterProlong_origin : origin srv.enterProlong.fade = srv.originAfter srv.prolongStart := by
  rw [enterProlong, prolongStart]
  split <;> rfl

theorem ctrlEnable_origin :
    origin (srv.ctrlEnable C).fade = srv.originAfter (some srv.ctrlEnableStart) := rfl

theorem command_origin (onoff : Bool) (fadeTime : Option UInt32) :
    origin (if onoff then srv.turnOn C fadeTime else srv.turnOff C fadeTime).fade
      = srv.originAfter (srv.commandStart C onoff fadeTime) := by
  rw [commandStart]
  split
  · exact turnOn_origin fadeTime
  · exact turnOff_origin fadeTime

theorem delayedSet_origin (transition : CtrlTransition) (value : Bool) :
    origin (srv.delayedSet transition value).fade = origin srv.fade := by
  rcases srv.delayedSet_cases transition value with heq | heq <;> rw [heq]
  rfl

theorem timeout_origin : origin (srv.timeout C).fade = srv.originAfter srv.timeoutStart := by
  rw [timeout, timeoutStart]
  split
  · dsimp only
    split
    · rfl
    · rfl
    · split <;> rfl
  · cases hstate : srv.state with
    | on => exact enterProlong_origin
    | prolong => exact turnOffAuto_origin
    | standby => rfl

theorem delayedActionTimeout_origin :
    origin (srv.delayedActionTimeout C).fade = srv.originAfter (srv.delayedActionStart C) := by
  rw [delayedActionTimeout, delayedActionStart]
  dsimp only
  split
  · exact turnOn_origin _
  · split
    · exact turnOff_origin _
    · split
      · split
        · exact turnOn_origin _
        · rfl
      · rfl

theorem lightOnoffSet_origin (onoff : Bool) (transition : Option CtrlTransition) :
    origin (srv.lightOnoffSet C onoff transition).fade
      = srv.originAfter (srv.lightOnoffStart C onoff transition) := by
  cases transition with
  | none => exact command_origin onoff none
  | some transition =>
    rw [lightOnoffSet, lightOnoffStart]
    split
    · exact delayedSet_origin transition onoff
    · exact command_origin onoff (some transition.time)

theorem onoffSet_origin (onOff : Bool) (transition : CtrlTransition) :
    origin (srv.onoffSet C onOff transition).fade
      = srv.originAfter (srv.onoffStart C onOff transition) := by
  rw [onoffSet, onoffStart]
  split
  · exact delayedSet_origin transition onOff
  · exact command_origin onOff _

theorem enable_origin : origin (srv.enable C).fade = srv.originAfter srv.enableStart := by
  rw [enable, enableStart]
  dsimp only
  split
  · rfl
  · split <;> rfl

theorem handleSensorStatus_origin (entry : SensorEntry) :
    origin (srv.handleSensorStatus C entry).fade
      = srv.originAfter (srv.sensorStatusStart C entry) := by
  cases entry with
  | ambientLightLevel value => rfl
  | timeSinceMotionSensed value =>
    rw [handleSensorStatus]
    split
    · rfl
    · rcases srv.delayedOccupancy_cases value with heq | ⟨-, _, heq⟩ <;> rw [heq] <;> rfl
  | occupancy value =>
    rw [handleSensorStatus, sensorStatusStart]
    split
    · rfl
    · split
      · exact turnOn_origin none
      · rfl

theorem start_origin (mode : OnPowerUp) (transitionTime : UInt32) :
    origin (srv.start C mode transitionTime).fade = srv.originAfter (srv.startStart C mode) := by
  cases mode with
  | off =>
    simp only [start, startStart]
    split <;> rfl
  | on =>
    simp only [start, startStart]
    split <;> rfl
  | restore =>
    simp only [start, startStart]
    by_cases hcontrolled : srv.controlled = true
    · rw [if_pos hcontrolled]
      by_cases hon : srv.flags.on = true
      · have hboth : srv.controlled = true ∧ srv.flags.on = true := ⟨hcontrolled, hon⟩
        rw [if_pos hboth]
        exact (congrArg (fun s : LightCtrl => origin s.fade) (if_pos hon)).trans
          (turnOn_origin none)
      · have hboth : ¬(srv.controlled = true ∧ srv.flags.on = true) := fun h => hon h.2
        rw [if_neg hboth]
        exact (congrArg (fun s : LightCtrl => origin s.fade) (if_neg hon)).trans rfl
    · have hboth : ¬(srv.controlled = true ∧ srv.flags.on = true) := fun h => hcontrolled h.1
      rw [if_neg hcontrolled, if_neg hboth]
      split <;> rfl

/-- Every event starts the transition that `started` says, and no other one. -/
theorem step_origin (e : Event) :
    origin (srv.step C e).fade = (srv.loaded C e).originAfter (srv.started C e) := by
  cases e with
  | timer =>
    rw [step, started]
    split
    · exact timeout_origin
    · rfl
  | actionDelay =>
    rw [step, started]
    split
    · exact delayedActionTimeout_origin
    · rfl
  | storeTimer =>
    rw [step]
    split
    · rw [storeTimeout]
      dsimp only
      split <;> split <;> rfl
    · rfl
  | regTimer =>
    rw [step]
    split
    · obtain ⟨_, _, _, _, heq⟩ := regStep_frame C { srv with regTimer := none }
      rw [heq]
      rfl
    · rfl
  | lightOnoffSet onoff transition => exact lightOnoffSet_origin onoff transition
  | onoffSet onOff transition => exact onoffSet_origin onOff transition
  | on => exact turnOn_origin none
  | off => exact turnOff_origin none
  | enable => exact enable_origin
  | disable =>
    rw [step, disable]
    dsimp only
    split <;> rfl
  | sensorStatus entry => exact handleSensorStatus_origin entry
  | propSet id val => cases id <;> rfl
  | lightnessMsg msg => cases msg <;> rfl
  | powerUp calls mode time => exact start_origin mode time
  | elapse ms => rfl
  | omSet mode => rfl

namespace Start

variable {s : Start}

theorem after_light : s.after.fade.initialLight
    = ({ s.srv with state := s.state } : LightCtrl).lightGet := rfl

theorem after_lux : s.after.fade.initialLux = (readingLux s.srv s.state s.fadeTime).luxGet := rfl

theorem light_of_same (h : s.srv.cfg.light.get s.state = s.srv.cfg.light.get s.srv.state) :
    s.after.fade.initialLight = s.srv.lightGet := by
  rw [after_light]
  simp only [lightGet, currFadeTime, h]

theorem lux_of_same (h : s.srv.regCfg.lux.get s.state = s.srv.regCfg.lux.get s.srv.state)
    (hduration : s.srv.flags.transition = true → s.fadeTime = s.srv.fade.duration) :
    s.after.fade.initialLux = s.srv.luxGet := by
  rw [after_lux]
  simp only [readingLux, luxGet, currFadeTime, h]
  by_cases htransition : s.srv.flags.transition = true
  · simp [htransition, hduration htransition]
  · simp [htransition]

theorem Steady.continuous (h : s.Steady) : s.Continuous :=
  ⟨light_of_same h.light, lux_of_same h.lux h.duration⟩

theorem continuous_iff_of_stable (hcontrolled : s.srv.controlled = true)
    (hstable : s.srv.flags.transition = false) : s.Continuous ↔ s.Steady := by
  constructor
  · rintro ⟨hlight, hlux⟩
    rw [after_light] at hlight
    rw [after_lux] at hlux
    simp [lightGet, hcontrolled, hstable] at hlight
    simp [readingLux, luxGet, hcontrolled, hstable] at hlux
    exact ⟨hlight, hlux, by simp [hstable]⟩
  · exact Steady.continuous

end Start

section Controlled

variable {s : Start}

theorem controlled_turnOnStart {fadeTime : Option UInt32} (h : srv.turnOnStart C fadeTime = some s) :
    s.srv.controlled = true := by
  rw [turnOnStart] at h
  by_cases hcontrolled : srv.controlled = true
  · cases hstate : srv.state <;> simp [hcontrolled, hstate] at h <;> simp [← h, hcontrolled]
  · simp [hcontrolled] at h

theorem controlled_turnOffStart {fadeTime : Option UInt32} (h : srv.turnOffStart fadeTime = some s) :
    s.srv.controlled = true := by
  rw [turnOffStart] at h
  by_cases hcontrolled : srv.controlled = true
  · simp [hcontrolled] at h
    simp [← h.2]
  · simp [hcontrolled] at h

theorem controlled_turnOffAutoStart (h : srv.turnOffAutoStart = some s) :
    s.srv.controlled = true := by
  simp [turnOffAutoStart] at h
  simp [← h.2, h.1]

theorem controlled_prolongStart (h : srv.prolongStart = some s) : s.srv.controlled = true := by
  simp [prolongStart] at h
  simp [← h.2, h.1]

theorem controlled_timeoutStart (h : srv.timeoutStart = some s) : s.srv.controlled = true := by
  rw [timeoutStart] at h
  split at h
  · cases h
  · cases hstate : srv.state with
    | on => exact controlled_prolongStart (by simpa [hstate] using h)
    | prolong => exact controlled_turnOffAutoStart (by simpa [hstate] using h)
    | standby => simp [hstate] at h

theorem controlled_commandStart {onoff : Bool} {fadeTime : Option UInt32}
    (h : srv.commandStart C onoff fadeTime = some s) : s.srv.controlled = true := by
  cases onoff with
  | true => exact controlled_turnOnStart h
  | false => exact controlled_turnOffStart h

theorem controlled_delayedActionStart (h : srv.delayedActionStart C = some s) :
    s.srv.controlled = true := by
  rw [delayedActionStart] at h
  dsimp only at h
  split at h
  · exact controlled_turnOnStart h
  · split at h
    · exact controlled_turnOffStart h
    · split at h
      · split at h
        · exact controlled_turnOnStart h
        · cases h
      · cases h

theorem controlled_startStart {mode : OnPowerUp} (h : srv.startStart C mode = some s) :
    s.srv.controlled = true := by
  cases mode with
  | off =>
    simp [startStart] at h
    simp [← h.2, ctrlEnableStart]
  | on =>
    simp [startStart] at h
    simp [← h.2, ctrlEnableStart]
  | restore =>
    simp [startStart] at h
    exact controlled_turnOnStart h.2

theorem controlled_started {e : Event} (h : srv.started C e = some s) : s.srv.controlled = true := by
  cases e with
  | timer =>
    simp [started] at h
    exact controlled_timeoutStart h.2
  | actionDelay =>
    simp [started] at h
    exact controlled_delayedActionStart h.2
  | lightOnoffSet onoff transition =>
    cases transition with
    | none => exact controlled_commandStart h
    | some transition =>
      simp [started, lightOnoffStart] at h
      exact controlled_commandStart h.2
  | onoffSet onOff transition =>
    simp only [started, onoffStart] at h
    split at h
    · cases h
    · exact controlled_commandStart h
  | on => exact controlled_turnOnStart h
  | off => exact controlled_turnOffStart h
  | enable =>
    simp [started, enableStart] at h
    simp [← h.2.2, ctrlEnableStart]
  | sensorStatus entry =>
    cases entry with
    | occupancy value =>
      simp [started, sensorStatusStart] at h
      exact controlled_turnOnStart h.2.2
    | timeSinceMotionSensed value => cases h
    | ambientLightLevel value => cases h
  | powerUp calls mode time => exact controlled_startStart h
  | _ => cases h

end Controlled

theorem controlled_of_mem_starts {s : Start} :
    ∀ {srv : LightCtrl} {events : List Event}, s ∈ starts C srv events → s.srv.controlled = true
  | _, [], h => by simp [starts] at h
  | srv, e :: es, h => by
    rw [starts, List.mem_append, Option.mem_toList] at h
    rcases h with hnow | hlater
    · exact controlled_started hnow
    · exact controlled_of_mem_starts hlater

/-- In every run, a transition to a state of the same levels that keeps the duration of the one it
replaces starts from what was reported; outside of a transition no other one does. -/
theorem fade_continuity (events : List Event) (s : Start) (h : s ∈ starts C (blank C) events) :
    (s.Steady → s.Continuous) ∧
      (s.srv.flags.transition = false → (s.Continuous ↔ s.Steady)) :=
  ⟨Start.Steady.continuous, Start.continuous_iff_of_stable (controlled_of_mem_starts h)⟩

def levelConfig : LightCtrlConfig :=
  { LightCtrlConfig.default with
    cfg := { LightCtrlConfig.default.cfg with light := ⟨0, 40000, 40000⟩ }
    regCfg := { LightCtrlConfig.default.regCfg with lux := ⟨⟨0, 0⟩, ⟨500, 0⟩, ⟨500, 0⟩⟩ } }

def prolonged : List Event :=
  [.powerUp [true] .off 0, .timer, .on, .elapse 500, .timer, .elapse 60000, .timer]

def prolongedStart : Start :=
  ((starts levelConfig (blank levelConfig) prolonged).getLast?).getD ⟨blank levelConfig, .on, 0⟩

theorem prolongedStart_continuous :
    prolongedStart.state = .prolong ∧ prolongedStart.Continuous :=
  have hmem : prolongedStart ∈ starts levelConfig (blank levelConfig) prolonged := by decide
  ⟨by decide, (fade_continuity prolonged prolongedStart hmem).1 (by decide)⟩

/-- With the default levels, a fade to On starts at the light of On, not at that of Standby. -/
theorem not_continuous_on :
    ∃ s ∈ starts .default (blank .default) [.powerUp [true] .off 0, .timer, .on],
      s.after.fade.initialLight = 65535 ∧ s.srv.lightGet = 0 ∧ ¬ s.Continuous := by
  decide

end SdkNrf.Mesh.LightCtrl
