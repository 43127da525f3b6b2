import SdkNrf.Mesh.LightCtrl

/-!
# The control state and the control of the light

The server is on exactly when it controls the lightness server and is in the state On or Prolong; without the
control it is in Standby and nothing is under way.
-/

namespace SdkNrf.Mesh.LightCtrl

structure Idle (srv : LightCtrl) : Prop where
  state : srv.state = .standby
  transition : srv.flags.transition = false
  onPending : srv.flags.onPending = false
  offPending : srv.flags.offPending = false
  occPending : srv.flags.occPending = false
  timer : srv.timer = none
  actionDelay : srv.actionDelay = none

structure Consistent (srv : LightCtrl) : Prop where
  on_iff : srv.flags.on = true ↔ srv.controlled = true ∧ srv.state ≠ .standby
  idle : srv.controlled = false → srv.Idle

def StoredOn (srv : LightCtrl) : Prop := ∃ data, srv.storedState = some data ∧ data.on = true

instance (srv : LightCtrl) : Decidable srv.StoredOn :=
  match h : srv.storedState with
  | none => isFalse (by rintro ⟨_, hdata, _⟩; simp [h] at hdata)
  | some data => decidable_of_iff (data.on = true) (by simp [StoredOn, h])

/-- The server is consistent, and a power-up that restores a stored On leads to the state On. -/
structure KeepsControl (C : LightCtrlConfig) (srv : LightCtrl) : Prop where
  consistent : srv.Consistent
  restored : srv.StoredOn → ∀ calls time, (srv.powerUp C calls .restore time).state = .on

/-- Delayed changes need the control, a lightness message takes it only when nothing is under way,
and no stored On is loaded by a power-up that then enables the server. -/
def ControlGuard (srv : LightCtrl) : Event → Prop
  | .lightOnoffSet _ (some transition) => transition.delay > 0 → srv.controlled = true
  | .onoffSet _ transition => transition.delay ≠ 0 → srv.controlled = true
  | .sensorStatus (.timeSinceMotionSensed value) =>
    srv.flags.occMode = true → .ofInt (value.val1 * 1000) ≤ srv.cfg.occupancyDelay →
      srv.controlled = true
  | .lightnessMsg (.set ..) => srv.controlled = true → srv.Idle
  | .powerUp calls mode _ => mode ≠ .restore → calls.getLast? = some true → ¬ srv.StoredOn
  | _ => True

structure ControlInv (srv : LightCtrl) : Prop extends Consistent srv where
  stored : ∀ data, srv.storedState = some data → data.on = true → data.enabled = true

namespace ControlInv

variable {C : LightCtrlConfig} {srv : LightCtrl}

theorem of_controlled (hcontrolled : srv.controlled = true)
    (hon : srv.flags.on = true ↔ srv.state ≠ .standby)
    (hstored : ∀ data, srv.storedState = some data → data.on = true → data.enabled = true) :
    ControlInv srv where
  on_iff := by simpa [hcontrolled] using hon
  idle := by simp [hcontrolled]
  stored := hstored

theorem on_iff_state (h : ControlInv srv) (hcontrolled : srv.controlled = true) :
    srv.flags.on = true ↔ srv.state ≠ .standby := by
  simpa [hcontrolled] using h.on_iff

theorem turnOn (h : ControlInv srv) (fadeTime : Option UInt32) :
    ControlInv (srv.turnOn C fadeTime) := by
  rw [LightCtrl.turnOn]
  split
  · exact h
  · next hcontrolled =>
    simp only [Bool.not_eq_true, Bool.not_eq_false'] at hcontrolled
    have hon := h.on_iff_state hcontrolled
    split
    · exact of_controlled hcontrolled hon h.stored
    · exact of_controlled hcontrolled (by simp) h.stored
    · next hstate =>
      refine of_controlled hcontrolled ?_ h.stored
      simpa [hstate] using hon

theorem goStandby (h : ControlInv srv) (hcontrolled : srv.controlled = true) (fadeTime : UInt32) :
    ControlInv (store C { (srv.transitionStart .standby fadeTime) with
      flags := { (srv.transitionStart .standby fadeTime).flags with on := false } } .state) :=
  of_controlled hcontrolled (by simp) h.stored

theorem turnOffAuto (h : ControlInv srv) : ControlInv (srv.turnOffAuto C) := by
  rw [LightCtrl.turnOffAuto]
  split
  · exact h
  · next hprolong =>
    simp only [Bool.not_eq_true', not_or, Bool.not_eq_false] at hprolong
    exact h.goStandby hprolong.1 _

theorem manual (h : ControlInv srv) (manual : Bool) :
    ControlInv { srv with flags := { srv.flags with manual := manual } } where
  on_iff := h.on_iff
  idle hcontrolled := { h.idle hcontrolled with }
  stored := h.stored

theorem turnOff (h : ControlInv srv) (fadeTime : Option UInt32) :
    ControlInv (srv.turnOff C fadeTime) := by
  rw [LightCtrl.turnOff]
  split
  · exact h
  · next hcontrolled =>
    simp only [Bool.not_eq_true, Bool.not_eq_false'] at hcontrolled
    have hmanual := h.manual true
    have hon := hmanual.on_iff_state hcontrolled
    simp only
    split
    · exact hmanual.goStandby hcontrolled _
    · next hstate =>
      split
      · refine of_controlled hcontrolled ?_ h.stored
        simpa [not_not.mp hstate] using hon
      · exact hmanual

theorem enterProlong (h : ControlInv srv) : ControlInv srv.enterProlong := by
  rw [LightCtrl.enterProlong]
  split
  · exact h
  · next hstate =>
    simp only [Bool.not_eq_true', not_or, Bool.not_eq_false, not_not] at hstate
    have hon := h.on_iff_state hstate.1
    refine of_controlled hstate.1 ?_ h.stored
    simpa [hstate.2] using hon

theorem store (h : ControlInv srv) : ControlInv (srv.store C .state) where
  on_iff := h.on_iff
  idle hcontrolled := { h.idle hcontrolled with }
  stored := h.stored

theorem ctrlEnable (h : srv.flags.on = false)
    (hstored : ∀ data, srv.storedState = some data → data.on = true → data.enabled = true) :
    ControlInv (srv.ctrlEnable C) := by
  refine of_controlled rfl ?_ hstored
  simp [LightCtrl.ctrlEnable, regStart, h]

theorem ctrlDisable
    (hstored : ∀ data, srv.storedState = some data → data.on = true → data.enabled = true) :
    ControlInv srv.ctrlDisable where
  on_iff := by simp [LightCtrl.ctrlDisable]
  idle _ := ⟨rfl, rfl, rfl, rfl, rfl, rfl, rfl⟩
  stored := hstored

/-- A change that leaves the flag, the control and the storage alone, and does not start anything
without the control. -/
theorem frame {srv' : LightCtrl} (h : ControlInv srv) (hon : srv'.flags.on = srv.flags.on)
    (hcontrolled : srv'.controlled = srv.controlled) (hstate : srv'.state = srv.state)
    (hstored : srv'.storedState = srv.storedState)
    (hidle : srv.controlled = false → srv.Idle → srv'.Idle) : ControlInv srv' where
  on_iff := by rw [hon, hcontrolled, hstate, h.on_iff]
  idle hc := by
    rw [hcontrolled] at hc
    exact hidle hc (h.idle hc)
  stored := by rw [hstored]; exact h.stored

theorem timeout (h : ControlInv srv) (htimer : srv.timer = some 0) :
    ControlInv ({ srv with timer := none }.timeout C) := by
  have hcontrolled : srv.controlled = true := by
    by_contra hc
    have hnone := (h.idle (Bool.eq_false_iff.mpr hc)).timer
    rw [htimer] at hnone
    cases hnone
  have hbase : ControlInv { srv with timer := none } :=
    of_controlled hcontrolled (h.on_iff_state hcontrolled) h.stored
  rw [LightCtrl.timeout]
  split
  · have hended : ∀ timer, ControlInv
        { srv with flags := { srv.flags with transition := false }, timer := timer } :=
      fun _ => of_controlled hcontrolled (h.on_iff_state hcontrolled) h.stored
    simp only
    split
    · exact hended _
    · exact hended _
    · split <;> exact hended _
  · split
    · exact hbase.enterProlong
    · exact hbase.turnOffAuto
    · exact hbase.manual false

theorem delayedActionTimeout (h : ControlInv srv) (htimer : srv.actionDelay = some 0) :
    ControlInv ({ srv with actionDelay := none }.delayedActionTimeout C) := by
  have hcontrolled : srv.controlled = true := by
    by_contra hc
    have hnone := (h.idle (Bool.eq_false_iff.mpr hc)).actionDelay
    rw [htimer] at hnone
    cases hnone
  have hbase : ∀ onPending offPending occPending, ControlInv { srv with
      actionDelay := none
      flags := { srv.flags with
        onPending := onPending, offPending := offPending, occPending := occPending } } :=
    fun _ _ _ => of_controlled hcontrolled (h.on_iff_state hcontrolled) h.stored
  rw [LightCtrl.delayedActionTimeout]
  split
  · exact (hbase false _ _).turnOn _
  · split
    · exact (hbase _ false _).turnOff _
    · split
      · simp only
        split
        · exact (hbase _ _ false).turnOn _
        · exact hbase _ _ false
      · exact hbase _ _ _

theorem storeTimeout (h : ControlInv srv) :
    ControlInv { srv with storeTimer := none }.storeTimeout := by
  have hcfg : ∀ storedCfg storeCfg, ControlInv { srv with
      storeTimer := none, storedCfg := storedCfg
      flags := { srv.flags with storeCfg := storeCfg } } :=
    fun _ _ => h.frame rfl rfl rfl rfl fun _ hidle => { hidle with }
  have hstate : ∀ storedCfg storeCfg, ControlInv { srv with
      storeTimer := none, storedCfg := storedCfg
      storedState := some ⟨srv.flags.on, srv.flags.occMode, srv.controlled⟩
      flags := { srv.flags with storeCfg := storeCfg, storeState := false } } := by
    intro storedCfg storeCfg
    refine ⟨⟨h.on_iff, fun hc => { h.idle hc with }⟩, ?_⟩
    intro data hdata hon
    cases hdata
    exact (h.on_iff.mp hon).1
  rw [LightCtrl.storeTimeout]
  simp only
  split
  · split
    · exact hstate _ false
    · exact hcfg _ false
  · split
    · exact hstate _ _
    · exact hcfg _ _

theorem frame_of_controlled {srv' : LightCtrl} (h : ControlInv srv)
    (hcontrolled : srv.controlled = true) (hon : srv'.flags.on = srv.flags.on)
    (hcontrolled' : srv'.controlled = srv.controlled) (hstate : srv'.state = srv.state)
    (hstored : srv'.storedState = srv.storedState) : ControlInv srv' :=
  h.frame hon hcontrolled' hstate hstored fun hc => by simp [hcontrolled] at hc

theorem delayedSet (h : ControlInv srv) (hcontrolled : srv.controlled = true)
    (transition : CtrlTransition) (value : Bool) :
    ControlInv (srv.delayedSet transition value) := by
  rcases srv.delayedSet_cases transition value with heq | heq <;> rw [heq]
  · exact h
  · exact h.frame_of_controlled hcontrolled rfl rfl rfl rfl

theorem delayedOccupancy (h : ControlInv srv) (value : SensorValue)
    (hcontrolled : .ofInt (value.val1 * 1000) ≤ srv.cfg.occupancyDelay → srv.controlled = true) :
    ControlInv (srv.delayedOccupancy value) := by
  rcases srv.delayedOccupancy_cases value with heq | ⟨hdelay, _, heq⟩ <;> rw [heq]
  · exact h
  · exact h.frame_of_controlled (hcontrolled hdelay) rfl rfl rfl rfl

theorem regStep (h : ControlInv srv) : ControlInv ({ srv with regTimer := none }.regStep C) := by
  obtain ⟨_, _, _, _, heq⟩ := regStep_frame C { srv with regTimer := none }
  rw [heq]
  exact h.frame rfl rfl rfl rfl fun _ hidle => { hidle with }

theorem enable (h : ControlInv srv) : ControlInv (srv.enable C) := by
  have hflag : ControlInv { srv with flags := { srv.flags with manuallyEnabled := true } } :=
    h.frame rfl rfl rfl rfl fun _ hidle => { hidle with }
  simp only [LightCtrl.enable]
  split
  · exact hflag
  · next hcontrolled =>
    split
    · refine (ctrlEnable ?_ ?_).store
      · rw [Bool.eq_false_iff]
        intro hon
        exact hcontrolled (h.on_iff.mp hon).1
      · exact h.stored
    · exact hflag

theorem disable (h : ControlInv srv) : ControlInv (srv.disable C) := by
  simp only [LightCtrl.disable]
  split
  · exact h.frame rfl rfl rfl rfl fun _ hidle => { hidle with }
  · exact (ctrlDisable h.stored).store

theorem propSet (h : ControlInv srv) (id : LightCtrlProp) (val : SensorValue) :
    ControlInv (srv.propSet id val) := by
  cases id <;> exact h.frame rfl rfl rfl rfl fun _ hidle => { hidle with }

theorem lightnessMsg (h : ControlInv srv) {msg : LevelMsg}
    (hguard : ControlGuard srv (.lightnessMsg msg)) : ControlInv (srv.lightnessMsg C msg) := by
  cases msg with
  | set repr val transition =>
    have hidle : srv.Idle := by
      cases hcontrolled : srv.controlled with
      | false => exact h.idle hcontrolled
      | true => exact hguard hcontrolled
    have hoff : srv.flags.on ≠ true := by
      intro hon
      exact (h.on_iff.mp hon).2 hidle.state
    refine ⟨⟨?_, fun _ => { hidle with }⟩, h.stored⟩
    simp [LightCtrl.lightnessMsg, hoff]
  | _ => exact h.frame rfl rfl rfl rfl fun _ hidle => { hidle with }

theorem elapse (h : ControlInv srv) (ms : UInt32) : ControlInv (srv.elapse ms) := by
  refine h.frame rfl rfl rfl rfl fun _ hidle => { hidle with timer := ?_, actionDelay := ?_ }
  · simp [LightCtrl.elapse, elapseTimer, hidle.timer]
  · simp [LightCtrl.elapse, elapseTimer, hidle.actionDelay]

theorem storedOn_iff : srv.StoredOn ↔ srv.storedFlags.on = true := by
  cases h : srv.storedState <;> simp [StoredOn, storedFlags, h]

theorem storedFlags_enabled (h : ControlInv srv) (hon : srv.storedFlags.on = true) :
    srv.storedFlags.enabled = true := by
  cases hstored : srv.storedState with
  | none => simp [storedFlags, hstored] at hon
  | some data =>
    simp only [storedFlags, hstored, Option.getD_some] at hon ⊢
    exact h.stored data hstored hon

theorem powerUp_of_ne_restore (h : ControlInv srv) {calls : List Bool} {mode : OnPowerUp}
    (hmode : mode ≠ .restore) (hguard : calls.getLast? = some true → ¬ srv.StoredOn)
    (time : UInt32) : ControlInv (srv.powerUp C calls mode time) := by
  have henable : calls.getLast?.getD false = true → srv.storedFlags.on = false := by
    intro hlast
    have hnot : ¬ srv.StoredOn := by
      apply hguard
      cases hcalls : calls.getLast? <;> simp_all
    rw [storedOn_iff] at hnot
    exact Bool.eq_false_iff.mpr hnot
  rw [LightCtrl.powerUp, reload_eq]
  cases mode with
  | off =>
    apply store
    split
    · next hlast => exact ctrlEnable (henable hlast) h.stored
    · exact ctrlDisable h.stored
  | on =>
    apply store
    split
    · next hlast => exact ctrlEnable (henable hlast) h.stored
    · exact ctrlDisable h.stored
  | restore => exact absurd rfl hmode

theorem powerUp_restore (h : ControlInv srv) (calls : List Bool) (time : UInt32) :
    ControlInv (srv.powerUp C calls .restore time)
      ∧ (srv.StoredOn → (srv.powerUp C calls .restore time).state = .on) := by
  rw [LightCtrl.powerUp, reload_eq, storedOn_iff]
  cases hcontrolled : srv.storedFlags.enabled with
  | true =>
    cases hon : srv.storedFlags.on with
    | true =>
      simp only [start, regStart, LightCtrl.turnOn, init, if_true, Bool.not_true,
        Bool.false_eq_true, if_false]
      exact ⟨of_controlled rfl (by simp) h.stored, fun _ => rfl⟩
    | false =>
      simp only [start, regStart, init, if_true, Bool.false_eq_true, if_false]
      exact ⟨of_controlled rfl (by simp) h.stored, fun hon => by cases hon⟩
  | false =>
    have hoff : srv.storedFlags.on = false := by
      rw [Bool.eq_false_iff]
      intro hon
      rw [h.storedFlags_enabled hon] at hcontrolled
      cases hcontrolled
    simp only [start, hoff, Bool.false_eq_true, if_false, false_implies, and_true]
    split <;> exact ⟨⟨by simp [lightSet], fun _ => ⟨rfl, rfl, rfl, rfl, rfl, rfl, rfl⟩⟩, h.stored⟩

theorem command (h : ControlInv srv) (onoff : Bool) (fadeTime : Option UInt32) :
    ControlInv (if onoff then srv.turnOn C fadeTime else srv.turnOff C fadeTime) := by
  split
  · exact h.turnOn fadeTime
  · exact h.turnOff fadeTime

theorem lightOnoffSet (h : ControlInv srv) {onoff : Bool} {transition : Option CtrlTransition}
    (hguard : ControlGuard srv (.lightOnoffSet onoff transition)) :
    ControlInv (srv.lightOnoffSet C onoff transition) := by
  cases transition with
  | none => exact h.command onoff none
  | some transition =>
    simp only [LightCtrl.lightOnoffSet]
    split
    · next hdelay => exact h.delayedSet (hguard hdelay) transition onoff
    · exact h.command onoff (some transition.time)

theorem onoffSet (h : ControlInv srv) {onOff : Bool} {transition : CtrlTransition}
    (hguard : ControlGuard srv (.onoffSet onOff transition)) :
    ControlInv (srv.onoffSet C onOff transition) := by
  simp only [LightCtrl.onoffSet]
  split
  · next hdelay => exact h.delayedSet (hguard hdelay) transition onOff
  · exact h.command onOff _

theorem handleSensorStatus (h : ControlInv srv) {entry : SensorEntry}
    (hguard : ControlGuard srv (.sensorStatus entry)) :
    ControlInv (srv.handleSensorStatus C entry) := by
  cases entry with
  | ambientLightLevel value => exact h.frame rfl rfl rfl rfl fun _ hidle => { hidle with }
  | timeSinceMotionSensed value =>
    simp only [LightCtrl.handleSensorStatus]
    split
    · exact h
    · next hmode =>
      apply h.delayedOccupancy
      intro hdelay
      cases hcontrolled : srv.controlled with
      | true => rfl
      | false =>
        have hstandby := (h.idle hcontrolled).state
        have hocc : srv.flags.occMode = true := by simpa [hstandby] using hmode
        rw [← hcontrolled]
        exact hguard hocc hdelay
  | occupancy value =>
    simp only [LightCtrl.handleSensorStatus]
    split
    · exact h
    · split
      · exact h.turnOn none
      · exact h

theorem step (h : ControlInv srv) {e : Event} (hguard : ControlGuard srv e) :
    ControlInv (srv.step C e) := by
  cases e with
  | elapse ms => exact h.elapse ms
  | timer =>
    rw [LightCtrl.step]
    split
    · next htimer => exact h.timeout htimer
    · exact h
  | actionDelay =>
    rw [LightCtrl.step]
    split
    · next htimer => exact h.delayedActionTimeout htimer
    · exact h
  | storeTimer =>
    rw [LightCtrl.step]
    split
    · exact h.storeTimeout
    · exact h
  | regTimer =>
    rw [LightCtrl.step]
    split
    · exact h.regStep
    · exact h
  | lightOnoffSet onoff transition => exact h.lightOnoffSet hguard
  | onoffSet onOff transition => exact h.onoffSet hguard
  | on => exact h.turnOn none
  | off => exact h.turnOff none
  | enable => exact h.enable
  | disable => exact h.disable
  | omSet mode => exact h.frame rfl rfl rfl rfl fun _ hidle => { hidle with }
  | sensorStatus entry => exact h.handleSensorStatus hguard
  | propSet id val => exact h.propSet id val
  | lightnessMsg msg => exact h.lightnessMsg hguard
  | powerUp calls mode time =>
    by_cases hmode : mode = .restore
    · subst hmode
      exact (h.powerUp_restore calls time).1
    · exact h.powerUp_of_ne_restore hmode (hguard hmode) time

theorem keepsControl (h : ControlInv srv) : KeepsControl C srv where
  consistent := h.toConsistent
  restored hon calls time := (h.powerUp_restore calls time).2 hon

theorem blank : ControlInv (blank C) where
  on_iff := by simp [LightCtrl.blank]
  idle _ := ⟨rfl, rfl, rfl, rfl, rfl, rfl, rfl⟩
  stored data hdata := by cases hdata

end ControlInv

/-- From the first power-up on, a run whose events meet the guard only reaches states in which the
flag, the state and the control agree. -/
theorem keepsControl_of_reached {C : LightCtrlConfig} {srv : LightCtrl} {calls : List Bool}
    {mode : OnPowerUp} {time : UInt32}
    (hreached : Reached (step C) ControlGuard ((blank C).powerUp C calls mode time) srv) :
    KeepsControl C srv := by
  have hguard : ControlGuard (blank C) (.powerUp calls mode time) := by
    intro _ _ ⟨data, hdata, _⟩
    cases hdata
  have hinit : ControlInv ((blank C).powerUp C calls mode time) := ControlInv.blank.step hguard
  apply ControlInv.keepsControl
  exact hreached.invariant hinit fun _ _ h hguard => h.step hguard

theorem keepsControl_onDelayedOff : KeepsControl .default
    ([.on, .elapse 500, .timer, .onoffSet false ⟨1000, 10⟩, .elapse 10, .actionDelay].foldl
      (step .default) enabledServer) := by
  apply keepsControl_of_reached
  exact Reached.run .start ⟨trivial, trivial, trivial, fun _ => rfl, trivial, trivial, trivial⟩

def takenOver : LightCtrl :=
  [.on, .lightnessMsg (.set .actual 1000 ⟨0, 0⟩)].foldl (step .default) enabledServer

theorem not_keepsControl_takenOver :
    Reached (step .default) (fun _ _ => True) enabledServer takenOver
      ∧ ¬ KeepsControl .default takenOver := by
  refine ⟨Reached.run .start ⟨trivial, trivial, trivial⟩, ?_⟩
  intro h
  have hcontrolled := (h.consistent.on_iff.mp (by decide)).1
  exact absurd hcontrolled (by decide)

end SdkNrf.Mesh.LightCtrl
