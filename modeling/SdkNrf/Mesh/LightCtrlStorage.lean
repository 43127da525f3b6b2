import SdkNrf.Mesh.LightCtrl

/-!
# What the Light Lightness Control server stores

The flags reach the storage when the store timer expires, and the settings handlers load them after a reset.
-/

namespace SdkNrf.Mesh.LightCtrl

/-- Once the store timer has expired, what is loaded after a reset is what the server holds. -/
def Survives (C : LightCtrlConfig) (srv : LightCtrl) : Prop :=
  srv.storeTimer = none → ∀ calls,
    (srv.reload C calls).cfg = srv.cfg ∧ (srv.reload C calls).regCfg = srv.regCfg
      ∧ (srv.reload C calls).flags.occMode = srv.flags.occMode
      ∧ (srv.reload C calls).controlled = srv.controlled
      ∧ (srv.reload C calls).flags.on = srv.flags.on

/-- No property changes, an occupancy mode that is on by default stays on, and a lightness message
takes the control only while the state waits to be stored. -/
def StorageGuard (C : LightCtrlConfig) (srv : LightCtrl) : Event → Prop
  | .propSet id val =>
    (srv.propSet id val).cfg = srv.cfg ∧ (srv.propSet id val).regCfg = srv.regCfg
  | .omSet mode => C.occupancyMode = true → mode = true
  | .lightnessMsg (.set ..) => srv.controlled = true → srv.flags.storeState = true
  | _ => True

structure StorageBase (C : LightCtrlConfig) (srv : LightCtrl) : Prop where
  cfg : srv.cfg = C.cfg
  regCfg : srv.regCfg = C.regCfg
  storedCfg : srv.storedCfg = none
  storeCfg : srv.flags.storeCfg = false
  waiting : srv.flags.storeState = true → srv.storeTimer.isSome = true
  occMode : C.occupancyMode = true → srv.flags.occMode = true

structure StorageInv (C : LightCtrlConfig) (srv : LightCtrl) : Prop extends StorageBase C srv where
  saved : srv.flags.storeState = false →
    srv.storedFlags.on = srv.flags.on
      ∧ (C.occupancyMode || srv.storedFlags.occMode) = srv.flags.occMode
      ∧ srv.storedFlags.enabled = srv.controlled

def storage (srv : LightCtrl) :
    (Bool × Bool × Bool × Bool × Bool) × Option UInt32 × (LightCtrlCfg × LightCtrlRegCfg)
      × Option (LightCtrlCfg × LightCtrlRegCfg) × Option LightCtrlStored :=
  ((srv.flags.on, srv.flags.occMode, srv.flags.storeCfg, srv.flags.storeState, srv.controlled),
    srv.storeTimer, (srv.cfg, srv.regCfg), srv.storedCfg, srv.storedState)

variable {C : LightCtrlConfig} {srv srv' : LightCtrl}

theorem StorageBase.store (h : StorageBase C srv) : StorageInv C (srv.store C .state) where
  cfg := h.cfg
  regCfg := h.regCfg
  storedCfg := h.storedCfg
  storeCfg := h.storeCfg
  waiting _ := by
    simp only [LightCtrl.store, h.storeCfg, Bool.false_or]
    split
    · next hwaiting => exact h.waiting hwaiting
    · rfl
  occMode := h.occMode
  saved hsaved := by cases hsaved

theorem StorageBase.change (h : StorageBase C srv)
    (hchange : srv'.storage = ((srv'.flags.on, srv.flags.occMode, srv.flags.storeCfg,
      srv.flags.storeState, srv'.controlled), srv.storage.2)) : StorageBase C srv' := by
  simp only [storage, Prod.mk.injEq, true_and] at hchange
  obtain ⟨⟨hocc, hstoreCfg, hstoreState, -⟩, htimer, ⟨hcfg, hreg⟩, hstoredCfg, -⟩ := hchange
  constructor
  · rw [hcfg, h.cfg]
  · rw [hreg, h.regCfg]
  · rw [hstoredCfg, h.storedCfg]
  · rw [hstoreCfg, h.storeCfg]
  · rw [hstoreState, htimer]
    exact h.waiting
  · rw [hocc]
    exact h.occMode

theorem StorageBase.ctrlDisable (h : StorageBase C srv) : StorageBase C srv.ctrlDisable where
  cfg := h.cfg
  regCfg := h.regCfg
  storedCfg := h.storedCfg
  storeCfg := rfl
  waiting hwaiting := by cases hwaiting
  occMode := h.occMode

namespace StorageInv

theorem frame (h : StorageInv C srv) (hstorage : srv'.storage = srv.storage) :
    StorageInv C srv' := by
  have hbase : StorageBase C srv' := by
    apply h.toStorageBase.change
    simp only [storage, Prod.mk.injEq] at hstorage ⊢
    simp [hstorage]
  refine ⟨hbase, ?_⟩
  simp only [storage, Prod.mk.injEq] at hstorage
  obtain ⟨⟨hon, hocc, -, hstoreState, hcontrolled⟩, -, -, -, hstored⟩ := hstorage
  rw [hstoreState, hon, hocc, hcontrolled, storedFlags, hstored]
  exact h.saved

theorem turnOn (h : StorageInv C srv) (fadeTime : Option UInt32) :
    StorageInv C (srv.turnOn C fadeTime) := by
  rw [LightCtrl.turnOn]
  split
  · exact h
  · split
    · exact h.frame rfl
    · have hstored : StorageInv C (LightCtrl.store C
          { srv with flags := { srv.flags with on := true, manual := false } } .state) := by
        apply StorageBase.store
        exact h.toStorageBase.change rfl
      exact hstored.frame rfl
    · exact h.frame rfl

theorem goStandby (h : StorageInv C srv) (fadeTime : UInt32) :
    StorageInv C (store C { (srv.transitionStart .standby fadeTime) with
      flags := { (srv.transitionStart .standby fadeTime).flags with on := false } } .state) := by
  apply StorageBase.store
  exact h.toStorageBase.change rfl

theorem turnOffAuto (h : StorageInv C srv) : StorageInv C (srv.turnOffAuto C) := by
  rw [LightCtrl.turnOffAuto]
  split
  · exact h
  · exact h.goStandby _

theorem turnOff (h : StorageInv C srv) (fadeTime : Option UInt32) :
    StorageInv C (srv.turnOff C fadeTime) := by
  have hmanual : StorageInv C { srv with flags := { srv.flags with manual := true } } := h.frame rfl
  rw [LightCtrl.turnOff]
  split
  · exact h
  · simp only
    split
    · exact hmanual.goStandby _
    · split
      · exact h.frame rfl
      · exact hmanual

theorem enterProlong (h : StorageInv C srv) : StorageInv C srv.enterProlong := by
  rw [LightCtrl.enterProlong]
  split
  · exact h
  · exact h.frame rfl

theorem timeout (h : StorageInv C srv) : StorageInv C ({ srv with timer := none }.timeout C) := by
  have hbase : StorageInv C { srv with timer := none } := h.frame rfl
  rw [LightCtrl.timeout]
  split
  · simp only
    split
    · exact h.frame rfl
    · exact h.frame rfl
    · split <;> exact h.frame rfl
  · split
    · exact hbase.enterProlong
    · exact hbase.turnOffAuto
    · exact h.frame rfl

theorem delayedActionTimeout (h : StorageInv C srv) :
    StorageInv C ({ srv with actionDelay := none }.delayedActionTimeout C) := by
  have hbase : ∀ onPending offPending occPending, StorageInv C { srv with
      actionDelay := none
      flags := { srv.flags with
        onPending := onPending, offPending := offPending, occPending := occPending } } :=
    fun _ _ _ => h.frame rfl
  rw [LightCtrl.delayedActionTimeout]
  split
  · exact (hbase false _ _).turnOn _
  · split
    · exact (hbase _ false _).turnOff _
    · split
      · simp only
        split
        · exact (hbase _ _ false).turnOn _
        · exact hbase _ _ false
      · exact hbase _ _ _

theorem storeTimeout (h : StorageInv C srv) :
    StorageInv C { srv with storeTimer := none }.storeTimeout := by
  simp only [LightCtrl.storeTimeout, h.storeCfg, Bool.false_eq_true, if_false]
  cases hwaiting : srv.flags.storeState with
  | true =>
    simp only [if_true]
    refine ⟨⟨h.cfg, h.regCfg, h.storedCfg, rfl, ?_, h.occMode⟩, fun _ => ⟨rfl, ?_, rfl⟩⟩
    · simp
    · have hocc := h.occMode
      cases hmode : C.occupancyMode
      · rfl
      · simpa [hmode] using hocc
  | false =>
    simp only [Bool.false_eq_true, if_false]
    refine ⟨⟨h.cfg, h.regCfg, h.storedCfg, h.storeCfg, ?_, h.occMode⟩, fun _ => h.saved hwaiting⟩
    simp [hwaiting]

theorem delayedSet (h : StorageInv C srv) (transition : CtrlTransition) (value : Bool) :
    StorageInv C (srv.delayedSet transition value) := by
  rcases srv.delayedSet_cases transition value with heq | heq <;> rw [heq]
  · exact h
  · exact h.frame rfl

theorem delayedOccupancy (h : StorageInv C srv) (value : SensorValue) :
    StorageInv C (srv.delayedOccupancy value) := by
  rcases srv.delayedOccupancy_cases value with heq | ⟨-, _, heq⟩ <;> rw [heq]
  · exact h
  · exact h.frame rfl

theorem regStep (h : StorageInv C srv) :
    StorageInv C ({ srv with regTimer := none }.regStep C) := by
  obtain ⟨_, _, _, _, heq⟩ := regStep_frame C { srv with regTimer := none }
  rw [heq]
  exact h.frame rfl

theorem enable (h : StorageInv C srv) : StorageInv C (srv.enable C) := by
  simp only [LightCtrl.enable]
  split
  · exact h.frame rfl
  · split
    · apply StorageBase.store
      exact h.toStorageBase.change rfl
    · exact h.frame rfl

theorem disable (h : StorageInv C srv) : StorageInv C (srv.disable C) := by
  have hflag : StorageInv C { srv with flags := { srv.flags with manuallyEnabled := false } } :=
    h.frame rfl
  simp only [LightCtrl.disable]
  split
  · exact hflag
  · exact hflag.toStorageBase.ctrlDisable.store

theorem omSet (h : StorageInv C srv) {mode : Bool} (hmode : C.occupancyMode = true → mode = true) :
    StorageInv C (srv.omSet C mode) := by
  apply StorageBase.store
  exact ⟨h.cfg, h.regCfg, h.storedCfg, h.storeCfg, h.waiting, hmode⟩

theorem propSet (h : StorageInv C srv) {id : LightCtrlProp} {val : SensorValue}
    (hcfg : (srv.propSet id val).cfg = srv.cfg) (hreg : (srv.propSet id val).regCfg = srv.regCfg) :
    StorageInv C (srv.propSet id val) := by
  apply h.frame
  rw [storage, hcfg, hreg]
  cases id <;> rfl

theorem lightnessMsg (h : StorageInv C srv) {msg : LevelMsg}
    (hguard : StorageGuard C srv (.lightnessMsg msg)) : StorageInv C (srv.lightnessMsg C msg) := by
  cases msg with
  | set repr val transition =>
    refine ⟨h.toStorageBase.change rfl, ?_⟩
    intro hsaved
    obtain ⟨hon, hocc, henabled⟩ := h.saved hsaved
    refine ⟨hon, hocc, ?_⟩
    cases hcontrolled : srv.controlled with
    | false => exact henabled.trans hcontrolled
    | true =>
      have hwaiting : srv.flags.storeState = true := hguard hcontrolled
      rw [show srv.flags.storeState = false from hsaved] at hwaiting
      cases hwaiting
  | _ => exact h.frame rfl

theorem elapse (h : StorageInv C srv) (ms : UInt32) : StorageInv C (srv.elapse ms) := by
  refine ⟨⟨h.cfg, h.regCfg, h.storedCfg, h.storeCfg, ?_, h.occMode⟩, h.saved⟩
  intro hwaiting
  simpa [LightCtrl.elapse, elapseTimer] using h.waiting hwaiting

theorem command (h : StorageInv C srv) (onoff : Bool) (fadeTime : Option UInt32) :
    StorageInv C (if onoff then srv.turnOn C fadeTime else srv.turnOff C fadeTime) := by
  split
  · exact h.turnOn fadeTime
  · exact h.turnOff fadeTime

theorem lightOnoffSet (h : StorageInv C srv) (onoff : Bool) (transition : Option CtrlTransition) :
    StorageInv C (srv.lightOnoffSet C onoff transition) := by
  cases transition with
  | none => exact h.command onoff none
  | some transition =>
    simp only [LightCtrl.lightOnoffSet]
    split
    · exact h.delayedSet transition onoff
    · exact h.command onoff (some transition.time)

theorem onoffSet (h : StorageInv C srv) (onOff : Bool) (transition : CtrlTransition) :
    StorageInv C (srv.onoffSet C onOff transition) := by
  simp only [LightCtrl.onoffSet]
  split
  · exact h.delayedSet transition onOff
  · exact h.command onOff _

theorem handleSensorStatus (h : StorageInv C srv) (entry : SensorEntry) :
    StorageInv C (srv.handleSensorStatus C entry) := by
  cases entry with
  | ambientLightLevel value => exact h.frame rfl
  | timeSinceMotionSensed value =>
    simp only [LightCtrl.handleSensorStatus]
    split
    · exact h
    · exact h.delayedOccupancy value
  | occupancy value =>
    simp only [LightCtrl.handleSensorStatus]
    split
    · exact h
    · split
      · exact h.turnOn none
      · exact h

theorem reload (hstoredCfg : srv.storedCfg = none) (calls : List Bool) :
    StorageInv C (srv.reload C calls) := by
  rw [reload_eq, hstoredCfg]
  refine ⟨⟨rfl, rfl, hstoredCfg, rfl, ?_, ?_⟩, fun _ => ⟨rfl, rfl, rfl⟩⟩
  · intro hwaiting
    cases hwaiting
  · intro hmode
    simp [hmode]

theorem start (h : StorageInv C srv) (mode : OnPowerUp) (time : UInt32) :
    StorageInv C (srv.start C mode time) := by
  cases mode with
  | off =>
    apply StorageBase.store
    split
    · exact h.toStorageBase.change rfl
    · apply StorageBase.ctrlDisable
      exact h.toStorageBase.change rfl
  | on =>
    apply StorageBase.store
    split
    · exact h.toStorageBase.change rfl
    · apply StorageBase.ctrlDisable
      exact h.toStorageBase.change rfl
  | restore =>
    simp only [LightCtrl.start]
    split
    · have hreg : StorageInv C
          ({ srv with flags := { srv.flags with started := true } }.regStart C) := h.frame rfl
      split
      · exact hreg.turnOn none
      · exact hreg
    · split <;> exact h.frame rfl

theorem step (h : StorageInv C srv) {e : Event} (hguard : StorageGuard C srv e) :
    StorageInv C (srv.step C e) := by
  cases e with
  | elapse ms => exact h.elapse ms
  | timer =>
    rw [LightCtrl.step]
    split
    · exact h.timeout
    · exact h
  | actionDelay =>
    rw [LightCtrl.step]
    split
    · exact h.delayedActionTimeout
    · exact h
  | storeTimer =>
    rw [LightCtrl.step]
    split
    · exact h.storeTimeout
    · exact h
  | regTimer =>
    rw [LightCtrl.step]
    split
    · exact h.regStep
    · exact h
  | lightOnoffSet onoff transition => exact h.lightOnoffSet onoff transition
  | onoffSet onOff transition => exact h.onoffSet onOff transition
  | on => exact h.turnOn none
  | off => exact h.turnOff none
  | enable => exact h.enable
  | disable => exact h.disable
  | omSet mode => exact h.omSet hguard
  | sensorStatus entry => exact h.handleSensorStatus entry
  | propSet id val => exact h.propSet hguard.1 hguard.2
  | lightnessMsg msg => exact h.lightnessMsg hguard
  | powerUp calls mode time => exact (reload h.storedCfg calls).start mode time

theorem survives (h : StorageInv C srv) : Survives C srv := by
  intro htimer calls
  have hsaved : srv.flags.storeState = false := by
    rw [Bool.eq_false_iff]
    intro hwaiting
    have hsome := h.waiting hwaiting
    rw [htimer] at hsome
    cases hsome
  obtain ⟨hon, hocc, henabled⟩ := h.saved hsaved
  rw [reload_eq, h.storedCfg]
  exact ⟨h.cfg.symm, h.regCfg.symm, hocc, henabled, hon⟩

end StorageInv

/-- In a run whose events meet the guard, what the server holds survives every reset that comes
after the store timer. -/
theorem survives_of_reached {calls : List Bool} {mode : OnPowerUp} {time : UInt32}
    (hreached : Reached (step C) (StorageGuard C) ((blank C).powerUp C calls mode time) srv) :
    Survives C srv := by
  have hinit : StorageInv C ((blank C).powerUp C calls mode time) :=
    (StorageInv.reload rfl calls).start mode time
  apply StorageInv.survives
  exact hreached.invariant hinit fun _ _ h hguard => h.step hguard

theorem survives_onStored : Survives .default
    ([.on, .elapse 5000, .timer, .storeTimer].foldl (step .default) enabledServer) := by
  apply survives_of_reached
  exact Reached.run .start ⟨trivial, trivial, trivial, trivial, trivial⟩

def configured : LightCtrl :=
  [.propSet (.lightness .on) ⟨1000, 0⟩, .elapse 5000, .storeTimer].foldl (step .default)
    enabledServer

theorem not_survives_configured :
    Reached (step .default) (fun _ _ => True) enabledServer configured
      ∧ ¬ Survives .default configured := by
  refine ⟨Reached.run .start ⟨trivial, trivial, trivial, trivial⟩, ?_⟩
  intro h
  exact absurd (h (by decide) []).1 (by decide)

end SdkNrf.Mesh.LightCtrl
