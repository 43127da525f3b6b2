import SdkNrf.Mesh.LightCtrl
import SdkNrf.Mesh.Sensor

/-!
# The fade of the Light Lightness Control server

During a transition, the light and the illuminance are interpolated between what they were at its
start and what is configured for the new state.
-/

namespace SdkNrf.Mesh

/-- The way from `start` up to `stop`, with `left` of the duration to go. -/
def ramp (start stop duration left : Nat) : Nat :=
  start + (stop - start) * (duration - left) / duration

theorem start_le_ramp (start stop duration left : Nat) : start ≤ ramp start stop duration left :=
  Nat.le_add_right ..

theorem ramp_le_stop {start stop : Nat} (h : start ≤ stop) (duration left : Nat) :
    ramp start stop duration left ≤ stop := by
  have hquot : (stop - start) * (duration - left) / duration ≤ stop - start := by
    apply Nat.div_le_of_le_mul
    rw [Nat.mul_comm duration]
    exact Nat.mul_le_mul_left _ (Nat.sub_le ..)
  rw [ramp]
  omega

theorem ramp_at_start (start stop duration : Nat) : ramp start stop duration duration = start := by
  simp [ramp]

theorem ramp_at_stop {start stop duration : Nat} (h : start ≤ stop) (hduration : 0 < duration) :
    ramp start stop duration 0 = stop := by
  rw [ramp, Nat.sub_zero, Nat.mul_div_cancel _ hduration]
  omega

/-- The interpolation does not wrap around: the ends are equal, or it goes up, the timer is within
the duration and the product fits. -/
def Interpolates (start stop duration left : Nat) : Prop :=
  start = stop ∨ left ≤ duration ∧ start ≤ stop ∧ (stop - start) * duration < 2 ^ 32

instance (start stop duration left : Nat) : Decidable (Interpolates start stop duration left) :=
  inferInstanceAs (Decidable (_ ∨ _))

theorem Interpolates.le {start stop duration left : Nat}
    (h : Interpolates start stop duration left) : start ≤ stop := by
  rcases h with rfl | h
  · exact Nat.le_refl _
  · exact h.2.1

theorem Interpolates.retime {start stop duration left left' : Nat}
    (h : Interpolates start stop duration left) (hleft : start = stop ∨ left' ≤ duration) :
    Interpolates start stop duration left' := by
  rcases hleft with hsame | hleft
  · exact .inl hsame
  · rcases h with hsame | h
    · exact .inl hsame
    · exact .inr ⟨hleft, h.2⟩

theorem Interpolates.fits {start stop duration left : Nat}
    (h : Interpolates start stop duration left) : (stop - start) * duration < 2 ^ 32 := by
  rcases h with rfl | h
  · simp
  · exact h.2.2

theorem Interpolates.of_ramp {start stop time : Nat} (hle : start ≤ stop)
    (hfits : (stop - start) * time < 2 ^ 32) (duration left : Nat) :
    Interpolates (ramp start stop duration left) stop time time := by
  have hlow := start_le_ramp start stop duration left
  refine .inr ⟨Nat.le_refl _, ramp_le_stop hle .., ?_⟩
  apply lt_of_le_of_lt _ hfits
  apply Nat.mul_le_mul_right
  exact Nat.sub_le_sub_left hlow _

theorem interpolate_self (start curr duration : UInt32) :
    interpolate start start curr duration = start := by
  simp [interpolate]

theorem interpolate_toNat (start stop duration left : UInt32)
    (h : Interpolates start.toNat stop.toNat duration.toNat left.toNat) :
    (interpolate start stop (duration - left) duration).toNat =
      ramp start.toNat stop.toNat duration.toNat left.toNat := by
  rcases h with h | ⟨hleft, hle, hfits⟩
  · have hsame : start = stop := UInt32.toNat_inj.mp h
    subst hsame
    simp [interpolate, ramp]
  · have hcurr : (duration - left).toNat = duration.toNat - left.toNat :=
      UInt32.toNat_sub_of_le _ _ (UInt32.le_iff_toNat_le.mpr hleft)
    have hdiff : (stop - start).toNat = stop.toNat - start.toNat :=
      UInt32.toNat_sub_of_le _ _ (UInt32.le_iff_toNat_le.mpr hle)
    have hprod : (stop.toNat - start.toNat) * (duration.toNat - left.toNat) < 2 ^ 32 :=
      lt_of_le_of_lt (Nat.mul_le_mul_left _ (Nat.sub_le ..)) hfits
    have hramp := ramp_le_stop hle duration.toNat left.toNat
    have hstop := stop.toNat_lt
    rw [ramp] at hramp ⊢
    rw [interpolate, UInt32.toNat_add, UInt32.toNat_div, UInt32.toNat_mul, hcurr, hdiff,
      Nat.mod_eq_of_lt hprod, Nat.mod_eq_of_lt (by omega)]

def LuxRoundTrips (lux : SensorValue) : Prop := fromCentiLux (toCentiLux lux) = lux

instance (lux : SensorValue) : Decidable (LuxRoundTrips lux) := inferInstanceAs (Decidable (_ = _))

theorem sensorMill_fromCentiLux (centiLux : UInt32) : sensorMill (fromCentiLux centiLux) =
    (centiLux.toNat / 100 * 1000000 + centiLux.toNat % 10000 : Nat) := by
  simp [sensorMill, fromCentiLux]
  ring

theorem sensorMill_fromCentiLux_mono {a b : UInt32} (h : a.toNat ≤ b.toNat) :
    sensorMill (fromCentiLux a) ≤ sensorMill (fromCentiLux b) := by
  rw [sensorMill_fromCentiLux, sensorMill_fromCentiLux]
  omega

theorem toCentiLux_fromCentiLux {centiLux : UInt32} (h : 100 ∣ centiLux.toNat) :
    toCentiLux (fromCentiLux centiLux) = centiLux := by
  have hval : (fromCentiLux centiLux).val1 * 100 + (fromCentiLux centiLux).val2.tdiv 10000 =
      (centiLux.toNat : Int) := by
    simp only [fromCentiLux, UInt32.toNat_div, UInt32.toNat_mod, UInt32.reduceToNat]
    rw [Int.tdiv_eq_ediv_of_nonneg (by positivity)]
    omega
  have hlt := centiLux.toNat_lt
  have hmod : ((centiLux.toNat : Int) % 2 ^ 32).toNat = centiLux.toNat := by omega
  rw [toCentiLux, hval, UInt32.ofInt, hmod, UInt32.ofNat_toNat]

namespace LightCtrl

def Fading (srv : LightCtrl) : Prop :=
  srv.controlled = true ∧ srv.flags.transition = true ∧ srv.fade.duration ≠ 0

instance (srv : LightCtrl) : Decidable srv.Fading := inferInstanceAs (Decidable (_ ∧ _))

/-- The light and the illuminance stay between the ends of the fade, and are there when it starts
and when it ends. -/
structure FadeKeeps (srv : LightCtrl) : Prop where
  light_mem : srv.controlled = true → srv.lightGet.toNat ∈
    Set.uIcc srv.fade.initialLight.toNat (srv.cfg.light.get srv.state).toNat
  light_start : srv.Fading → remaining srv.timer = srv.fade.duration →
    srv.lightGet = srv.fade.initialLight
  light_end : srv.Fading → remaining srv.timer = 0 → srv.lightGet = srv.cfg.light.get srv.state
  lux_mem : srv.controlled = true → sensorMill srv.luxGet ∈
    Set.uIcc (sensorMill srv.fade.initialLux) (sensorMill (srv.regCfg.lux.get srv.state))
  lux_start : srv.Fading → remaining srv.timer = srv.fade.duration →
    srv.luxGet = srv.fade.initialLux
  lux_end : srv.Fading → remaining srv.timer = 0 → srv.luxGet = srv.regCfg.lux.get srv.state

structure FadeSound (srv : LightCtrl) : Prop where
  light : Interpolates srv.fade.initialLight.toNat (srv.cfg.light.get srv.state).toNat
    srv.fade.duration.toNat (remaining srv.timer).toNat
  lux : Interpolates (toCentiLux srv.fade.initialLux).toNat
    (toCentiLux (srv.regCfg.lux.get srv.state)).toNat srv.fade.duration.toNat
    (remaining srv.timer).toNat
  initialLux : LuxRoundTrips srv.fade.initialLux
  stateLux : LuxRoundTrips (srv.regCfg.lux.get srv.state)

instance (srv : LightCtrl) : Decidable srv.FadeSound :=
  decidable_of_iff (_ ∧ _ ∧ _ ∧ _)
    ⟨fun ⟨h₁, h₂, h₃, h₄⟩ => ⟨h₁, h₂, h₃, h₄⟩, fun ⟨h₁, h₂, h₃, h₄⟩ => ⟨h₁, h₂, h₃, h₄⟩⟩

def FadeInv (srv : LightCtrl) : Prop := srv.Fading → srv.FadeSound

variable {C : LightCtrlConfig} {srv srv' : LightCtrl}

theorem still_of_not_fading (h : ¬ srv.Fading) (hcontrolled : srv.controlled = true) :
    (!srv.flags.transition) = true ∨ srv.fade.duration = 0 := by
  by_contra hmoving
  simp only [Bool.not_eq_true', not_or, Bool.not_eq_false] at hmoving
  exact h ⟨hcontrolled, hmoving⟩

theorem lightGet_of_not_fading (h : ¬ srv.Fading) (hcontrolled : srv.controlled = true) :
    srv.lightGet = srv.cfg.light.get srv.state := by
  simp only [lightGet, hcontrolled, Bool.not_true, Bool.false_eq_true, if_false]
  rw [if_pos (still_of_not_fading h hcontrolled)]

theorem luxGet_of_not_fading (h : ¬ srv.Fading) (hcontrolled : srv.controlled = true) :
    srv.luxGet = srv.regCfg.lux.get srv.state := by
  simp only [luxGet, hcontrolled, Bool.not_true, Bool.false_eq_true, if_false]
  rw [if_pos (still_of_not_fading h hcontrolled)]

theorem lightGet_toNat (hfading : srv.Fading)
    (hlight : Interpolates srv.fade.initialLight.toNat (srv.cfg.light.get srv.state).toNat
      srv.fade.duration.toNat (remaining srv.timer).toNat) :
    srv.lightGet.toNat = ramp srv.fade.initialLight.toNat (srv.cfg.light.get srv.state).toNat
      srv.fade.duration.toNat (remaining srv.timer).toNat := by
  obtain ⟨hcontrolled, htransition, hduration⟩ := hfading
  have hramp := ramp_le_stop hlight.le srv.fade.duration.toNat (remaining srv.timer).toNat
  have hstop := (srv.cfg.light.get srv.state).toNat_lt
  have hnat := interpolate_toNat srv.fade.initialLight.toUInt32
    (srv.cfg.light.get srv.state).toUInt32 srv.fade.duration (remaining srv.timer)
    (by simpa using hlight)
  simp only [UInt16.toNat_toUInt32] at hnat
  simp only [lightGet, currFadeTime, hcontrolled, htransition, hduration, Bool.not_true,
    Bool.false_eq_true, or_self, if_false, if_true, UInt32.toNat_toUInt16]
  rw [hnat, Nat.mod_eq_of_lt (by omega)]

theorem luxGet_eq (hfading : srv.Fading) : srv.luxGet =
    fromCentiLux (interpolate (toCentiLux srv.fade.initialLux)
      (toCentiLux (srv.regCfg.lux.get srv.state)) (srv.fade.duration - remaining srv.timer)
      srv.fade.duration) := by
  obtain ⟨hcontrolled, htransition, hduration⟩ := hfading
  simp [luxGet, currFadeTime, hcontrolled, htransition, hduration]

theorem fadeKeeps_of_fadeInv (h : FadeInv srv) : FadeKeeps srv := by
  constructor
  · intro hcontrolled
    by_cases hfading : srv.Fading
    · have hlight := (h hfading).light
      rw [lightGet_toNat hfading hlight, Set.uIcc_of_le hlight.le]
      exact ⟨start_le_ramp .., ramp_le_stop hlight.le ..⟩
    · rw [lightGet_of_not_fading hfading hcontrolled]
      exact Set.right_mem_uIcc
  · intro hfading hstart
    have hlight := lightGet_toNat hfading (h hfading).light
    rw [hstart, ramp_at_start] at hlight
    exact UInt16.toNat_inj.mp hlight
  · intro hfading hend
    have hlight := lightGet_toNat hfading (h hfading).light
    rw [hend, UInt32.toNat_zero, ramp_at_stop (h hfading).light.le] at hlight
    · exact UInt16.toNat_inj.mp hlight
    · exact Nat.pos_of_ne_zero fun hzero => hfading.2.2 (UInt32.toNat_inj.mp hzero)
  · intro hcontrolled
    by_cases hfading : srv.Fading
    · have hsound := h hfading
      have hnat := interpolate_toNat _ _ _ _ hsound.lux
      have hlow := sensorMill_fromCentiLux_mono ((start_le_ramp ..).trans_eq hnat.symm)
      have hhigh := sensorMill_fromCentiLux_mono (hnat.trans_le (ramp_le_stop hsound.lux.le ..))
      rw [hsound.initialLux] at hlow
      rw [hsound.stateLux] at hhigh
      rw [luxGet_eq hfading]
      exact Set.mem_uIcc.mpr (.inl ⟨hlow, hhigh⟩)
    · rw [luxGet_of_not_fading hfading hcontrolled]
      exact Set.right_mem_uIcc
  · intro hfading hstart
    have hsound := h hfading
    have hnat := interpolate_toNat _ _ _ _ hsound.lux
    rw [hstart, ramp_at_start] at hnat
    rw [luxGet_eq hfading, hstart, UInt32.toNat_inj.mp hnat]
    exact hsound.initialLux
  · intro hfading hend
    have hsound := h hfading
    have hnat := interpolate_toNat _ _ _ _ hsound.lux
    rw [hend, UInt32.toNat_zero, ramp_at_stop hsound.lux.le] at hnat
    · rw [luxGet_eq hfading, hend, UInt32.toNat_inj.mp hnat]
      exact hsound.stateLux
    · exact Nat.pos_of_ne_zero fun hzero => hfading.2.2 (UInt32.toNat_inj.mp hzero)

/-- The light that a transition starts from, when it interrupts a fade: it is read from that fade,
but with the level of the new state. -/
def LightClean (srv : LightCtrl) (state : CtrlState) (fadeTime : UInt32) : Prop :=
  srv.fade.duration ≠ 0 →
    Interpolates srv.fade.initialLight.toNat (srv.cfg.light.get state).toNat
        srv.fade.duration.toNat (remaining srv.timer).toNat
      ∧ ((srv.cfg.light.get state).toNat - srv.fade.initialLight.toNat) * fadeTime.toNat < 2 ^ 32

/-- The illuminance that a transition starts from, when it interrupts a fade: it is read with the
new duration too, and has to be a whole number of lux. -/
def LuxClean (srv : LightCtrl) (state : CtrlState) (fadeTime : UInt32) : Prop :=
  Interpolates (toCentiLux srv.fade.initialLux).toNat (toCentiLux (srv.regCfg.lux.get state)).toNat
      fadeTime.toNat (remaining srv.timer).toNat
    ∧ (toCentiLux srv.fade.initialLux = toCentiLux (srv.regCfg.lux.get state)
      ∨ 100 ∣ ramp (toCentiLux srv.fade.initialLux).toNat
        (toCentiLux (srv.regCfg.lux.get state)).toNat fadeTime.toNat (remaining srv.timer).toNat)

/-- A transition may start: it takes no time, or its illuminance survives the conversion and it
interrupts no fade that it cannot be interpolated from. -/
def StartClean (srv : LightCtrl) (state : CtrlState) (fadeTime : UInt32) : Prop :=
  fadeTime ≠ 0 → LuxRoundTrips (srv.regCfg.lux.get state)
    ∧ (srv.flags.transition = true →
      LightClean srv state fadeTime ∧ LuxClean srv state fadeTime)

instance (srv : LightCtrl) (state : CtrlState) (fadeTime : UInt32) :
    Decidable (LightClean srv state fadeTime) := inferInstanceAs (Decidable (_ → _ ∧ _))

instance (srv : LightCtrl) (state : CtrlState) (fadeTime : UInt32) :
    Decidable (LuxClean srv state fadeTime) := inferInstanceAs (Decidable (_ ∧ (_ ∨ _)))

instance (srv : LightCtrl) (state : CtrlState) (fadeTime : UInt32) :
    Decidable (StartClean srv state fadeTime) :=
  inferInstanceAs (Decidable (_ → _ ∧ (_ → _ ∧ _)))

variable {state : CtrlState}

theorem transitionStart_light (hcontrolled : srv.controlled = true) {fadeTime : UInt32}
    (hclean : srv.flags.transition = true → LightClean srv state fadeTime) :
    Interpolates ({ srv with state := state } : LightCtrl).lightGet.toNat
      (srv.cfg.light.get state).toNat fadeTime.toNat fadeTime.toNat := by
  by_cases hfading : ({ srv with state := state } : LightCtrl).Fading
  · obtain ⟨hlight, hfits⟩ := hclean hfading.2.1 hfading.2.2
    rw [lightGet_toNat hfading hlight]
    exact Interpolates.of_ramp hlight.le hfits ..
  · rw [lightGet_of_not_fading hfading hcontrolled]
    exact .inl rfl

def readingLux (srv : LightCtrl) (state : CtrlState) (fadeTime : UInt32) : LightCtrl :=
  { srv with
    state := state
    fade := ⟨({ srv with state := state } : LightCtrl).lightGet, srv.fade.initialLux, fadeTime⟩ }

theorem transitionStart_fade (state : CtrlState) (fadeTime : UInt32) :
    (srv.transitionStart state fadeTime).fade =
      ⟨({ srv with state := state } : LightCtrl).lightGet, (readingLux srv state fadeTime).luxGet,
        fadeTime⟩ :=
  rfl

theorem transitionStart_lux (hcontrolled : srv.controlled = true) {fadeTime : UInt32}
    (hlux : LuxRoundTrips (srv.regCfg.lux.get state))
    (hclean : srv.flags.transition = true → LuxClean srv state fadeTime) :
    LuxRoundTrips (readingLux srv state fadeTime).luxGet
      ∧ Interpolates (toCentiLux (readingLux srv state fadeTime).luxGet).toNat
        (toCentiLux (srv.regCfg.lux.get state)).toNat fadeTime.toNat fadeTime.toNat := by
  by_cases hfading : (readingLux srv state fadeTime).Fading
  · obtain ⟨hinterpolates, hwhole⟩ := hclean hfading.2.1
    rw [luxGet_eq hfading]
    simp only [readingLux]
    rcases hwhole with hsame | hwhole
    · rw [hsame, interpolate_self, hlux]
      exact ⟨hlux, .inl rfl⟩
    · have hnat := interpolate_toNat _ _ _ _ hinterpolates
      rw [← hnat] at hwhole
      have hback := toCentiLux_fromCentiLux hwhole
      rw [LuxRoundTrips, hback, hnat]
      exact ⟨rfl, Interpolates.of_ramp hinterpolates.le hinterpolates.fits ..⟩
  · rw [luxGet_of_not_fading hfading hcontrolled]
    exact ⟨hlux, .inl rfl⟩

theorem fadeInv_transitionStart (hcontrolled : srv.controlled = true) {fadeTime : UInt32}
    (hclean : StartClean srv state fadeTime) :
    FadeInv (srv.transitionStart state fadeTime) := by
  intro hfading
  obtain ⟨hlux, hinterrupts⟩ := hclean hfading.2.2
  have hlight := transitionStart_light hcontrolled fun h => (hinterrupts h).1
  obtain ⟨hinitial, hinterpolates⟩ :=
    transitionStart_lux hcontrolled hlux fun h => (hinterrupts h).2
  exact ⟨hlight, hinterpolates, hinitial, hlux⟩

/-- In the state On, `turn_on` restarts the timer with the remaining time and the time of the state:
that is fine outside of a fade, in a fade between equal ends, or within the duration. -/
def RestartClean (srv : LightCtrl) : Prop :=
  srv.Fading →
    (srv.fade.initialLight = srv.cfg.light.get .on
      ∨ remaining srv.timer + srv.cfg.on ≤ srv.fade.duration)
    ∧ (toCentiLux srv.fade.initialLux = toCentiLux (srv.regCfg.lux.get .on)
      ∨ remaining srv.timer + srv.cfg.on ≤ srv.fade.duration)

/-- `turn_on` keeps the fade sound. -/
def OnClean (srv : LightCtrl) (fadeTime : Option UInt32) : Prop :=
  srv.controlled = true →
    if srv.state = .on then RestartClean srv
    else StartClean srv .on (fadeTime.getD srv.cfg.fadeOn)

/-- `turn_off` keeps the fade sound. -/
def OffClean (srv : LightCtrl) (fadeTime : Option UInt32) : Prop :=
  srv.controlled = true →
    (srv.state = .standby → fadeTime.getD srv.cfg.fadeStandbyManual < srv.remainingFadeTime) →
      StartClean srv .standby (fadeTime.getD srv.cfg.fadeStandbyManual)

def CommandClean (srv : LightCtrl) (onoff : Bool) (fadeTime : Option UInt32) : Prop :=
  if onoff then OnClean srv fadeTime else OffClean srv fadeTime

def DelayedClean (srv : LightCtrl) (transition : CtrlTransition) (value : Bool) : Prop :=
  (srv.delayedChange value transition.delay).isSome = true →
    FadeInv { srv with fade := { srv.fade with duration := transition.time } }

def FadeGuard (C : LightCtrlConfig) (srv : LightCtrl) : Event → Prop
  | .timer => srv.timer = some 0 → srv.flags.transition = false → srv.controlled = true →
    (srv.state = .on → StartClean srv .prolong srv.cfg.fadeProlong)
      ∧ (srv.state = .prolong → StartClean srv .standby srv.cfg.fadeStandbyAuto)
  | .actionDelay => srv.actionDelay = some 0 →
    if srv.flags.onPending then OnClean srv (some srv.fade.duration)
    else if srv.flags.offPending then OffClean srv (some srv.fade.duration)
    else srv.flags.occPending = true → srv.state = .on ∨ srv.flags.occMode = true → OnClean srv none
  | .lightOnoffSet onoff none => CommandClean srv onoff none
  | .lightOnoffSet onoff (some transition) =>
    if transition.delay > 0 then DelayedClean srv transition onoff
    else CommandClean srv onoff (some transition.time)
  | .onoffSet onOff transition =>
    if transition.delay ≠ 0 then DelayedClean srv transition onOff
    else CommandClean srv onOff (if transition.time = 0 then none else some transition.time)
  | .on => OnClean srv none
  | .off => OffClean srv none
  | .sensorStatus (.occupancy value) =>
    ¬ (srv.state = .standby ∧ !srv.flags.occMode) → value.val1 > 0 → OnClean srv none
  | .propSet _ _ => ¬ srv.Fading
  | .powerUp calls mode _ => mode = .restore → (srv.reload C calls).flags.on = true →
    OnClean (srv.reload C calls) none
  | _ => True

namespace FadeInv

theorem frame (h : FadeInv srv) (hcontrolled : srv'.controlled = srv.controlled)
    (htransition : srv'.flags.transition = srv.flags.transition) (hfade : srv'.fade = srv.fade)
    (htimer : srv'.timer = srv.timer) (hstate : srv'.state = srv.state) (hcfg : srv'.cfg = srv.cfg)
    (hreg : srv'.regCfg = srv.regCfg) : FadeInv srv' := by
  intro hfading
  rw [Fading, hcontrolled, htransition, hfade] at hfading
  obtain ⟨hlight, hlux, hinitial, hend⟩ := h hfading
  constructor
  · rwa [hfade, hcfg, hstate, htimer]
  · rwa [hfade, hreg, hstate, htimer]
  · rwa [hfade]
  · rwa [hreg, hstate]

theorem of_not_fading (h : ¬ srv.Fading) : FadeInv srv := fun hfading => absurd hfading h

variable {fadeTime : Option UInt32}

theorem turnOn (h : FadeInv srv) (hclean : OnClean srv fadeTime) :
    FadeInv (srv.turnOn C fadeTime) := by
  rw [LightCtrl.turnOn]
  split
  · exact h
  · next hcontrolled =>
    simp only [Bool.not_eq_true, Bool.not_eq_false'] at hcontrolled
    have hclean := hclean hcontrolled
    split
    · next hstate =>
      rw [if_pos hstate] at hclean
      intro hfading
      obtain ⟨hlight, hlux, hinitial, hend⟩ := h hfading
      obtain ⟨hlightClean, hluxClean⟩ := hclean hfading
      have hmoving : srv.flags.transition = true := hfading.2.1
      have htime : (srv.restartTimer (srv.remainingFadeTime + srv.cfg.on)).timer =
          some (remaining srv.timer + srv.cfg.on) := by
        simp [restartTimer, remainingFadeTime, hmoving]
      rw [← hstate] at hlightClean hluxClean
      refine ⟨hlight.retime ?_, hlux.retime ?_, hinitial, hend⟩
      · rw [htime]
        exact hlightClean.imp (congrArg UInt16.toNat) UInt32.le_iff_toNat_le.mp
      · rw [htime]
        exact hluxClean.imp (congrArg UInt32.toNat) UInt32.le_iff_toNat_le.mp
    · next hstate =>
      rw [if_neg (by simp [hstate])] at hclean
      apply fadeInv_transitionStart
      · exact hcontrolled
      · exact hclean
    · next hstate =>
      rw [if_neg (by simp [hstate])] at hclean
      exact fadeInv_transitionStart hcontrolled hclean

theorem turnOff (h : FadeInv srv) (hclean : OffClean srv fadeTime) :
    FadeInv (srv.turnOff C fadeTime) := by
  have hmanual : FadeInv { srv with flags := { srv.flags with manual := true } } :=
    h.frame rfl rfl rfl rfl rfl rfl rfl
  rw [LightCtrl.turnOff]
  split
  · exact h
  · next hcontrolled =>
    simp only [Bool.not_eq_true, Bool.not_eq_false'] at hcontrolled
    have hstart := hclean hcontrolled
    have hfade : (srv.state = .standby →
        fadeTime.getD srv.cfg.fadeStandbyManual < srv.remainingFadeTime) →
        FadeInv (({ srv with flags := { srv.flags with manual := true } } :
        LightCtrl).transitionStart .standby (fadeTime.getD srv.cfg.fadeStandbyManual)) := by
      intro hfast
      apply fadeInv_transitionStart
      · exact hcontrolled
      · exact hstart hfast
    simp only
    split
    · next hstate =>
      exact (hfade fun hstandby => absurd hstandby hstate).frame rfl rfl rfl rfl rfl rfl rfl
    · split
      · next hfaster => exact hfade fun _ => hfaster
      · exact hmanual

theorem enterProlong (h : FadeInv srv)
    (hclean : srv.controlled = true → srv.state = .on →
      StartClean srv .prolong srv.cfg.fadeProlong) : FadeInv srv.enterProlong := by
  rw [LightCtrl.enterProlong]
  split
  · exact h
  · next hstate =>
    simp only [Bool.not_eq_true', not_or, Bool.not_eq_false, not_not] at hstate
    exact fadeInv_transitionStart hstate.1 (hclean hstate.1 hstate.2)

theorem turnOffAuto (h : FadeInv srv)
    (hclean : srv.controlled = true → srv.state = .prolong →
      StartClean srv .standby srv.cfg.fadeStandbyAuto) : FadeInv (srv.turnOffAuto C) := by
  rw [LightCtrl.turnOffAuto]
  split
  · exact h
  · next hstate =>
    simp only [Bool.not_eq_true', not_or, Bool.not_eq_false, not_not] at hstate
    have hfade := fadeInv_transitionStart hstate.1 (hclean hstate.1 hstate.2)
    exact hfade.frame rfl rfl rfl rfl rfl rfl rfl

theorem startClean_still {state : CtrlState} {fadeTime : UInt32}
    (h : StartClean srv state fadeTime) (hstill : srv.flags.transition = false) :
    StartClean { srv with timer := none } state fadeTime := by
  intro htime
  refine ⟨(h htime).1, fun hmoving => ?_⟩
  rw [show srv.flags.transition = true from hmoving] at hstill
  cases hstill

theorem timeout (htimer : srv.timer = some 0) (hguard : FadeGuard C srv .timer) :
    FadeInv ({ srv with timer := none }.timeout C) := by
  rw [LightCtrl.timeout]
  split
  · have hended : ∀ timer, FadeInv
        { srv with flags := { srv.flags with transition := false }, timer := timer } :=
      fun _ => of_not_fading fun hfading => by cases hfading.2.1
    simp only
    split
    · exact hended _
    · exact hended _
    · split <;> exact hended _
  · next hstill =>
    simp only [Bool.not_eq_true] at hstill
    have hidle : ∀ manual, FadeInv
        { srv with timer := none, flags := { srv.flags with manual := manual } } :=
      fun _ => of_not_fading fun hfading => by simp [Fading, hstill] at hfading
    have hguard := hguard htimer hstill
    split
    · apply (hidle _).enterProlong
      intro hcontrolled hstate
      exact startClean_still ((hguard hcontrolled).1 hstate) hstill
    · apply (hidle _).turnOffAuto
      intro hcontrolled hstate
      exact startClean_still ((hguard hcontrolled).2 hstate) hstill
    · exact hidle false

theorem delayedActionTimeout (h : FadeInv srv) (htimer : srv.actionDelay = some 0)
    (hguard : FadeGuard C srv .actionDelay) :
    FadeInv ({ srv with actionDelay := none }.delayedActionTimeout C) := by
  have hbase : ∀ onPending offPending occPending, FadeInv { srv with
      actionDelay := none
      flags := { srv.flags with
        onPending := onPending, offPending := offPending, occPending := occPending } } :=
    fun _ _ _ => h.frame rfl rfl rfl rfl rfl rfl rfl
  have hguard := hguard htimer
  rw [LightCtrl.delayedActionTimeout]
  split
  · next hon =>
    rw [if_pos hon] at hguard
    exact (hbase false _ _).turnOn hguard
  · next hon =>
    rw [if_neg hon] at hguard
    split
    · next hoff =>
      rw [if_pos hoff] at hguard
      exact (hbase _ false _).turnOff hguard
    · next hoff =>
      rw [if_neg hoff] at hguard
      split
      · next hocc =>
        simp only
        split
        · next hmode => exact (hbase _ _ false).turnOn (hguard hocc hmode)
        · exact hbase _ _ false
      · exact hbase _ _ _

theorem storeTimeout (h : FadeInv srv) : FadeInv { srv with storeTimer := none }.storeTimeout := by
  rw [LightCtrl.storeTimeout]
  simp only
  split <;> split <;> exact h.frame rfl rfl rfl rfl rfl rfl rfl

theorem delayedSet (h : FadeInv srv) {transition : CtrlTransition} {value : Bool}
    (hclean : DelayedClean srv transition value) : FadeInv (srv.delayedSet transition value) := by
  rw [LightCtrl.delayedSet]
  split
  · exact h
  · next hchange =>
    have hsound := hclean (by rw [hchange]; rfl)
    rw [delayedChange_eq hchange]
    refine hsound.frame rfl ?_ rfl rfl rfl rfl rfl
    split <;> rfl

theorem delayedOccupancy (h : FadeInv srv) (value : SensorValue) :
    FadeInv (srv.delayedOccupancy value) := by
  rcases srv.delayedOccupancy_cases value with heq | ⟨-, _, heq⟩ <;> rw [heq]
  · exact h
  · exact h.frame rfl rfl rfl rfl rfl rfl rfl

theorem regStep (h : FadeInv srv) : FadeInv ({ srv with regTimer := none }.regStep C) := by
  obtain ⟨_, _, _, _, heq⟩ := regStep_frame C { srv with regTimer := none }
  rw [heq]
  exact h.frame rfl rfl rfl rfl rfl rfl rfl

theorem enable (h : FadeInv srv) : FadeInv (srv.enable C) := by
  simp only [LightCtrl.enable]
  split
  · exact h.frame rfl rfl rfl rfl rfl rfl rfl
  · split
    · exact of_not_fading fun hfading => hfading.2.2 rfl
    · exact h.frame rfl rfl rfl rfl rfl rfl rfl

theorem disable (h : FadeInv srv) : FadeInv (srv.disable C) := by
  simp only [LightCtrl.disable]
  split
  · exact h.frame rfl rfl rfl rfl rfl rfl rfl
  · exact of_not_fading fun hfading => by cases hfading.1

theorem propSet (hguard : ¬ srv.Fading) (id : LightCtrlProp) (val : SensorValue) :
    FadeInv (srv.propSet id val) := by
  apply of_not_fading
  intro hfading
  apply hguard
  cases id <;> exact hfading

theorem lightnessMsg (h : FadeInv srv) (msg : LevelMsg) : FadeInv (srv.lightnessMsg C msg) := by
  cases msg with
  | set repr val transition => exact of_not_fading fun hfading => by cases hfading.1
  | _ => exact h.frame rfl rfl rfl rfl rfl rfl rfl

theorem remaining_elapseTimer (ms : UInt32) (timer : Option UInt32) :
    (remaining (elapseTimer ms timer)).toNat ≤ (remaining timer).toNat := by
  cases timer with
  | none => exact Nat.le_refl _
  | some left =>
    simp only [remaining, elapseTimer, Option.map_some, Option.getD_some]
    have hmin : min left ms ≤ left := by
      change (if left ≤ ms then left else ms) ≤ left
      split
      · exact UInt32.le_refl _
      · next hle => exact UInt32.le_of_lt (UInt32.not_le.mp hle)
    rw [UInt32.toNat_sub_of_le _ _ hmin]
    exact Nat.sub_le ..

theorem elapse (h : FadeInv srv) (ms : UInt32) : FadeInv (srv.elapse ms) := by
  intro hfading
  have hle := remaining_elapseTimer ms srv.timer
  have hshorter : ∀ {start stop}, Interpolates start stop srv.fade.duration.toNat
      (remaining srv.timer).toNat → start = stop
        ∨ (remaining (elapseTimer ms srv.timer)).toNat ≤ srv.fade.duration.toNat :=
    fun h => h.imp id fun h => hle.trans h.1
  obtain ⟨hlight, hlux, hinitial, hend⟩ := h hfading
  exact ⟨hlight.retime (hshorter hlight), hlux.retime (hshorter hlux), hinitial, hend⟩

theorem command (h : FadeInv srv) {onoff : Bool} (hclean : CommandClean srv onoff fadeTime) :
    FadeInv (if onoff then srv.turnOn C fadeTime else srv.turnOff C fadeTime) := by
  rw [CommandClean] at hclean
  split
  · next hon =>
    rw [if_pos hon] at hclean
    exact h.turnOn hclean
  · next hoff =>
    rw [if_neg hoff] at hclean
    exact h.turnOff hclean

theorem lightOnoffSet (h : FadeInv srv) {onoff : Bool} {transition : Option CtrlTransition}
    (hguard : FadeGuard C srv (.lightOnoffSet onoff transition)) :
    FadeInv (srv.lightOnoffSet C onoff transition) := by
  cases transition with
  | none => exact h.command hguard
  | some transition =>
    simp only [LightCtrl.lightOnoffSet]
    simp only [FadeGuard] at hguard
    split
    · next hdelay =>
      rw [if_pos hdelay] at hguard
      exact h.delayedSet hguard
    · next hdelay =>
      rw [if_neg hdelay] at hguard
      exact h.command hguard

theorem onoffSet (h : FadeInv srv) {onOff : Bool} {transition : CtrlTransition}
    (hguard : FadeGuard C srv (.onoffSet onOff transition)) :
    FadeInv (srv.onoffSet C onOff transition) := by
  simp only [LightCtrl.onoffSet]
  simp only [FadeGuard] at hguard
  split
  · next hdelay =>
    rw [if_pos hdelay] at hguard
    exact h.delayedSet hguard
  · next hdelay =>
    rw [if_neg hdelay] at hguard
    exact h.command hguard

theorem handleSensorStatus (h : FadeInv srv) {entry : SensorEntry}
    (hguard : FadeGuard C srv (.sensorStatus entry)) :
    FadeInv (srv.handleSensorStatus C entry) := by
  cases entry with
  | ambientLightLevel value => exact h.frame rfl rfl rfl rfl rfl rfl rfl
  | timeSinceMotionSensed value =>
    simp only [LightCtrl.handleSensorStatus]
    split
    · exact h
    · exact h.delayedOccupancy value
  | occupancy value =>
    simp only [LightCtrl.handleSensorStatus]
    split
    · exact h
    · next hmode =>
      split
      · next hsensed => exact h.turnOn (hguard hmode hsensed)
      · exact h

theorem start (hstill : srv.flags.transition = false) {mode : OnPowerUp} {time : UInt32}
    (hclean : mode = .restore → srv.flags.on = true → OnClean srv none) :
    FadeInv (srv.start C mode time) := by
  have hidle : ¬ srv.Fading := by simp [Fading, hstill]
  cases mode with
  | off =>
    simp only [LightCtrl.start]
    split
    · exact of_not_fading fun hfading => hfading.2.2 rfl
    · exact of_not_fading fun hfading => by cases hfading.1
  | on =>
    simp only [LightCtrl.start]
    split
    · exact of_not_fading fun hfading => hfading.2.2 rfl
    · exact of_not_fading fun hfading => by cases hfading.1
  | restore =>
    simp only [LightCtrl.start]
    split
    · split
      · next hon =>
        apply turnOn
        · exact of_not_fading hidle
        · exact hclean rfl hon
      · exact of_not_fading hidle
    · split <;> exact of_not_fading hidle

theorem powerUp {calls : List Bool} {mode : OnPowerUp} {time : UInt32}
    (hguard : FadeGuard C srv (.powerUp calls mode time)) :
    FadeInv (srv.powerUp C calls mode time) := by
  have hstill : (srv.reload C calls).flags.transition = false := by rw [reload_eq]
  exact start hstill hguard

theorem step (h : FadeInv srv) {e : Event} (hguard : FadeGuard C srv e) :
    FadeInv (srv.step C e) := by
  cases e with
  | elapse ms => exact h.elapse ms
  | timer =>
    rw [LightCtrl.step]
    split
    · next htimer => exact timeout htimer hguard
    · exact h
  | actionDelay =>
    rw [LightCtrl.step]
    split
    · next htimer => exact h.delayedActionTimeout htimer hguard
    · exact h
  | storeTimer =>
    rw [LightCtrl.step]
    split
    · exact h.storeTimeout
    · exact h
  | regTimer =>
    rw [LightCtrl.step]
    split
    · exact h.regStep
    · exact h
  | lightOnoffSet onoff transition => exact h.lightOnoffSet hguard
  | onoffSet onOff transition => exact h.onoffSet hguard
  | on => exact h.turnOn hguard
  | off => exact h.turnOff hguard
  | enable => exact h.enable
  | disable => exact h.disable
  | omSet mode => exact h.frame rfl rfl rfl rfl rfl rfl rfl
  | sensorStatus entry => exact h.handleSensorStatus hguard
  | propSet id val => exact propSet hguard id val
  | lightnessMsg msg => exact h.lightnessMsg msg
  | powerUp calls mode time => exact powerUp hguard

end FadeInv

/-- In a run whose events meet the guard, every fade stays between its ends and meets them. -/
theorem fadeKeeps_of_reached {calls : List Bool} {mode : OnPowerUp} {time : UInt32}
    (hreached : Reached (step C) (FadeGuard C) ((blank C).powerUp C calls mode time) srv) :
    FadeKeeps srv := by
  have hinit : FadeInv ((blank C).powerUp C calls mode time) := by
    apply FadeInv.powerUp
    intro _ hon
    rw [reload_eq] at hon
    cases hon
  apply fadeKeeps_of_fadeInv
  exact hreached.invariant hinit fun _ _ h hguard => h.step hguard

def risingConfig : LightCtrlConfig :=
  { LightCtrlConfig.default with
    cfg := { LightCtrlConfig.default.cfg with light := ⟨60000, 50000, 55000⟩ }
    regCfg := { LightCtrlConfig.default.regCfg with lux := ⟨⟨500, 0⟩, ⟨500, 0⟩, ⟨500, 0⟩⟩ } }

def interrupted : List Event := [.timer, .on, .elapse 250, .off, .elapse 250]

theorem fadeKeeps_interrupted : FadeKeeps (interrupted.foldl (step risingConfig)
    ((blank risingConfig).powerUp risingConfig [true] .off 0)) := by
  apply fadeKeeps_of_reached
  apply Reached.run .start
  refine ⟨?_, ?_, trivial, ?_, trivial, trivial⟩
  · intro _ hstill
    cases hstill
  · intro _
    exact show StartClean _ .on 500 by decide
  · intro _ _
    exact show StartClean _ .standby 500 by decide

/-- With the default levels, the same fade goes down, and does not end at the level of Standby. -/
theorem not_fadeKeeps_down :
    Reached (step .default) (fun _ _ => True) enabledServer
        ([.timer, .on, .elapse 250, .off, .elapse 500].foldl (step .default) enabledServer)
      ∧ ¬ FadeKeeps
        ([.timer, .on, .elapse 250, .off, .elapse 500].foldl (step .default) enabledServer) := by
  refine ⟨Reached.run .start ⟨trivial, trivial, trivial, trivial, trivial, trivial⟩, ?_⟩
  intro h
  exact absurd (h.light_end (by decide) (by decide)) (by decide)

end LightCtrl

end SdkNrf.Mesh
