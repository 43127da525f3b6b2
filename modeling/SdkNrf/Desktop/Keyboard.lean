import SdkNrf.Desktop.Buttons
import SdkNrf.Desktop.HidSystem

/-!
# From the key matrix to the reports

Scans submit events, the event manager hands them to the listener for function keys, and what that
lets through or submits itself reaches the HID state.
-/

namespace SdkNrf.Desktop.Keyboard

open SdkNrf.EventManager SdkNrf.Desktop.FnKeys SdkNrf.Desktop.Buttons

structure System where
  scanned : Scanned
  manager : Manager (FnKeys.State × List ButtonEvent) ButtonEvent

inductive Turn
  | scan (rawState : Masks)
  | listener
  | start
  | process

section Code

variable (cfg : FnKeys.Config) (mx : Matrix)

def System.step (t : System) : Turn → Option System
  | .scan rawState =>
    let scanned := Buttons.scan mx t.scanned rawState
    some ⟨scanned.1, scanned.2.foldl Manager.submit t.manager⟩
  | .listener => (t.manager.turn (subs cfg) .listener).map fun manager => { t with manager := manager }
  | .start => (t.manager.turn (subs cfg) .start).map fun manager => { t with manager := manager }
  | .process => (t.manager.turn (subs cfg) .process).map fun manager => { t with manager := manager }

def System.init (fnLockActive : Bool) : System :=
  ⟨⟨fun _ => 0, fun _ => 0⟩, ⟨[], [], false, (⟨false, fnLockActive, []⟩, []), []⟩⟩

def physOf (settledState : Masks) (k : UInt16) : Bool :=
  decide (k.toNat / 128 < mx.columns ∧ k.toNat % 128 < mx.rows) &&
    getBit (settledState (k.toNat / 128)) (k.toNat % 128)

def hidPressed (log : List ButtonEvent) : List UInt16 :=
  log.foldl (fun keys e => HidReports.pressedAfter (.button e.1 e.2 none) keys) []

end Code

variable {cfg : FnKeys.Config} {mx : Matrix} {t t' : System}

theorem hidPressed_eq (log : List ButtonEvent) : hidPressed log = pressedBy log := by
  rw [hidPressed, pressedBy]
  congr 1
  funext keys e
  obtain ⟨k, p⟩ := e
  cases p <;> rfl

theorem KEY_ID_place {i j : Nat} (hmx : mx.Valid) (hi : i < mx.columns) (hj : j < mx.rows) :
    (KEY_ID i j).toNat / 128 = i ∧ (KEY_ID i j).toNat % 128 = j := by
  obtain ⟨hcolumns, hrows⟩ := hmx
  rw [KEY_ID_toNat]
  omega

theorem physOf_KEY_ID {i j : Nat} (hmx : mx.Valid) (hi : i < mx.columns) (hj : j < mx.rows)
    (settledState : Masks) : physOf mx settledState (KEY_ID i j) = getBit (settledState i) j := by
  obtain ⟨hcol, hrow⟩ := KEY_ID_place hmx hi hj
  simp [physOf, hcol, hrow, hi, hj]

theorem physOf_update {i j : Nat} (hmx : mx.Valid) (hi : i < mx.columns) (hj : j < mx.rows)
    (settledState : Masks)
    (set : Bool) : physOf mx (Function.update settledState i (WRITE_BIT (settledState i) j set)) =
      Function.update (physOf mx settledState) (KEY_ID i j) set := by
  obtain ⟨hcol, hrow⟩ := KEY_ID_place hmx hi hj
  obtain ⟨hcolumns, hrows⟩ := hmx
  funext k
  by_cases hk : k = KEY_ID i j
  · subst hk
    rw [Function.update_self, physOf, hcol, hrow, getBit_update _ _ _ (by omega) _ _ _ (by omega)]
    simp [hi, hj]
  · rw [Function.update_of_ne hk, physOf, physOf]
    by_cases hplace : k.toNat / 128 < mx.columns ∧ k.toNat % 128 < mx.rows
    · rw [getBit_update _ _ _ (by omega) _ _ _ (by omega), if_neg]
      intro heq
      obtain ⟨hc, hr⟩ := Prod.mk.inj heq
      apply hk
      rw [← UInt16.toNat_inj, KEY_ID_toNat]
      omega
    · simp [hplace]

theorem replacing_emit {s : FnKeys.State} {log waiting submitting : List ButtonEvent}
    {rawState curState : Masks}
    (hmx : mx.Valid) (l : List (Nat × Nat)) (hl : ∀ x ∈ l, x.1 < mx.columns ∧ x.2 < mx.rows)
    (settledState : Masks) (evtLimit : Nat)
    (h : Replacing cfg (physOf mx settledState) s log waiting submitting) :
    Replacing cfg (physOf mx (emitFrom mx rawState curState l settledState evtLimit).1) s log
      (waiting ++ (emitFrom mx rawState curState l settledState evtLimit).2) submitting := by
  induction l generalizing settledState evtLimit waiting with
  | nil => simpa [emitFrom] using h
  | cons x rest ih =>
    obtain ⟨i, j⟩ := x
    obtain ⟨⟨hi, hj⟩, hl⟩ := List.forall_mem_cons.mp hl
    rw [emitFrom]
    by_cases hemit : getBit (curState i) j ≠ getBit (settledState i) j ∧
        getBit (curState i) j = getBit (rawState i) j ∧ evtLimit < mx.eventLimit
    · have hflip : getBit (curState i) j = !physOf mx settledState (KEY_ID i j) := by
        rw [physOf_KEY_ID hmx hi hj]
        cases hc : getBit (curState i) j <;> simpa [hc] using hemit.1
      have hsubmit := h.submit (plain_KEY_ID i j)
      rw [← hflip, ← physOf_update hmx hi hj] at hsubmit
      have hrest := ih hl _ (evtLimit + 1) hsubmit
      rw [List.append_assoc] at hrest
      rw [if_pos hemit]
      exact hrest
    · rw [if_neg hemit]
      exact ih hl settledState evtLimit h

theorem foldl_submit (m : Manager (FnKeys.State × List ButtonEvent) ButtonEvent) (l : List ButtonEvent) :
    (l.foldl Manager.submit m).eventq = m.eventq ++ l ∧ (l.foldl Manager.submit m).events = m.events ∧
      (l.foldl Manager.submit m).modules = m.modules ∧
        (l.foldl Manager.submit m).submitting = m.submitting := by
  induction l generalizing m with
  | nil => simp
  | cons e l ih =>
    obtain ⟨heventq, hevents, hmodules, hsubmitting⟩ := ih (m.submit e)
    exact ⟨by rw [List.foldl_cons, heventq, Manager.submit, List.append_assoc]; rfl, hevents,
      hmodules, hsubmitting⟩

def Follows (cfg : FnKeys.Config) (mx : Matrix) (t : System) : Prop :=
  Replacing cfg (physOf mx t.scanned.settledState) t.manager.modules.1 t.manager.modules.2
    (t.manager.events ++ t.manager.eventq) t.manager.submitting

theorem Follows.init (cfg : FnKeys.Config) (mx : Matrix) (fnLockActive : Bool) :
    Follows cfg mx (.init fnLockActive) := by
  have hphys : physOf mx (fun _ => 0) = fun _ => false := by
    funext k
    simp [physOf, getBit]
  have hstart := Replacing.start cfg fnLockActive
  rw [← hphys] at hstart
  exact hstart

theorem Follows.step (hcfg : cfg.Valid) (hmx : mx.Valid) (h : Follows cfg mx t) {turn : Turn}
    (hstep : t.step cfg mx turn = some t') : Follows cfg mx t' := by
  cases turn with
  | scan rawState =>
    obtain rfl := Option.some.inj hstep
    obtain ⟨heventq, hevents, hmodules, hsubmitting⟩ :=
      foldl_submit t.manager (scan mx t.scanned rawState).2
    rw [Follows, heventq, hevents, hmodules, hsubmitting, ← List.append_assoc]
    exact replacing_emit hmx (places mx) (fun x hx => mem_places.mp hx) _ 0 h
  | listener =>
    obtain ⟨manager, hturn, rfl⟩ := Option.map_eq_some_iff.mp hstep
    rw [Manager.turn] at hturn
    cases hnext : t.manager.submitting with
    | nil => simp [hnext] at hturn
    | cons e rest =>
      simp only [hnext, Option.some.injEq] at hturn
      subst hturn
      rw [Follows, hnext] at h
      rw [Follows, Manager.submit, ← List.append_assoc]
      exact h.listener
  | start =>
    obtain ⟨manager, hturn, rfl⟩ := Option.map_eq_some_iff.mp hstep
    rw [Manager.turn] at hturn
    split at hturn
    next hidle =>
      obtain rfl := Option.some.inj hturn
      rw [Follows, hidle.2.1, List.nil_append] at h
      rw [Follows, List.append_nil]
      exact h
    next => contradiction
  | process =>
    obtain ⟨manager, hturn, rfl⟩ := Option.map_eq_some_iff.mp hstep
    rw [Manager.turn] at hturn
    cases hevents : t.manager.events with
    | nil => simp [hevents] at hturn
    | cons e rest =>
      cases hnext : t.manager.submitting with
      | cons => simp [hevents, hnext] at hturn
      | nil =>
        simp only [hevents, hnext, Option.some.injEq] at hturn
        subst hturn
        rw [Follows, hevents, hnext] at h
        exact h.handle hcfg

end SdkNrf.Desktop.Keyboard
