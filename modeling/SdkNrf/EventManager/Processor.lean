import SdkNrf.Framework.Contract

/-!
# Event processing

Events are appended to a queue by any context.
-/

namespace SdkNrf.EventManager

variable {σ ε : Type*}

/-- What a listener does: the state of the modules after it, the events it submits, and whether it
consumes the event. -/
structure Notified (σ ε : Type*) where
  modules : σ
  submitted : List ε
  consumed : Bool

def notifyFrom : List (σ → ε → Notified σ ε) → σ → ε → Notified σ ε
  | [], modules, _ => ⟨modules, [], false⟩
  | notification :: rest, modules, event =>
    let first := notification modules event
    if first.consumed then first
    else
      let others := notifyFrom rest first.modules event
      ⟨others.modules, first.submitted ++ others.submitted, others.consumed⟩

def notify : List (List (σ → ε → Notified σ ε)) → σ → ε → Notified σ ε
  | [], modules, _ => ⟨modules, [], false⟩
  | prio :: rest, modules, event =>
    let first := notifyFrom prio modules event
    if first.consumed then first
    else
      let others := notify rest first.modules event
      ⟨others.modules, first.submitted ++ others.submitted, others.consumed⟩

/-- The answers of the listeners that an event is shown to: one after the other, each with what the ones
before it have left, up to the first that consumes the event. -/
inductive Shown (event : ε) : List (σ → ε → Notified σ ε) → σ → List (Notified σ ε) → Prop
  | done (modules : σ) : Shown event [] modules []
  | consumed {notification : σ → ε → Notified σ ε} {modules : σ}
      (h : (notification modules event).consumed = true) (rest : List (σ → ε → Notified σ ε)) :
      Shown event (notification :: rest) modules [notification modules event]
  | passed {notification : σ → ε → Notified σ ε} {modules : σ} {rest : List (σ → ε → Notified σ ε)}
      {answers : List (Notified σ ε)} (h : (notification modules event).consumed = false)
      (hrest : Shown event rest (notification modules event).modules answers) :
      Shown event (notification :: rest) modules (notification modules event :: answers)

def Notified.total (modules : σ) (answers : List (Notified σ ε)) : Notified σ ε :=
  ⟨(answers.getLast?.map Notified.modules).getD modules, answers.flatMap Notified.submitted,
    answers.any Notified.consumed⟩

theorem Notified.total_cons (modules : σ) (answer : Notified σ ε) (answers : List (Notified σ ε)) :
    Notified.total modules (answer :: answers) =
      ⟨(Notified.total answer.modules answers).modules,
        answer.submitted ++ (Notified.total answer.modules answers).submitted,
        answer.consumed || (Notified.total answer.modules answers).consumed⟩ := by
  cases h : answers.getLast? <;> simp [Notified.total, List.getLast?_cons, h]

theorem notifyFrom_shown (listeners : List (σ → ε → Notified σ ε)) (modules : σ) (event : ε) :
    ∃ answers, Shown event listeners modules answers ∧
      notifyFrom listeners modules event = .total modules answers := by
  induction listeners generalizing modules with
  | nil => exact ⟨[], .done modules, rfl⟩
  | cons notification rest ih =>
    rw [notifyFrom]
    cases hconsumed : (notification modules event).consumed with
    | true => exact ⟨_, .consumed hconsumed rest, by simp [Notified.total]⟩
    | false =>
      obtain ⟨answers, hshown, heq⟩ := ih (notification modules event).modules
      refine ⟨_, .passed hconsumed hshown, ?_⟩
      rw [Notified.total_cons, ← heq, hconsumed]
      rfl

theorem notifyFrom_append (first others : List (σ → ε → Notified σ ε)) (modules : σ) (event : ε) :
    notifyFrom (first ++ others) modules event =
      if (notifyFrom first modules event).consumed then notifyFrom first modules event
      else
        let rest := notifyFrom others (notifyFrom first modules event).modules event
        ⟨rest.modules, (notifyFrom first modules event).submitted ++ rest.submitted, rest.consumed⟩ := by
  induction first generalizing modules with
  | nil => rfl
  | cons notification first ih =>
    rw [List.cons_append, notifyFrom, notifyFrom]
    cases hconsumed : (notification modules event).consumed with
    | true => simp [hconsumed]
    | false =>
      rw [ih]
      cases hrest : (notifyFrom first (notification modules event).modules event).consumed <;>
        simp [hrest]

/-- The priorities are one list of listeners. -/
theorem notify_eq_notifyFrom (prios : List (List (σ → ε → Notified σ ε))) (modules : σ) (event : ε) :
    notify prios modules event = notifyFrom prios.flatten modules event := by
  induction prios generalizing modules with
  | nil => rfl
  | cons prio rest ih => rw [notify, List.flatten_cons, notifyFrom_append, ih]

/-- The queue, the list that the work item has taken from it, whether the work item is submitted, the state of
the modules, and what the running listeners are still about to submit. -/
structure Manager (σ ε : Type*) where
  eventq : List ε
  events : List ε
  pending : Bool
  modules : σ
  submitting : List ε

def Manager.submit (m : Manager σ ε) (event : ε) : Manager σ ε :=
  { m with eventq := m.eventq ++ [event], pending := true }

/-- What happens next: another context submits an event, a listener does, the work item starts, or it handles
the next event. -/
inductive Turn (ε : Type*)
  | submit (event : ε)
  | listener
  | start
  | process

/-- One turn; `none` is a turn that is not possible. -/
def Manager.turn (subs : ε → List (List (σ → ε → Notified σ ε))) (m : Manager σ ε) :
    Turn ε → Option (Manager σ ε)
  | .submit event => some (m.submit event)
  | .listener =>
    match m.submitting with
    | [] => none
    | event :: rest => some { m.submit event with submitting := rest }
  | .start =>
    if m.pending ∧ m.events = [] ∧ m.submitting = [] then
      some { m with events := m.eventq, eventq := [], pending := false }
    else none
  | .process =>
    match m.events, m.submitting with
    | event :: rest, [] =>
      let notified := notify (subs event) m.modules event
      some { m with events := rest, modules := notified.modules, submitting := notified.submitted }
    | _, _ => none

/-- The manager, and the events that were submitted and that were handled so far. -/
structure Traced (σ ε : Type*) where
  manager : Manager σ ε
  submitted : List ε
  handled : List ε

def Manager.submitsNow (m : Manager σ ε) : Turn ε → List ε
  | .submit event => [event]
  | .listener => m.submitting.take 1
  | _ => []

def Manager.handlesNow (m : Manager σ ε) : Turn ε → List ε
  | .process => m.events.take 1
  | _ => []

def Traced.turn (subs : ε → List (List (σ → ε → Notified σ ε))) (t : Traced σ ε) (turn : Turn ε) :
    Option (Traced σ ε) :=
  (t.manager.turn subs turn).map fun manager =>
    ⟨manager, t.submitted ++ t.manager.submitsNow turn, t.handled ++ t.manager.handlesNow turn⟩

def Traced.start (modules : σ) : Traced σ ε := ⟨⟨[], [], false, modules, []⟩, [], []⟩

/-- The events are handled in their order, none twice and none left out; the modules are as if one after the
other of them had been handled; and the work item is submitted while the queue has events. -/
structure Traced.InOrder (subs : ε → List (List (σ → ε → Notified σ ε))) (modules : σ) (t : Traced σ ε) :
    Prop where
  order : t.submitted = t.handled ++ t.manager.events ++ t.manager.eventq
  modules : t.manager.modules = t.handled.foldl (fun s event => (notify (subs event) s event).modules) modules
  pending : t.manager.eventq ≠ [] → t.manager.pending = true

variable {subs : ε → List (List (σ → ε → Notified σ ε))} {modules : σ} {t t' : Traced σ ε}

theorem Traced.InOrder.turn (h : t.InOrder subs modules) {turn : Turn ε}
    (hturn : t.turn subs turn = some t') :
    t'.InOrder subs modules := by
  obtain ⟨manager, hmanager, rfl⟩ := Option.map_eq_some_iff.mp hturn
  cases turn with
  | submit event =>
    obtain rfl := Option.some.inj hmanager
    exact ⟨by simp [Manager.submit, Manager.submitsNow, Manager.handlesNow, h.order],
      by simp [Manager.submit, Manager.handlesNow, h.modules], fun _ => rfl⟩
  | listener =>
    rw [Manager.turn] at hmanager
    cases hnext : t.manager.submitting with
    | nil => simp [hnext] at hmanager
    | cons event rest =>
      simp only [hnext, Option.some.injEq] at hmanager
      subst hmanager
      exact ⟨by simp [Manager.submit, Manager.submitsNow, Manager.handlesNow, hnext, h.order],
        by simp [Manager.submit, Manager.handlesNow, h.modules], fun _ => rfl⟩
  | start =>
    rw [Manager.turn] at hmanager
    split at hmanager
    next hidle =>
      obtain rfl := Option.some.inj hmanager
      exact ⟨by simp [Manager.submitsNow, Manager.handlesNow, h.order, hidle.2.1],
        by simp [Manager.handlesNow, h.modules], fun hne => absurd rfl hne⟩
    next => contradiction
  | process =>
    rw [Manager.turn] at hmanager
    cases hevents : t.manager.events with
    | nil => simp [hevents] at hmanager
    | cons event rest =>
      cases hnext : t.manager.submitting with
      | cons => simp [hevents, hnext] at hmanager
      | nil =>
        simp only [hevents, hnext, Option.some.injEq] at hmanager
        subst hmanager
        exact ⟨by simp [Manager.submitsNow, Manager.handlesNow, hevents, h.order],
          by simp [Manager.handlesNow, hevents, h.modules], h.pending⟩

/-- Every order of turns: when nothing is left to do, all events that were submitted have been handled. An
event is shown to the listeners in the order of their priorities up to the one that consumes it. -/
theorem events_in_order
    (ht : Reaches (Traced.turn subs) (fun _ _ => True) (Traced.start modules) t) :
    t.InOrder subs modules ∧
      (t.manager.pending = false → t.manager.events = [] → t.handled = t.submitted) ∧
      ∀ event before, ∃ answers, Shown event (subs event).flatten before answers ∧
        notify (subs event) before event = .total before answers := by
  have horder : t.InOrder subs modules := by
    induction ht with
    | start => exact ⟨rfl, rfl, fun h => absurd rfl h⟩
    | next _ turn _ hturn ih => exact ih.turn hturn
  refine ⟨horder, fun hpending hevents => ?_, fun event before => ?_⟩
  case refine_2 =>
    rw [notify_eq_notifyFrom]
    exact notifyFrom_shown _ before event
  have heventq : t.manager.eventq = [] := by
    by_contra hne
    rw [horder.pending hne] at hpending
    contradiction
  rw [horder.order, hevents, heventq, List.append_nil, List.append_nil]

private def countdown (_ : Nat) : List (List (List Nat → Nat → Notified (List Nat) Nat)) :=
  [[fun s n => ⟨s ++ [n], if n = 0 then [] else [n - 1], false⟩], [fun s n => ⟨s, [], n = 0⟩],
    [fun s n => ⟨s ++ [100 + n], [], false⟩]]

theorem events_in_order_countdown : ∃ t : Traced (List Nat) Nat,
    t.handled = [1, 0] ∧ t.manager.modules = [1, 101, 0] ∧ t.InOrder countdown [] ∧
      (t.manager.pending = false → t.manager.events = [] → t.handled = t.submitted) ∧
      ∀ event before, ∃ answers, Shown event (countdown event).flatten before answers ∧
        notify (countdown event) before event = .total before answers :=
  ⟨_, rfl, rfl, events_in_order (.next (.next (.next (.next (.next (.next .start (.submit 1) trivial rfl)
    .start trivial rfl) .process trivial rfl) .listener trivial rfl) .start trivial rfl) .process trivial rfl)⟩

end SdkNrf.EventManager
