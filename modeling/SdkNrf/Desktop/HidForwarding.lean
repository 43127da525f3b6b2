import SdkNrf.Framework.Waiting
import SdkNrf.Desktop.HidRelease

/-!
# Order and loss of forwarded reports

Every report that arrives is forwarded, dropped or waits, and the reports of a peripheral with one report id
leave in the order of their arrival.
-/

namespace SdkNrf.Desktop.HidForward

def Entry.left? : Entry → Option Report
  | .forwarded r => some r
  | .dropped r _ => some r
  | _ => none

def left (log : List Entry) : List Report := log.filterMap Entry.left?

def forwardedTo (log : List Entry) (subscriber : Nat) : Nat :=
  (log.filterMap Entry.forwarded?).countP fun r => r.subscriber = some subscriber

def confirmedBy (log : List Entry) (subscriber : Nat) : Nat := log.count (.confirmed subscriber)

def Report.key (r : Report) : Nat × Nat := (r.peripheral, r.reportId)

def Legit (cfg : Config) (r : Report) : Cause → Prop
  | .full length => length = cfg.maxEnqueuedItems
  | .notEnabled enabled suspended => enabled = false ∧ suspended = false
  | .cleared subscriber => r.subscriber = some subscriber

instance (cfg : Config) (r : Report) (c : Cause) : Decidable (Legit cfg r c) := by
  cases c <;> unfold Legit <;> infer_instance

/-- A subscriber is busy while it has not confirmed a report; reports leave in the order of arrival, so
that one that is dropped from a full queue is its oldest one; none gets lost otherwise. -/
structure ForwardRight (cfg : Config) (s : State) : Prop where
  unconfirmed : ∀ i < cfg.deviceCount, ∀ subscriber, (s.subscribers i).id = some subscriber →
    forwardedTo s.log subscriber =
      confirmedBy s.log subscriber + if (s.subscribers i).busy then 1 else 0
  unattached : ∀ i < cfg.deviceCount, (s.subscribers i).id = none → (s.subscribers i).busy = false
  own : ∀ r ∈ s.log.filterMap Entry.forwarded?,
    ∃ i < cfg.deviceCount, (s.subscribers i).id ≠ none ∧ r.subscriber = (s.subscribers i).id
  counts : ∀ perId reportId, (s.queue perId reportId).count = (s.queue perId reportId).list.length ∧
    (s.queue perId reportId).count ≤ cfg.maxEnqueuedItems
  order : (left s.log).Pairwise fun r r' => r.key = r'.key → r.number < r'.number
  oldest : ∀ perId reportId, ∀ r ∈ (s.queue perId reportId).list, ∀ r' ∈ left s.log,
    r'.key = r.key → r'.number < r.number
  dropped : ∀ r cause, .dropped r cause ∈ s.log → Legit cfg r cause
  accounted : ∀ n < s.arrivals, ∃ r : Report, r.number = n ∧
    (r ∈ left s.log ∨ ∃ perId reportId, r ∈ (s.queue perId reportId).list)

def Confirmable (s : State) : Event → Prop
  | .reportSent subscriber => confirmedBy s.log subscriber < forwardedTo s.log subscriber
  | _ => True

def Orderly (cfg : Config) (s : State) (e : Event) : Prop := InOrder cfg s e ∧ Confirmable s e

/-- A subscription is disabled while only reports of its subscriber wait. A peripheral comes into a slot
where only reports for its subscriber wait, and none of its own wait elsewhere. No report arrives for a
subscriber that is not known while the system is suspended. -/
def Separate (cfg : Config) (s : State) : Event → Prop
  | .report perId _ _ => s.suspended = true → (s.subscriberOf perId).id ≠ none
  | .disconnected conn => s.suspended = true → ∀ perId < cfg.maxConn,
      ∀ hidc ∈ (s.peripherals perId).hidc, hidc.conn = conn → (s.subscriberOf perId).id ≠ none
  | .subscription subscriber _ enabled => enabled = false →
      ∀ r ∈ s.enqueued cfg, r.subscriber = some subscriber
  | .connected hidc err => err = 0 → ∀ subId ∈ s.route cfg hidc.peripheral,
      ∀ perId ∈ s.freePeripheral cfg, ∀ q < cfg.maxConn, ∀ k < REPORT_ID_COUNT,
        ∀ r ∈ (s.queue q k).list, (q = perId → r.subscriber = (s.subscribers subId).id) ∧
          (r.peripheral = hidc.peripheral → q = perId)
  | _ => True

def Kept (cfg : Config) (s : State) (e : Event) : Prop := Orderly cfg s e ∧ Separate cfg s e

instance (cfg : Config) (s : State) (e : Event) : Decidable (Orderly cfg s e) := by
  have hconfirm : Decidable (Confirmable s e) := by
    induction e using Event.casesOn <;> dsimp only [Confirmable] <;> infer_instance
  exact inferInstanceAs (Decidable (_ ∧ _))

instance (cfg : Config) (s : State) (e : Event) : Decidable (Kept cfg s e) := by
  have hseparate : Decidable (Separate cfg s e) := by
    induction e using Event.casesOn <;> dsimp only [Separate] <;> infer_instance
  exact inferInstanceAs (Decidable (_ ∧ _))

section Log

variable {log : List Entry} {r : Report} {d : Nat}

@[simp] theorem left_append (log log' : List Entry) : left (log ++ log') = left log ++ left log' :=
  List.filterMap_append

@[simp] theorem left_forwarded : left [.forwarded r] = [r] := rfl

@[simp] theorem left_dropped (c : Cause) : left [.dropped r c] = [r] := rfl

@[simp] theorem left_confirmed (d : Nat) : left [.confirmed d] = [] := rfl

@[simp] theorem left_wakeUp : left [.wakeUp] = [] := rfl

@[simp] theorem forwardedTo_append (log log' : List Entry) :
    forwardedTo (log ++ log') d = forwardedTo log d + forwardedTo log' d := by
  simp [forwardedTo, List.filterMap_append]

@[simp] theorem forwardedTo_forwarded :
    forwardedTo [.forwarded r] d = if r.subscriber = some d then 1 else 0 := by
  simp [forwardedTo, Entry.forwarded?, List.countP_cons]

theorem forwardedTo_eq_zero {log : List Entry} (h : ∀ e ∈ log, e.forwarded? = none) :
    forwardedTo log d = 0 := by
  rw [forwardedTo, List.filterMap_eq_nil_iff.mpr h]
  rfl

@[simp] theorem confirmedBy_append (log log' : List Entry) :
    confirmedBy (log ++ log') d = confirmedBy log d + confirmedBy log' d :=
  List.count_append

theorem confirmedBy_eq_zero {log : List Entry} (h : ∀ e ∈ log, e ≠ .confirmed d) : confirmedBy log d = 0 :=
  List.count_eq_zero.mpr fun hmem => h _ hmem rfl

@[simp] theorem confirmedBy_confirmed (d' : Nat) :
    confirmedBy [.confirmed d'] d = if d' = d then 1 else 0 := by
  simp [confirmedBy, List.count_cons]

end Log

structure Books (cfg : Config) (subscribers : Nat → Subscriber) (log : List Entry) : Prop where
  distinct : ∀ i j d, (subscribers i).id = some d → (subscribers j).id = some d → i = j
  attached : ∀ i, (subscribers i).id ≠ none → i < cfg.deviceCount
  idle : ∀ i, (subscribers i).id = none →
    (subscribers i).enabledReportsBm = 0 ∧ (subscribers i).busy = false
  booked : ∀ i d, (subscribers i).id = some d →
    forwardedTo log d = confirmedBy log d + if (subscribers i).busy then 1 else 0
  unknown : ∀ d, (∀ i, (subscribers i).id ≠ some d) → forwardedTo log d = 0 ∧ confirmedBy log d = 0
  own : ∀ r ∈ log.filterMap Entry.forwarded?, r.subscriber ≠ none

namespace Books

variable {cfg : Config} {subscribers : Nat → Subscriber} {log log' : List Entry} {i d : Nat}
  {sub : Subscriber}

theorem append (h : Books cfg subscribers log) (hforwarded : ∀ e ∈ log', e.forwarded? = none)
    (hconfirmed : ∀ e ∈ log', ∀ d, e ≠ .confirmed d) : Books cfg subscribers (log ++ log') where
  distinct := h.distinct
  attached := h.attached
  idle := h.idle
  booked i d hid := by
    simp [forwardedTo_eq_zero hforwarded, confirmedBy_eq_zero fun e he => hconfirmed e he d,
      h.booked i d hid]
  unknown d hnone := by
    simp [forwardedTo_eq_zero hforwarded, confirmedBy_eq_zero fun e he => hconfirmed e he d,
      h.unknown d hnone]
  own r hr := by
    rw [List.filterMap_append, List.filterMap_eq_nil_iff.mpr hforwarded, List.append_nil] at hr
    exact h.own r hr

theorem replace (h : Books cfg subscribers log) (hid : sub.id = some d) (hi : i < cfg.deviceCount)
    (hold : ∀ j, j ≠ i → (subscribers j).id ≠ some d)
    (hsame : ∀ d', (subscribers i).id = some d' → d' = d)
    (hbooked : forwardedTo log' d = confirmedBy log' d + if sub.busy then 1 else 0)
    (hother : ∀ d', d' ≠ d → forwardedTo log' d' = forwardedTo log d' ∧
      confirmedBy log' d' = confirmedBy log d')
    (hown : ∀ r ∈ log'.filterMap Entry.forwarded?, r.subscriber ≠ none) :
    Books cfg (Function.update subscribers i sub) log' where
  distinct j k d' hj hk := by
    by_cases hji : j = i
    · by_cases hki : k = i
      · exact hji.trans hki.symm
      · rw [Function.update_of_ne hki] at hk
        rw [hji, Function.update_self, hid] at hj
        exact absurd (hk.trans hj.symm) (hold k hki)
    · rw [Function.update_of_ne hji] at hj
      by_cases hki : k = i
      · rw [hki, Function.update_self, hid] at hk
        exact absurd (hj.trans hk.symm) (hold j hji)
      · rw [Function.update_of_ne hki] at hk
        exact h.distinct j k d' hj hk
  attached j hj := by
    by_cases hji : j = i
    · exact hji ▸ hi
    · rw [Function.update_of_ne hji] at hj
      exact h.attached j hj
  idle j hj := by
    by_cases hji : j = i
    · rw [hji, Function.update_self, hid] at hj
      cases hj
    · rw [Function.update_of_ne hji] at hj ⊢
      exact h.idle j hj
  booked j d' hj := by
    by_cases hji : j = i
    · rw [hji, Function.update_self] at hj ⊢
      obtain rfl : d' = d := Option.some.inj (hj.symm.trans hid)
      exact hbooked
    · rw [Function.update_of_ne hji] at hj ⊢
      have hne : d' ≠ d := by
        rintro rfl
        exact hold j hji hj
      rw [(hother d' hne).1, (hother d' hne).2]
      exact h.booked j d' hj
  unknown d' hnone := by
    have hne : d' ≠ d := by
      rintro rfl
      exact hnone i (by rw [Function.update_self, hid])
    rw [(hother d' hne).1, (hother d' hne).2]
    apply h.unknown d'
    intro j hj
    by_cases hji : j = i
    · exact hne (hsame d' (hji ▸ hj))
    · exact hnone j (by rwa [Function.update_of_ne hji])
  own := hown

theorem keep (h : Books cfg subscribers log) (hid : (subscribers i).id = some d) (hsub : sub.id = some d)
    (hbooked : forwardedTo log' d = confirmedBy log' d + if sub.busy then 1 else 0)
    (hother : ∀ d', d' ≠ d → forwardedTo log' d' = forwardedTo log d' ∧
      confirmedBy log' d' = confirmedBy log d')
    (hown : ∀ r ∈ log'.filterMap Entry.forwarded?, r.subscriber ≠ none) :
    Books cfg (Function.update subscribers i sub) log' := by
  apply h.replace hsub (h.attached i (by simp [hid])) ?_ ?_ hbooked hother hown
  · intro j hj hjd
    exact hj (h.distinct j i d hjd hid)
  · intro d' hd'
    exact Option.some.inj (hd'.symm.trans hid)

theorem forward (h : Books cfg subscribers log) {r : Report} (hid : (subscribers i).id = some d)
    (hsub : sub.id = some d) (hidle : (subscribers i).busy = false) (hbusy : sub.busy = true)
    (hr : r.subscriber = some d) : Books cfg (Function.update subscribers i sub) (log ++ [.forwarded r]) := by
  have hbooked := h.booked i d hid
  apply h.keep hid hsub
  · simp [hr, hbusy, hbooked, hidle, confirmedBy]
  · intro d' hd'
    simp [hr, hd'.symm, confirmedBy]
  · intro r' hr'
    rw [List.filterMap_append] at hr'
    rcases List.mem_append.mp hr' with hr' | hr'
    · exact h.own r' hr'
    · obtain rfl : r' = r := by simpa [Entry.forwarded?] using hr'
      simp [hr]

theorem confirm (h : Books cfg subscribers log) (hid : (subscribers i).id = some d)
    (hsub : sub.id = some d) (hbusy : sub.busy = false) (hpending : confirmedBy log d < forwardedTo log d) :
    Books cfg (Function.update subscribers i sub) (log ++ [.confirmed d]) := by
  have hbooked := h.booked i d hid
  have hnone (e : Entry) (he : e ∈ [Entry.confirmed d]) : e.forwarded? = none := by
    rw [List.mem_singleton.mp he]
    rfl
  apply h.keep hid hsub
  · rw [forwardedTo_append, confirmedBy_append, forwardedTo_eq_zero hnone]
    simp only [confirmedBy_confirmed, hbusy]
    split at hbooked <;> simp <;> omega
  · intro d' hd'
    simp [forwardedTo_eq_zero hnone, hd'.symm]
  · intro r hr
    rw [List.filterMap_append, List.filterMap_eq_nil_iff.mpr hnone, List.append_nil] at hr
    exact h.own r hr

theorem attach (h : Books cfg subscribers log) (hi : i < cfg.deviceCount) (hnone : (subscribers i).id = none)
    (hnew : ∀ j, (subscribers j).id ≠ some d) (hsub : sub.id = some d) (hidle : sub.busy = false) :
    Books cfg (Function.update subscribers i sub) log := by
  have hunknown := h.unknown d hnew
  apply h.replace hsub hi (fun j _ => hnew j) ?_ ?_ (fun d' _ => ⟨rfl, rfl⟩) h.own
  · intro d' hd'
    rw [hnone] at hd'
    cases hd'
  · simp [hunknown, hidle]

end Books

section Enqueue

variable {cfg : Config} {s : State} {q : Nat} {r : Report} {arrivals : Nat}

theorem State.enqueue_of_lt (hroom : (s.queue q r.reportId).count < cfg.maxEnqueuedItems) :
    ({ s with arrivals := arrivals } : State).enqueue cfg q r =
      { s.setQueue q r.reportId ⟨(s.queue q r.reportId).list ++ [r], (s.queue q r.reportId).count + 1⟩ with
        log := s.log
        arrivals := arrivals } := by
  have hcount : (({ s with arrivals := arrivals } : State).queue q r.reportId).count <
      cfg.maxEnqueuedItems := hroom
  rw [State.enqueue, EnqueuedReports.enqueueHidReport, if_pos hcount]
  rfl

theorem State.enqueue_of_full (hfull : ¬ (s.queue q r.reportId).count < cfg.maxEnqueuedItems)
    {oldest : Report} {rest : List Report} (hlist : (s.queue q r.reportId).list = oldest :: rest) :
    ({ s with arrivals := arrivals } : State).enqueue cfg q r =
      { s.setQueue q r.reportId ⟨rest ++ [r], (s.queue q r.reportId).count⟩ with
        log := s.log ++ [.dropped oldest (.full (rest.length + 1))]
        arrivals := arrivals } := by
  have hcount : ¬ (({ s with arrivals := arrivals } : State).queue q r.reportId).count <
      cfg.maxEnqueuedItems := hfull
  have hqueue : (({ s with arrivals := arrivals } : State).queue q r.reportId).list = oldest :: rest := hlist
  rw [State.enqueue, EnqueuedReports.enqueueHidReport, if_neg hcount, hqueue]
  rfl

end Enqueue

/-- What waits in the slot of a peripheral is for its subscriber, and what waits for the peripheral does so
in its slot. -/
structure Connected (cfg : Config) (s : State) (q : Nat) (hidc : Hidc) : Prop where
  slot : q < cfg.maxConn
  inputs : ∀ input ∈ hidc.inputs, input.1 < REPORT_ID_COUNT
  subscriber : ∀ k, ∀ r ∈ (s.queue q k).list, r.subscriber = (s.subscriberOf q).id
  home : ∀ q' k, ∀ r ∈ (s.queue q' k).list, r.peripheral = hidc.peripheral → q' = q

structure ForwardInv (cfg : Config) (s : State) : Prop where
  books : Books cfg s.subscribers s.log
  waiting : Waiting Report.number Report.key (left s.log)
    (fun i : Nat × Nat => (s.queue i.1 i.2).list) s.arrivals
  counts : ∀ q k, (s.queue q k).count = (s.queue q k).list.length ∧
    (s.queue q k).count ≤ cfg.maxEnqueuedItems
  queued : ∀ q k, ∀ r ∈ (s.queue q k).list, r.reportId = k ∧ q < cfg.maxConn ∧ k < REPORT_ID_COUNT ∧
    r.subscriber ≠ none
  connected : ∀ q, ∀ hidc ∈ (s.peripherals q).hidc, Connected cfg s q hidc
  unique : ∀ q q', ∀ hidc ∈ (s.peripherals q).hidc, ∀ hidc' ∈ (s.peripherals q').hidc,
    hidc.peripheral = hidc'.peripheral → q = q'
  dropped : ∀ r cause, .dropped r cause ∈ s.log → Legit cfg r cause

namespace ForwardInv

variable {cfg : Config} {s s' : State} {q k : Nat} {hidc : Hidc}

theorem init (addresses : Nat → Option Nat) : ForwardInv cfg (State.init addresses) where
  books := {
    distinct _ _ _ hid := by cases hid
    attached _ hid := absurd rfl hid
    idle _ _ := ⟨rfl, rfl⟩
    booked _ _ hid := by cases hid
    unknown _ _ := ⟨rfl, rfl⟩
    own _ hr := absurd hr List.not_mem_nil }
  waiting := Waiting.start
  counts _ _ := ⟨rfl, Nat.zero_le _⟩
  queued _ _ _ hr := absurd hr List.not_mem_nil
  connected _ _ hhidc := by cases hhidc
  unique _ _ _ hhidc := by cases hhidc
  dropped _ _ hmem := absurd hmem List.not_mem_nil

theorem forwardRight (h : ForwardInv cfg s) : ForwardRight cfg s where
  unconfirmed i _ d hid := h.books.booked i d hid
  unattached i _ hid := (h.books.idle i hid).2
  own r hr := by
    obtain ⟨d, hd⟩ := Option.ne_none_iff_exists'.mp (h.books.own r hr)
    by_contra hnone
    have hunknown := h.books.unknown d fun i hid =>
      hnone ⟨i, h.books.attached i (by simp [hid]), by simp [hid], hd.trans hid.symm⟩
    rw [forwardedTo, List.countP_eq_zero] at hunknown
    exact hunknown.1 r hr (by simpa using hd)
  counts := h.counts
  order := h.waiting.order
  oldest q k := h.waiting.past (q, k)
  dropped := h.dropped
  accounted n hn := by
    obtain ⟨r, hr, hwhere⟩ := h.waiting.accounted n hn
    exact ⟨r, hr, hwhere.imp id fun ⟨i, hi⟩ => ⟨i.1, i.2, hi⟩⟩

theorem next (h : ForwardInv cfg s) (hbooks : Books cfg s'.subscribers s'.log)
    (hwaiting : Waiting Report.number Report.key (left s'.log)
      (fun i : Nat × Nat => (s'.queue i.1 i.2).list) s'.arrivals)
    (hcounts : ∀ q k, (s'.queue q k).count = (s'.queue q k).list.length ∧
      (s'.queue q k).count ≤ cfg.maxEnqueuedItems)
    (hdropped : ∀ r cause, .dropped r cause ∈ s'.log → Legit cfg r cause)
    (hassigned : ∀ q, ∀ hidc ∈ (s'.peripherals q).hidc, hidc ∈ (s.peripherals q).hidc)
    (hids : ∀ q, ∀ hidc ∈ (s'.peripherals q).hidc, (s.subscriberOf q).id ≠ none →
      (s'.subscriberOf q).id = (s.subscriberOf q).id)
    (hqueued : ∀ q k, ∀ r ∈ (s'.queue q k).list, r ∈ (s.queue q k).list ∨
      ∃ hidc ∈ (s.peripherals q).hidc, r.peripheral = hidc.peripheral ∧ r.reportId = k ∧
        k < REPORT_ID_COUNT ∧ r.subscriber = (s'.subscriberOf q).id ∧ r.subscriber ≠ none) :
    ForwardInv cfg s' where
  books := hbooks
  waiting := hwaiting
  counts := hcounts
  queued q k r hr := by
    rcases hqueued q k r hr with hold | ⟨hidc, hhidc, -, hid, hk, -, hsub⟩
    · exact h.queued q k r hold
    · exact ⟨hid, (h.connected q hidc hhidc).slot, hk, hsub⟩
  connected q hidc hhidc := by
    have hold := h.connected q hidc (hassigned q hidc hhidc)
    refine ⟨hold.slot, hold.inputs, fun k r hr => ?_, fun q' k r hr hperipheral => ?_⟩
    · rcases hqueued q k r hr with hr | ⟨_, -, -, -, -, hsub, -⟩
      · have hsub := hold.subscriber k r hr
        rw [hids q hidc hhidc (hsub ▸ (h.queued q k r hr).2.2.2)]
        exact hsub
      · exact hsub
    · rcases hqueued q' k r hr with hr | ⟨hidc', hhidc', heq, -⟩
      · exact hold.home q' k r hr hperipheral
      · exact h.unique q' q hidc' hhidc' hidc (hassigned q hidc hhidc) (heq.symm.trans hperipheral)
  unique q q' hidc hhidc hidc' hhidc' :=
    h.unique q q' hidc (hassigned q hidc hhidc) hidc' (hassigned q' hidc' hhidc')
  dropped := hdropped

theorem alone (h : ForwardInv cfg s) (hhidc : hidc ∈ (s.peripherals q).hidc) {i : Nat × Nat} {r : Report}
    (hr : r ∈ (s.queue i.1 i.2).list) (hkey : r.key = (hidc.peripheral, k)) : i = (q, k) := by
  obtain ⟨hperipheral, hid⟩ := Prod.mk.inj hkey
  have hslot := (h.connected q hidc hhidc).home i.1 i.2 r hr hperipheral
  exact Prod.ext hslot ((h.queued i.1 i.2 r hr).1.symm.trans hid)

theorem none_waits (h : ForwardInv cfg s) (hhidc : hidc ∈ (s.peripherals q).hidc) {r : Report}
    (hkey : r.key = (hidc.peripheral, k)) (hempty : (s.queue q k).list = []) (i : Nat × Nat) (r' : Report)
    (hr' : r' ∈ (s.queue i.1 i.2).list) : r'.key ≠ r.key := by
  intro heq
  obtain rfl := h.alone hhidc hr' (heq.trans hkey)
  rw [hempty] at hr'
  cases hr'

theorem not_dropped_record {e : Entry} {r : Report} {c : Cause} (h : ForwardInv cfg s)
    (he : ∀ c, e = .dropped r c → Legit cfg r c) (hmem : .dropped r c ∈ s.log ++ [e]) : Legit cfg r c := by
  rcases List.mem_append.mp hmem with hmem | hmem
  · exact h.dropped r c hmem
  · exact he c (List.mem_singleton.mp hmem).symm

theorem wakeUp (h : ForwardInv cfg s) : ForwardInv cfg (s.record .wakeUp) := by
  have hleft : left (s.record .wakeUp).log = left s.log := by simp [State.record]
  apply h.next
  · exact h.books.append (by simp [Entry.forwarded?]) (by simp)
  · rw [hleft]
    exact h.waiting
  · exact h.counts
  · exact fun r c hmem => h.not_dropped_record (fun _ he => by cases he) hmem
  · exact fun _ _ hhidc => hhidc
  · exact fun _ _ _ _ => rfl
  · exact fun _ _ _ hr => Or.inl hr

theorem drop (h : ForwardInv cfg s) (hhidc : hidc ∈ (s.peripherals q).hidc) {r : Report} {c : Cause}
    (hkey : r.key = (hidc.peripheral, k)) (hnumber : r.number = s.arrivals)
    (hempty : (s.queue q k).list = []) (hlegit : Legit cfg r c) :
    ForwardInv cfg (({ s with arrivals := s.arrivals + 1 } : State).record (.dropped r c)) := by
  have hpass := h.waiting.pass hnumber (h.none_waits hhidc hkey hempty)
  rw [← left_dropped (r := r) c, ← left_append] at hpass
  apply h.next
  · exact h.books.append (by simp [Entry.forwarded?]) (by simp)
  · exact hpass
  · exact h.counts
  · intro r' c' hmem
    apply h.not_dropped_record (fun c'' he => ?_) hmem
    obtain ⟨rfl, rfl⟩ := Entry.dropped.inj he
    exact hlegit
  · exact fun _ _ hhidc => hhidc
  · exact fun _ _ _ _ => rfl
  · exact fun _ _ _ hr => Or.inl hr

theorem subId_submit (r : Report) (p : Nat) :
    ((s.submit q r).peripherals p).subId = (s.peripherals p).subId := by
  by_cases hp : p = q <;> simp [State.submit, State.setPeripheral, State.setSubscriber, State.record, hp]

theorem id_update {subscribers : Nat → Subscriber} {i : Nat} {sub : Subscriber}
    (hsub : sub.id = (subscribers i).id) (j : Nat) :
    (Function.update subscribers i sub j).id = (subscribers j).id := by
  by_cases hj : j = i
  · rw [hj, Function.update_self, hsub]
  · rw [Function.update_of_ne hj]

theorem id_submit (r : Report) (p : Nat) :
    ((s.submit q r).subscriberOf p).id = (s.subscriberOf p).id := by
  rw [State.subscriberOf, subId_submit]
  have hsub : ({ s.subscriberOf q with busy := true } : Subscriber).id =
      (s.subscribers (s.peripherals q).subId).id := rfl
  exact id_update hsub _

theorem submit (h : ForwardInv cfg s) (hhidc : hidc ∈ (s.peripherals q).hidc) {r : Report}
    (hkey : r.key = (hidc.peripheral, k)) (hnumber : r.number = s.arrivals)
    (hempty : (s.queue q k).list = []) (hidle : (s.subscriberOf q).busy = false)
    (hsub : r.subscriber = (s.subscriberOf q).id) (hknown : r.subscriber ≠ none) :
    ForwardInv cfg (({ s with arrivals := s.arrivals + 1 } : State).submit q r) := by
  obtain ⟨d, hd⟩ := Option.ne_none_iff_exists'.mp hknown
  have hpass := h.waiting.pass hnumber (h.none_waits hhidc hkey hempty)
  rw [← left_forwarded, ← left_append] at hpass
  apply h.next
  · exact h.books.forward (hsub.symm.trans hd) (hsub.symm.trans hd) hidle rfl hd
  · simp only [State.queue_submit]
    exact hpass
  · intro p j
    rw [State.queue_submit]
    exact h.counts p j
  · exact fun r' c hmem => h.not_dropped_record (fun _ he => by cases he) hmem
  · intro p other hother
    rwa [State.hidc_submit] at hother
  · exact fun p _ _ _ => id_submit r p
  · intro p j r' hr'
    rw [State.queue_submit] at hr'
    exact Or.inl hr'

theorem subId_setQueue (q' : EnqueuedReports) (p : Nat) :
    ((s.setQueue q k q').peripherals p).subId = (s.peripherals p).subId := by
  by_cases hp : p = q <;> simp [State.setQueue, State.setPeripheral, hp]

theorem subscriberOf_setQueue (q' : EnqueuedReports) (p : Nat) :
    (s.setQueue q k q').subscriberOf p = s.subscriberOf p := by
  rw [State.subscriberOf, subId_setQueue]
  rfl

theorem lists_setQueue (q' : EnqueuedReports) :
    (fun i : Nat × Nat => ((s.setQueue q k q').queue i.1 i.2).list) =
      Function.update (fun i : Nat × Nat => (s.queue i.1 i.2).list) (q, k) q'.list := by
  funext i
  by_cases hi : i = (q, k)
  · subst hi
    simp [State.queue_setQueue]
  · rw [Function.update_of_ne hi, State.queue_setQueue, if_neg]
    exact fun heq => hi (Prod.ext heq.1 heq.2)

theorem setQueue (h : ForwardInv cfg s) {q' : EnqueuedReports} {log : List Entry} {arrivals : Nat}
    (hbooks : Books cfg s.subscribers log)
    (hwaiting : Waiting Report.number Report.key (left log)
      (Function.update (fun i : Nat × Nat => (s.queue i.1 i.2).list) (q, k) q'.list) arrivals)
    (hcount : q'.count = q'.list.length ∧ q'.count ≤ cfg.maxEnqueuedItems)
    (hdropped : ∀ r cause, .dropped r cause ∈ log → Legit cfg r cause)
    (hqueued : ∀ r ∈ q'.list, r ∈ (s.queue q k).list ∨
      ∃ hidc ∈ (s.peripherals q).hidc, r.peripheral = hidc.peripheral ∧ r.reportId = k ∧
        k < REPORT_ID_COUNT ∧ r.subscriber = (s.subscriberOf q).id ∧ r.subscriber ≠ none) :
    ForwardInv cfg { s.setQueue q k q' with
      log := log
      arrivals := arrivals } := by
  have hqueue (p j : Nat) : ({ s.setQueue q k q' with
      log := log
      arrivals := arrivals } : State).queue p j = if p = q ∧ j = k then q' else s.queue p j :=
    State.queue_setQueue k q' p j
  apply h.next
  · exact hbooks
  · have hlists := lists_setQueue (s := s) (q := q) (k := k) q'
    rw [← hlists] at hwaiting
    exact hwaiting
  · intro p j
    rw [hqueue]
    split_ifs
    · exact hcount
    · exact h.counts p j
  · exact hdropped
  · intro p hidc hhidc
    exact State.hidc_setQueue (s := s) k q' p ▸ hhidc
  · exact fun p _ _ _ => congrArg Subscriber.id (subscriberOf_setQueue q' p)
  · intro p j r hr
    rw [hqueue] at hr
    split_ifs at hr with hpj
    · obtain ⟨rfl, rfl⟩ := hpj
      refine (hqueued r hr).imp id fun ⟨hidc, hhidc, hperipheral, hid, hk, hsub, hknown⟩ =>
        ⟨hidc, hhidc, hperipheral, hid, hk, hsub.trans ?_, hknown⟩
      exact (congrArg Subscriber.id (subscriberOf_setQueue q' p)).symm
    · exact Or.inl hr

theorem enqueue (h : ForwardInv cfg s) (hhidc : hidc ∈ (s.peripherals q).hidc) {r : Report}
    (hkey : r.key = (hidc.peripheral, r.reportId)) (hnumber : r.number = s.arrivals)
    (hid : r.reportId < REPORT_ID_COUNT) (hsub : r.subscriber = (s.subscriberOf q).id)
    (hknown : r.subscriber ≠ none) :
    ForwardInv cfg (({ s with arrivals := s.arrivals + 1 } : State).enqueue cfg q r) := by
  have hcounts := h.counts q r.reportId
  have hnew : ∃ hidc ∈ (s.peripherals q).hidc, r.peripheral = hidc.peripheral ∧
      r.reportId = r.reportId ∧ r.reportId < REPORT_ID_COUNT ∧ r.subscriber = (s.subscriberOf q).id ∧
        r.subscriber ≠ none := ⟨hidc, hhidc, congrArg Prod.fst hkey, rfl, hid, hsub, hknown⟩
  by_cases hroom : (s.queue q r.reportId).count < cfg.maxEnqueuedItems
  · rw [State.enqueue_of_lt hroom]
    have hjoin := h.waiting.join (i := (q, r.reportId)) hnumber fun j r' hr' heq =>
      h.alone hhidc hr' (heq.trans hkey)
    apply h.setQueue h.books hjoin
    · simp only [List.length_append, List.length_singleton]
      omega
    · exact h.dropped
    · intro r' hr'
      rcases List.mem_append.mp hr' with hr' | hr'
      · exact Or.inl hr'
      · rw [List.mem_singleton.mp hr']
        exact Or.inr hnew
  · cases hlist : (s.queue q r.reportId).list with
    | nil =>
      have hpos := cfg.maxEnqueuedItems_pos
      rw [hlist, List.length_nil] at hcounts
      omega
    | cons oldest rest =>
      rw [hlist, List.length_cons] at hcounts
      rw [State.enqueue_of_full hroom hlist]
      have hleave := h.waiting.leave (i := (q, r.reportId)) hlist
      have hjoin := hleave.join (i := (q, r.reportId)) hnumber fun j r' hr' heq => by
        by_cases hj : j = (q, r.reportId)
        · exact hj
        · rw [Function.update_of_ne hj] at hr'
          exact h.alone hhidc hr' (heq.trans hkey)
      rw [Function.update_self, Function.update_idem, ← left_dropped (.full (rest.length + 1)),
        ← left_append] at hjoin
      apply h.setQueue ?_ hjoin
      · simp only [List.length_append, List.length_singleton]
        omega
      · intro r' c hmem
        apply h.not_dropped_record (fun c' he => ?_) hmem
        obtain ⟨rfl, rfl⟩ := Entry.dropped.inj he
        have hlength : rest.length + 1 = cfg.maxEnqueuedItems := by omega
        exact hlength
      · intro r' hr'
        rcases List.mem_append.mp hr' with hr' | hr'
        · rw [hlist]
          exact Or.inl (List.mem_cons_of_mem oldest hr')
        · rw [List.mem_singleton.mp hr']
          exact Or.inr hnew
      · exact h.books.append (by simp [Entry.forwarded?]) (by simp)

theorem forwardHidReport (h : ForwardInv cfg s) (hhidc : hidc ∈ (s.peripherals q).hidc)
    (hk : k < REPORT_ID_COUNT) (data : List UInt8)
    (hguard : s.suspended = true → (s.subscriberOf q).id ≠ none) :
    ForwardInv cfg (s.forwardHidReport cfg q hidc.peripheral k data) := by
  have hk32 : ¬ 32 ≤ k := by
    have hcount : REPORT_ID_COUNT = 12 := rfl
    omega
  have hidle := h.books.idle (s.peripherals q).subId
  have hempty (hzero : (s.queue q k).count = 0) : (s.queue q k).list = [] := by
    rw [← List.length_eq_zero_iff, ← (h.counts q k).1, hzero]
  dsimp only [State.forwardHidReport]
  rw [if_neg hk32, if_neg (Nat.not_lt.mpr hk.le)]
  split
  · next hdrop => exact h.drop hhidc rfl rfl (hempty hdrop.2.2) ⟨hdrop.1, hdrop.2.1⟩
  · next hkeep =>
    have hwake {s' : State} (h : ForwardInv cfg s') :
        ForwardInv cfg (if s'.suspended then s'.record .wakeUp else s') := by
      split
      · exact h.wakeUp
      · exact h
    apply hwake
    split
    · next hdirect =>
      apply h.submit hhidc rfl rfl (hempty hdirect.2.2) hdirect.1 rfl
      intro hnone
      have hbm : (s.subscriberOf q).isReportEnabled k = false := by
        rw [Subscriber.isReportEnabled, State.subscriberOf, (hidle hnone).1]
        exact BitVec.getLsbD_zero
      exact hkeep ⟨hbm, hdirect.2⟩
    · next hwait =>
      apply h.enqueue hhidc rfl rfl hk rfl
      intro hnone
      by_cases hsuspended : s.suspended = true
      · exact hguard hsuspended hnone
      · apply hwait
        refine ⟨(hidle hnone).2, by simpa using hsuspended, ?_⟩
        -- what waits in the slot is for a subscriber that is known
        rw [(h.counts q k).1, List.length_eq_zero_iff]
        apply List.eq_nil_iff_forall_not_mem.mpr
        intro r hr
        exact (h.queued q k r hr).2.2.2 (((h.connected q hidc hhidc).subscriber k r hr).trans hnone)

structure Sent (s s' : State) (q k : Nat) (r : Report) (rest : List Report) : Prop where
  subscribers : s'.subscribers = Function.update s.subscribers (s.peripherals q).subId
    { s.subscriberOf q with
      busy := true
      lastPeripheralId := q }
  log : s'.log = s.log ++ [.forwarded r]
  arrivals : s'.arrivals = s.arrivals
  queue : ∀ p j, s'.queue p j =
    if p = q ∧ j = k then ⟨rest, (s.queue q k).count - 1⟩ else s.queue p j
  hidc : ∀ p, (s'.peripherals p).hidc = (s.peripherals p).hidc
  subId : ∀ p, (s'.peripherals p).subId = (s.peripherals p).subId

theorem sendFirst_sent {r : Report} {rest : List Report} (hlist : (s.queue q k).list = r :: rest) :
    Sent s (s.sendFirst (s.peripherals q).subId q k) q k r rest := by
  rw [State.sendFirst, hlist]
  refine ⟨?_, rfl, rfl, fun p j => ?_, fun p => ?_, fun p => ?_⟩
  · simp only [State.setSubscriber, State.submit, State.setPeripheral, State.record, subId_setQueue,
      subscriberOf_setQueue, Function.update_self, Function.update_idem]
    rfl
  · exact (State.queue_submit r p j).trans (State.queue_setQueue k _ p j)
  · exact (State.hidc_submit r p).trans (State.hidc_setQueue k _ p)
  · exact (subId_submit r p).trans (subId_setQueue _ p)

theorem sent (h : ForwardInv cfg s) {r : Report} {rest : List Report} (hsent : Sent s s' q k r rest)
    (hlist : (s.queue q k).list = r :: rest) (hhidc : hidc ∈ (s.peripherals q).hidc)
    (hidle : (s.subscriberOf q).busy = false) : ForwardInv cfg s' := by
  have hmem : r ∈ (s.queue q k).list := by simp [hlist]
  obtain ⟨d, hd⟩ := Option.ne_none_iff_exists'.mp (h.queued q k r hmem).2.2.2
  have hid : (s.subscriberOf q).id = some d :=
    ((h.connected q hidc hhidc).subscriber k r hmem).symm.trans hd
  have hleave := h.waiting.leave (i := (q, k)) hlist
  have hlists : (fun i : Nat × Nat => (s'.queue i.1 i.2).list) =
      Function.update (fun i : Nat × Nat => (s.queue i.1 i.2).list) (q, k) rest := by
    have hset := lists_setQueue (s := s) (q := q) (k := k) ⟨rest, (s.queue q k).count - 1⟩
    simp only [State.queue_setQueue, ← hsent.queue] at hset
    exact hset
  apply h.next
  · rw [hsent.subscribers, hsent.log]
    exact h.books.forward hid hid hidle rfl hd
  · rw [hsent.log, hsent.arrivals, hlists, left_append, left_forwarded]
    exact hleave
  · intro p j
    rw [hsent.queue]
    split_ifs
    · have hcounts := h.counts q k
      rw [hlist, List.length_cons] at hcounts
      dsimp only
      omega
    · exact h.counts p j
  · intro r' c hmem
    rw [hsent.log] at hmem
    exact h.not_dropped_record (fun _ he => by cases he) hmem
  · intro p other hother
    exact hsent.hidc p ▸ hother
  · intro p _ _ _
    rw [State.subscriberOf, hsent.subId, hsent.subscribers]
    have hsub : ({ s.subscriberOf q with
        busy := true
        lastPeripheralId := q } : Subscriber).id = (s.subscribers (s.peripherals q).subId).id := rfl
    exact id_update hsub _
  · intro p j r' hr'
    rw [hsent.queue] at hr'
    split_ifs at hr' with hpj
    · rw [hpj.1, hpj.2, hlist]
      exact Or.inl (List.mem_cons_of_mem r hr')
    · exact Or.inl hr'

theorem State.nextQueue_eq_some {i reportId : Nat} (h : s.nextQueue cfg i = some (q, reportId)) :
    (s.peripherals q).subId = i ∧ ∃ hidc, hidc ∈ (s.peripherals q).hidc := by
  rw [State.nextQueue] at h
  obtain ⟨j, -, hj⟩ := List.exists_of_findSome?_eq_some h
  dsimp only at hj
  split_ifs at hj with hper
  obtain ⟨k, -, hk⟩ := List.exists_of_findSome?_eq_some hj
  split_ifs at hk
  obtain ⟨hq, -⟩ := Prod.mk.inj (Option.some.inj hk)
  rw [← hq]
  exact ⟨hper.1, Option.isSome_iff_exists.mp hper.2⟩

theorem send (h : ForwardInv cfg s) (i : Nat) : ForwardInv cfg (s.sendEnqueuedReport cfg i) := by
  rw [State.sendEnqueuedReport]
  split
  · exact h
  · next hidle =>
    split
    · next q k hnext =>
      obtain ⟨rfl, hidc, hhidc⟩ := State.nextQueue_eq_some hnext
      cases hlist : (s.queue q k).list with
      | nil =>
        rw [State.sendFirst, hlist]
        exact h
      | cons r rest => exact h.sent (sendFirst_sent hlist) hlist hhidc (Bool.eq_false_iff.mpr hidle)
    · exact h

theorem setSubscriber (h : ForwardInv cfg s) {i : Nat} {sub : Subscriber} {es : List Entry}
    (hbooks : Books cfg (Function.update s.subscribers i sub) (s.log ++ es)) (hleft : left es = [])
    (hid : (s.subscribers i).id ≠ none → sub.id = (s.subscribers i).id) :
    ForwardInv cfg { s.setSubscriber i sub with log := s.log ++ es } := by
  apply h.next
  · exact hbooks
  · rw [left_append, hleft, List.append_nil]
    exact h.waiting
  · exact h.counts
  · intro r c hmem
    rcases List.mem_append.mp hmem with hmem | hmem
    · exact h.dropped r c hmem
    · have hnone := List.filterMap_eq_nil_iff.mp hleft _ hmem
      cases hnone
  · exact fun _ _ hhidc => hhidc
  · intro p _ _ hknown
    by_cases hp : (s.peripherals p).subId = i
    · subst hp
      simpa [State.subscriberOf, State.setSubscriber] using hid hknown
    · simp [State.subscriberOf, State.setSubscriber, hp]
  · exact fun _ _ _ hr => Or.inl hr

theorem findSubscriber_eq_some {i d : Nat} (h : s.findSubscriber cfg d = some i) :
    i < cfg.deviceCount ∧ (s.subscribers i).id = some d :=
  ⟨List.mem_range.mp (List.mem_of_find?_eq_some h), by simpa using List.find?_some h⟩

theorem reportSent (h : ForwardInv cfg s) {d : Nat} (hpending : confirmedBy s.log d < forwardedTo s.log d) :
    ForwardInv cfg (s.reportSent cfg d) := by
  rw [State.reportSent]
  split
  · next i hfind =>
    obtain ⟨hi, hid⟩ := findSubscriber_eq_some hfind
    apply send
    exact h.setSubscriber (h.books.confirm hid hid rfl hpending) rfl fun _ => rfl
  · exact h

theorem findSubscriber_eq_none (h : ForwardInv cfg s) {d : Nat} (hnone : s.findSubscriber cfg d = none)
    (i : Nat) : (s.subscribers i).id ≠ some d := by
  intro hid
  have hi := h.books.attached i (by simp [hid])
  have hne := List.find?_eq_none.mp hnone i (List.mem_range.mpr hi)
  exact hne (by simpa using hid)

theorem subscribe (h : ForwardInv cfg s) {i d : Nat} (bm : BitVec 32)
    (hattach : s.attachSubscriber cfg d = some i) :
    ForwardInv cfg (s.setSubscriber i { s.subscribers i with
      id := some d
      enabledReportsBm := bm }) := by
  rw [State.attachSubscriber] at hattach
  have hset {sub : Subscriber} (hbooks : Books cfg (Function.update s.subscribers i sub) s.log)
      (hid : (s.subscribers i).id ≠ none → sub.id = (s.subscribers i).id) :
      ForwardInv cfg (s.setSubscriber i sub) := by
    have hnil : Books cfg (Function.update s.subscribers i sub) (s.log ++ []) := by rwa [List.append_nil]
    have hresult := h.setSubscriber hnil rfl hid
    rwa [List.append_nil] at hresult
  cases hfind : s.findSubscriber cfg d with
  | some j =>
    rw [hfind] at hattach
    obtain rfl : j = i := Option.some.inj hattach
    have hid := (findSubscriber_eq_some hfind).2
    apply hset
    · exact h.books.keep hid rfl (h.books.booked j d hid) (fun _ _ => ⟨rfl, rfl⟩) h.books.own
    · exact fun _ => hid.symm
  | none =>
    rw [hfind] at hattach
    have hmem := List.mem_filter.mp (List.mem_of_getLast? hattach)
    have hnone : (s.subscribers i).id = none := by simpa using hmem.2
    apply hset
    · exact h.books.attach (List.mem_range.mp hmem.1) hnone (h.findSubscriber_eq_none hfind) rfl
        (h.books.idle i hnone).2
    · exact fun hknown => absurd hnone hknown

def slots (cfg : Config) : List (Nat × Nat) :=
  (List.range cfg.maxConn).flatMap fun q => (List.range REPORT_ID_COUNT).map fun k => (q, k)

theorem mem_slots : (q, k) ∈ slots cfg ↔ q < cfg.maxConn ∧ k < REPORT_ID_COUNT := by
  simp [slots]

theorem nodup_slots : (slots cfg).Nodup :=
  List.Nodup.product List.nodup_range List.nodup_range

theorem enqueued_eq : s.enqueued cfg = (slots cfg).flatMap fun i => (s.queue i.1 i.2).list := by
  rw [slots, List.flatMap_assoc]
  simp only [List.flatMap_map]
  rfl

theorem queue_clearState (d q k : Nat) : (s.clearState cfg d).queue q k =
    if (q, k) ∈ slots cfg then ⟨[], (s.queue q k).count - (s.queue q k).list.length⟩ else s.queue q k := by
  by_cases hq : q < cfg.maxConn <;> by_cases hk : k < REPORT_ID_COUNT <;>
    simp [State.clearState, State.queue, mem_slots, hq, hk]

theorem clearState (h : ForwardInv cfg s) {d : Nat}
    (hown : ∀ r ∈ s.enqueued cfg, r.subscriber = some d) : ForwardInv cfg (s.clearState cfg d) := by
  have hlog : (s.clearState cfg d).log =
      s.log ++ (s.enqueued cfg).map fun r => Entry.dropped r (.cleared d) := rfl
  have hleft : left ((s.enqueued cfg).map fun r => Entry.dropped r (.cleared d)) = s.enqueued cfg := by
    rw [left, List.filterMap_map]
    exact List.filterMap_some
  have hhidc (p : Nat) : ((s.clearState cfg d).peripherals p).hidc = (s.peripherals p).hidc := by
    by_cases hp : p < cfg.maxConn <;> simp [State.clearState, hp]
  have hsubId (p : Nat) : ((s.clearState cfg d).peripherals p).subId = (s.peripherals p).subId := by
    by_cases hp : p < cfg.maxConn <;> simp [State.clearState, hp]
  apply h.next
  · rw [hlog]
    apply h.books.append
    · intro e he
      obtain ⟨r, -, rfl⟩ := List.mem_map.mp he
      rfl
    · intro e he d' heq
      obtain ⟨r, -, rfl⟩ := List.mem_map.mp he
      cases heq
  · rw [hlog, left_append, hleft, enqueued_eq]
    apply h.waiting.clear nodup_slots
    · intro i hi
      rw [queue_clearState, if_pos hi]
    · intro i hi
      rw [queue_clearState, if_neg hi]
  · intro p j
    rw [queue_clearState]
    split_ifs
    · simp [(h.counts p j).1]
    · exact h.counts p j
  · intro r c hmem
    rcases List.mem_append.mp hmem with hmem | hmem
    · exact h.dropped r c hmem
    · obtain ⟨r', hr', heq⟩ := List.mem_map.mp hmem
      obtain ⟨rfl, rfl⟩ := Entry.dropped.inj heq
      exact hown r' hr'
  · intro p other hother
    exact hhidc p ▸ hother
  · intro p _ _ _
    rw [State.subscriberOf, hsubId]
    rfl
  · intro p j r hr
    rw [queue_clearState] at hr
    split_ifs at hr
    · cases hr
    · exact Or.inl hr

theorem subscription (h : ForwardInv cfg s) (d reportId : Nat) {enabled : Bool}
    (hguard : enabled = false → ∀ r ∈ s.enqueued cfg, r.subscriber = some d) :
    ForwardInv cfg (s.subscription cfg d reportId enabled) := by
  rw [State.subscription]
  split
  · next i hattach =>
    cases enabled with
    | true =>
      apply send
      exact h.subscribe _ hattach
    | false =>
      apply clearState
      · exact h.subscribe _ hattach
      · exact hguard rfl
  · exact h

theorem readdress (h : ForwardInv cfg s) (addresses : Nat → Option Nat) (gone : List Gone)
    (suspended : Bool) :
    ForwardInv cfg { s with
      peripheralAddress := addresses
      gone := gone
      suspended := suspended } :=
  ⟨h.books, h.waiting, h.counts, h.queued,
    fun q hidc hhidc => ⟨(h.connected q hidc hhidc).slot, (h.connected q hidc hhidc).inputs,
      (h.connected q hidc hhidc).subscriber, (h.connected q hidc hhidc).home⟩, h.unique, h.dropped⟩

theorem queue_assign (subId : Nat) (hidc : Option Hidc) (p j : Nat) :
    (s.setPeripheral q { s.peripherals q with
      subId := subId
      hidc := hidc }).queue p j = s.queue p j := by
  by_cases hp : p = q <;> simp [State.queue, State.setPeripheral, hp]

theorem place (h : ForwardInv cfg s) (hslot : q < cfg.maxConn) {subId : Nat}
    (hinputs : ∀ input ∈ hidc.inputs, input.1 < REPORT_ID_COUNT)
    (hfree : (s.peripherals q).hidc = none)
    (hdistinct : ∀ p, ∀ other ∈ (s.peripherals p).hidc, other.peripheral ≠ hidc.peripheral)
    (hguard : ∀ p k, ∀ r ∈ (s.queue p k).list, (p = q → r.subscriber = (s.subscribers subId).id) ∧
      (r.peripheral = hidc.peripheral → p = q)) :
    ForwardInv cfg (s.setPeripheral q { s.peripherals q with
      subId := subId
      hidc := some hidc }) := by
  have hassigned {p : Nat} {other : Hidc} (hother : other ∈ ((s.setPeripheral q { s.peripherals q with
      subId := subId
      hidc := some hidc }).peripherals p).hidc) :
      (p = q ∧ other = hidc) ∨ (p ≠ q ∧ other ∈ (s.peripherals p).hidc) := by
    by_cases hp : p = q
    · refine Or.inl ⟨hp, ?_⟩
      simpa [State.setPeripheral, hp] using hother.symm
    · exact Or.inr ⟨hp, by simpa [State.setPeripheral, hp] using hother⟩
  have hlists : (fun i : Nat × Nat => ((s.setPeripheral q { s.peripherals q with
      subId := subId
      hidc := some hidc }).queue i.1 i.2).list) = fun i => (s.queue i.1 i.2).list := by
    funext i
    rw [queue_assign]
  refine ⟨h.books, ?_, fun p j => ?_, fun p j r hr => ?_, fun p other hother => ?_,
    fun p p' other hother other' hother' heq => ?_, h.dropped⟩
  · rw [hlists]
    exact h.waiting
  · rw [queue_assign]
    exact h.counts p j
  · rw [queue_assign] at hr
    exact h.queued p j r hr
  · rcases hassigned hother with ⟨rfl, rfl⟩ | ⟨hp, hold⟩
    · refine ⟨hslot, hinputs, fun j r hr => ?_, fun p' j r hr => ?_⟩
      · rw [queue_assign] at hr
        simpa [State.subscriberOf, State.setPeripheral] using (hguard p j r hr).1 rfl
      · rw [queue_assign] at hr
        exact (hguard p' j r hr).2
    · have hconnected := h.connected p other hold
      refine ⟨hconnected.slot, hconnected.inputs, fun j r hr => ?_, fun p' j r hr => ?_⟩
      · rw [queue_assign] at hr
        simpa [State.subscriberOf, State.setPeripheral, hp] using hconnected.subscriber j r hr
      · rw [queue_assign] at hr
        exact hconnected.home p' j r hr
  · rcases hassigned hother with ⟨rfl, rfl⟩ | ⟨-, hold⟩
    · rcases hassigned hother' with ⟨rfl, -⟩ | ⟨-, hold'⟩
      · rfl
      · exact absurd heq.symm (hdistinct p' other' hold')
    · rcases hassigned hother' with ⟨rfl, rfl⟩ | ⟨-, hold'⟩
      · exact absurd heq (hdistinct p other hold)
      · exact h.unique p p' other hold other' hold' heq

theorem vacate (h : ForwardInv cfg s) (q subId : Nat) :
    ForwardInv cfg (s.setPeripheral q { s.peripherals q with
      subId := subId
      hidc := none }) := by
  have hassigned {p : Nat} {other : Hidc} (hother : other ∈ ((s.setPeripheral q { s.peripherals q with
      subId := subId
      hidc := none }).peripherals p).hidc) : p ≠ q ∧ other ∈ (s.peripherals p).hidc := by
    by_cases hp : p = q
    · simp [State.setPeripheral, hp] at hother
    · exact ⟨hp, by simpa [State.setPeripheral, hp] using hother⟩
  have hlists : (fun i : Nat × Nat => ((s.setPeripheral q { s.peripherals q with
      subId := subId
      hidc := none }).queue i.1 i.2).list) = fun i => (s.queue i.1 i.2).list := by
    funext i
    rw [queue_assign]
  apply h.next
  · exact h.books
  · rw [hlists]
    exact h.waiting
  · intro p j
    rw [queue_assign]
    exact h.counts p j
  · exact h.dropped
  · exact fun p other hother => (hassigned hother).2
  · intro p other hother _
    have hp := (hassigned hother).1
    simp [State.subscriberOf, State.setPeripheral, hp]
  · intro p j r hr
    rw [queue_assign] at hr
    exact Or.inl hr

theorem registerPeripheral (h : ForwardInv cfg s) {err : Int}
    (horder : InOrder cfg s (.connected hidc err)) (hguard : Separate cfg s (.connected hidc err)) :
    ForwardInv cfg (s.registerPeripheral cfg hidc err) := by
  rw [State.registerPeripheral]
  split
  · next subId q hroute hfind =>
    have hslot : q < cfg.maxConn := List.mem_range.mp (List.mem_of_find?_eq_some hfind)
    have hfree : (s.peripherals q).hidc = none := by simpa using List.find?_some hfind
    by_cases herr : err = 0
    · have hwaiting (p k : Nat) (r : Report) (hr : r ∈ (s.queue p k).list) :
          (p = q → r.subscriber = (s.subscribers subId).id) ∧
            (r.peripheral = hidc.peripheral → p = q) := by
        obtain ⟨-, hp, hk, -⟩ := h.queued p k r hr
        exact hguard herr subId hroute q hfind p hp k hk r hr
      have hplace := h.place hslot (fun input hinput => (horder.1 input hinput).2) hfree
        (fun p other hother => (horder.2 p (h.connected p other hother).slot other hother).1) hwaiting
      by_cases hcount : cfg.deviceCount = 1
      · simp only [hcount, herr, if_true]
        exact hplace.readdress ..
      · simp only [hcount, herr, if_true, if_false]
        exact hplace.readdress ..
    · have hvacate := h.vacate q subId
      by_cases hcount : cfg.deviceCount = 1
      · simp only [hcount, herr, if_true, if_false]
        exact hvacate
      · simp only [hcount, herr, if_false]
        exact hvacate.readdress ..
  · exact h

/-- The system is still suspended or awake, the subscribers of peripherals are the same, and no peripheral
has come into a slot. -/
structure Steady (s s' : State) : Prop where
  suspended : s'.suspended = s.suspended
  ids : ∀ p, (s'.subscriberOf p).id = (s.subscriberOf p).id
  hidc : ∀ p, ∀ hidc ∈ (s'.peripherals p).hidc, hidc ∈ (s.peripherals p).hidc

theorem Steady.trans {s'' : State} (h : Steady s s') (h' : Steady s' s'') : Steady s s'' :=
  ⟨h'.suspended.trans h.suspended, fun p => (h'.ids p).trans (h.ids p),
    fun p hidc hhidc => h.hidc p hidc (h'.hidc p hidc hhidc)⟩

theorem enqueue_steady (r : Report) : Steady s (s.enqueue cfg q r) := by
  have hset (q' : EnqueuedReports) : Steady s (s.setQueue q r.reportId q') :=
    ⟨rfl, fun p => congrArg Subscriber.id (subscriberOf_setQueue q' p),
      fun p hidc hhidc => State.hidc_setQueue (s := s) r.reportId q' p ▸ hhidc⟩
  dsimp only [State.enqueue]
  split
  · exact (hset _).trans ⟨rfl, fun _ => rfl, fun _ _ hhidc => hhidc⟩
  · exact hset _

theorem forwardHidReport_steady (a : Nat) (data : List UInt8) :
    Steady s (s.forwardHidReport cfg q a k data) := by
  have hrefl : Steady s s := ⟨rfl, fun _ => rfl, fun _ _ hhidc => hhidc⟩
  have harrive : Steady s { s with arrivals := s.arrivals + 1 } := ⟨rfl, fun _ => rfl, fun _ _ hhidc => hhidc⟩
  have hrecord (s' : State) (e : Entry) : Steady s' (s'.record e) :=
    ⟨rfl, fun _ => rfl, fun _ _ hhidc => hhidc⟩
  have hsubmit (s' : State) (r : Report) : Steady s' (s'.submit q r) :=
    ⟨rfl, fun p => id_submit r p, fun p hidc hhidc => State.hidc_submit (s := s') r p ▸ hhidc⟩
  have hwake {s' : State} (h : Steady s s') : Steady s (if s'.suspended then s'.record .wakeUp else s') := by
    split
    · exact h.trans (hrecord s' _)
    · exact h
  dsimp only [State.forwardHidReport]
  split
  · exact hrefl
  split
  · exact hrefl
  split
  · exact harrive.trans (hrecord _ _)
  · apply hwake
    split
    · exact harrive.trans (hsubmit _ _)
    · exact harrive.trans (enqueue_steady _)

theorem releaseAll (h : ForwardInv cfg s) (hhidc : hidc ∈ (s.peripherals q).hidc)
    (hguard : s.suspended = true → (s.subscriberOf q).id ≠ none) {inputs : List (Nat × Nat)}
    (hinputs : ∀ input ∈ inputs, input.1 < REPORT_ID_COUNT) :
    ForwardInv cfg (HidForward.releaseAll cfg s q hidc.peripheral inputs) ∧
      Steady s (HidForward.releaseAll cfg s q hidc.peripheral inputs) := by
  induction inputs generalizing s with
  | nil => exact ⟨h, rfl, fun _ => rfl, fun _ _ hhidc => hhidc⟩
  | cons input inputs ih =>
    have hfirst := h.forwardHidReport hhidc (hinputs input (by simp)) (State.emptyReport input.2) hguard
    have hsteady : Steady s (s.forwardHidReport cfg q hidc.peripheral input.1 (State.emptyReport input.2)) :=
      forwardHidReport_steady ..
    have heffect : Effect s (s.forwardHidReport cfg q hidc.peripheral input.1 (State.emptyReport input.2)) q
        (fun _ => True) fun _ => True :=
      State.forwardHidReport_effect (fun _ _ _ _ => trivial) fun _ _ _ _ => trivial
    have hassigned := heffect.hidc q ▸ hhidc
    have hrest := ih hfirst hassigned (fun hsuspended => by
      rw [hsteady.ids]
      exact hguard (hsteady.suspended ▸ hsuspended)) fun other hother => hinputs other (by simp [hother])
    exact ⟨hrest.1, hsteady.trans hrest.2⟩

theorem disconnectPeripheral (h : ForwardInv cfg s) (hhidc : hidc ∈ (s.peripherals q).hidc)
    (hguard : s.suspended = true → (s.subscriberOf q).id ≠ none) :
    ForwardInv cfg (s.disconnectPeripheral cfg q hidc) ∧
      Steady s (s.disconnectPeripheral cfg q hidc) := by
  obtain ⟨hinv, hsteady⟩ := h.releaseAll hhidc hguard (h.connected q hidc hhidc).inputs
  have hvacate := hinv.vacate q ((HidForward.releaseAll cfg s q hidc.peripheral hidc.inputs).peripherals q).subId
  refine ⟨hvacate.readdress _ _ _, hsteady.suspended, fun p => ?_, fun p other hother => ?_⟩
  · rw [← hsteady.ids p]
    by_cases hp : p = q <;>
      simp [State.disconnectPeripheral, HidForward.releaseAll, State.subscriberOf, State.setPeripheral, hp]
  · apply hsteady.hidc p
    by_cases hp : p = q
    · simp [State.disconnectPeripheral, State.setPeripheral, hp] at hother
    · simpa [State.disconnectPeripheral, HidForward.releaseAll, State.setPeripheral, hp] using hother

theorem foldl_disconnectMatching (h : ForwardInv cfg s) {conn : Nat} (l : List Nat)
    (hguard : s.suspended = true → ∀ p, ∀ hidc ∈ (s.peripherals p).hidc, hidc.conn = conn →
      (s.subscriberOf p).id ≠ none) : ForwardInv cfg (l.foldl (State.disconnectMatching cfg conn) s) := by
  induction l generalizing s with
  | nil => exact h
  | cons p l ih =>
    have hfirst : ForwardInv cfg (s.disconnectMatching cfg conn p) ∧
        Steady s (s.disconnectMatching cfg conn p) := by
      have hrefl : Steady s s := ⟨rfl, fun _ => rfl, fun _ _ hhidc => hhidc⟩
      rw [State.disconnectMatching]
      split
      · next hidc hhidc =>
        split
        · next hconn =>
          exact h.disconnectPeripheral hhidc fun hsuspended => hguard hsuspended p hidc hhidc hconn
        · exact ⟨h, hrefl⟩
      · exact ⟨h, hrefl⟩
    apply ih hfirst.1
    intro hsuspended p' hidc hhidc hconn
    rw [hfirst.2.ids]
    exact hguard (hfirst.2.suspended ▸ hsuspended) p' hidc (hfirst.2.hidc p' hidc hhidc) hconn

theorem step (h : ForwardInv cfg s) (e : Event) (hguard : Kept cfg s e) : ForwardInv cfg (s.step cfg e) := by
  obtain ⟨⟨horder, hconfirm⟩, hseparate⟩ := hguard
  cases e with
  | report perId reportId data =>
    obtain ⟨hidc, hhidc, hinput⟩ := horder
    have hassigned : (s.peripherals perId).hidc = some hidc := hhidc
    rw [State.step, hassigned]
    exact h.forwardHidReport hhidc ((h.connected perId hidc hhidc).inputs _ hinput) data hseparate
  | reportSent subscriber => exact h.reportSent hconfirm
  | subscription subscriber reportId enabled => exact h.subscription subscriber reportId hseparate
  | connected hidc err => exact h.registerPeripheral horder hseparate
  | disconnected conn =>
    apply h.foldl_disconnectMatching
    intro hsuspended p hidc hhidc hconn
    exact hseparate hsuspended p (h.connected p hidc hhidc).slot hidc hhidc hconn
  | erased => exact h.readdress (fun _ => none) s.gone s.suspended
  | powerDown => exact h.readdress s.peripheralAddress s.gone true
  | wakeUp => exact h.readdress s.peripheralAddress s.gone false

end ForwardInv

/-- Reports leave in their order, one at a time for each subscriber, in every run in which queues keep
the reports of their own subscriber. -/
theorem hidForward_right {cfg : Config} {addresses : Nat → Option Nat} {s : State}
    (hs : Reached (State.step cfg) (Kept cfg) (State.init addresses) s) : ForwardRight cfg s := by
  have hstep (s : State) (e : Event) (h : ForwardInv cfg s) (hguard : Kept cfg s e) :
      ForwardInv cfg (s.step cfg e) := h.step e hguard
  exact (hs.invariant (ForwardInv.init addresses) hstep).forwardRight

def twoDevices : Config := ⟨2, 2, 1, by decide⟩

/-- Reports of two peripherals: one is put off until the subscriber has confirmed another, one is dropped
for the next, and one arrives after the subscription has been disabled. -/
def twoPeripherals : List Event :=
  [.subscription 71 1 true, .subscription 70 1 true, .connected ⟨5, 100, [(1, 1)]⟩ 0,
    .connected ⟨6, 101, [(1, 1)]⟩ 0, .report 0 1 [1], .report 0 1 [2], .report 0 1 [3], .report 1 1 [9],
    .reportSent 70, .reportSent 71, .subscription 71 1 false, .report 1 1 [8]]

theorem twoPeripherals_right :
    ForwardRight twoDevices (twoPeripherals.foldl (State.step twoDevices) (State.init fun _ => none)) ∧
      (twoPeripherals.foldl (State.step twoDevices) (State.init fun _ => none)).log =
        [.forwarded ⟨some 70, 1, [1], 100, 0⟩, .dropped ⟨some 70, 1, [2], 100, 1⟩ (.full 1),
          .forwarded ⟨some 71, 1, [9], 101, 3⟩, .confirmed 70, .forwarded ⟨some 70, 1, [3], 100, 2⟩,
          .confirmed 71, .dropped ⟨some 71, 1, [8], 101, 4⟩ (.notEnabled false false)] := by
  have hguarded : Reached.Guarded (State.step twoDevices) (Kept twoDevices)
      (State.init fun _ => none) twoPeripherals := by decide
  exact ⟨hidForward_right (Reached.run .start hguarded), by decide⟩

def otherDisabled : List Event :=
  [.subscription 71 1 true, .subscription 70 1 true, .connected ⟨5, 100, [(1, 1)]⟩ 0,
    .connected ⟨6, 101, [(1, 1)]⟩ 0, .report 1 1 [1], .report 1 1 [2], .subscription 70 1 false]

theorem otherDisabled_lost : ∃ s, Reached (State.step twoDevices) (Orderly twoDevices)
    (State.init fun _ => none) s ∧ ¬ ForwardRight twoDevices s := by
  have hguarded : Reached.Guarded (State.step twoDevices) (Orderly twoDevices)
      (State.init fun _ => none) otherDisabled := by decide
  refine ⟨_, Reached.run .start hguarded, fun hright => ?_⟩
  have hlegit := hright.dropped ⟨some 71, 1, [2], 101, 1⟩ (.cleared 70) (by decide)
  exact absurd hlegit (by decide)

end SdkNrf.Desktop.HidForward
