import SdkNrf.Desktop.HidForward

/-!
# Keys that stay pressed

When a peripheral disconnects, reports with all keys released are forwarded for it, or put into its queues.
-/

namespace SdkNrf.Desktop.HidForward

def Entry.forwarded? : Entry → Option Report
  | .forwarded r => some r
  | _ => none

def forwardedOf (log : List Entry) (peripheral reportId : Nat) : List Report :=
  (log.filterMap Entry.forwarded?).filter fun r => r.peripheral = peripheral ∧ r.reportId = reportId

def lastForwarded (log : List Entry) (peripheral reportId : Nat) : Option Report :=
  (forwardedOf log peripheral reportId).getLast?

def Report.zero (r : Report) : Prop := ∀ b ∈ r.data, b = 0

instance (r : Report) : Decidable r.zero := inferInstanceAs (Decidable (∀ b ∈ r.data, b = 0))

def Released (log : List Entry) (peripheral reportId : Nat) : Prop :=
  ∀ r ∈ lastForwarded log peripheral reportId, r.zero

instance (log : List Entry) (peripheral reportId : Nat) : Decidable (Released log peripheral reportId) :=
  inferInstanceAs (Decidable (∀ r ∈ lastForwarded log peripheral reportId, r.zero))

/-- No key of a peripheral that has disconnected stays pressed once its subscriber has confirmed all
reports, the system is awake and the reports are enabled. -/
def NoStuckKey (s : State) : Prop :=
  ∀ g ∈ s.gone, (s.subscribers g.subId).busy = false → s.suspended = false →
    ∀ input ∈ g.inputs, (s.subscribers g.subId).isReportEnabled input.1 = true →
      Released s.log g.peripheral input.1

def sentAtOnce (s : State) (perId : Nat) (hidc : Hidc) : Option (Nat × Nat) :=
  if (s.subscriberOf perId).busy = false ∧ s.suspended = false then
    hidc.inputs.find? fun input =>
      (s.subscriberOf perId).isReportEnabled input.1 = true ∧ (s.queue perId input.1).count = 0
  else none

def Quiet (s : State) (perId : Nat) (hidc : Hidc) (reportId : Nat) : Prop :=
  Released s.log hidc.peripheral reportId ∧
    ∀ r ∈ (s.queue perId reportId).list, r.peripheral = hidc.peripheral → r.zero

instance (s : State) (perId : Nat) (hidc : Hidc) (reportId : Nat) :
    Decidable (Quiet s perId hidc reportId) := inferInstanceAs (Decidable (_ ∧ _))

/-- Reports are those of a connected peripheral; a peripheral is connected once, and its report ids are
the ones that are asserted. -/
def InOrder (cfg : Config) (s : State) : Event → Prop
  | .report perId reportId data => ∃ hidc ∈ (s.peripherals perId).hidc, (reportId, data.length) ∈ hidc.inputs
  | .connected hidc _ => (∀ input ∈ hidc.inputs, 0 < input.1 ∧ input.1 < REPORT_ID_COUNT) ∧
      ∀ perId < cfg.maxConn, ∀ other ∈ (s.peripherals perId).hidc,
        other.peripheral ≠ hidc.peripheral ∧ other.conn ≠ hidc.conn
  | _ => True

def Fit (cfg : Config) (s : State) : Event → Prop
  | .disconnected conn => ∀ perId < cfg.maxConn, ∀ hidc ∈ (s.peripherals perId).hidc, hidc.conn = conn →
      ∀ input ∈ hidc.inputs,
        (∃ sent ∈ sentAtOnce s perId hidc, sent.1 = input.1) ∨ Quiet s perId hidc input.1
  | _ => True

def Undisturbed (cfg : Config) (s : State) (e : Event) : Prop := InOrder cfg s e ∧ Fit cfg s e

instance (cfg : Config) (s : State) (e : Event) : Decidable (InOrder cfg s e) := by
  cases e <;> unfold InOrder <;> infer_instance

instance (cfg : Config) (s : State) (e : Event) : Decidable (Undisturbed cfg s e) := by
  have hfit : Decidable (Fit cfg s e) := by
    cases e <;> unfold Fit <;> infer_instance
  exact inferInstanceAs (Decidable (_ ∧ _))

section Log

variable {log : List Entry} {a k : Nat}

theorem lastForwarded_append_of_not {e : Entry} (he : e.forwarded? = none) :
    lastForwarded (log ++ [e]) a k = lastForwarded log a k := by
  simp [lastForwarded, forwardedOf, List.filterMap_append, he]

theorem lastForwarded_append (r : Report) : lastForwarded (log ++ [.forwarded r]) a k =
    if r.peripheral = a ∧ r.reportId = k then some r else lastForwarded log a k := by
  rw [lastForwarded, forwardedOf, List.filterMap_append, List.filter_append]
  by_cases h : r.peripheral = a ∧ r.reportId = k
  · simp [Entry.forwarded?, h]
  · rw [if_neg h]
    simp [Entry.forwarded?, h, lastForwarded, forwardedOf]

end Log

structure Effect (s s' : State) (perId : Nat) (waits forwards : Report → Prop) : Prop where
  hidc : ∀ q, (s'.peripherals q).hidc = (s.peripherals q).hidc
  gone : s'.gone = s.gone
  counts : (∀ q k, (s.queue q k).count = (s.queue q k).list.length) →
    ∀ q k, (s'.queue q k).count = (s'.queue q k).list.length
  waiting : ∀ q k, ∀ r ∈ (s'.queue q k).list,
    r ∈ (s.queue q k).list ∨ (q = perId ∧ r.reportId = k ∧ waits r)
  last : ∀ a k, lastForwarded s'.log a k = lastForwarded s.log a k ∨
    ∃ r, lastForwarded s'.log a k = some r ∧ forwards r ∧ r.peripheral = a ∧ r.reportId = k

namespace Effect

variable {s s' s'' : State} {perId : Nat} {waits forwards : Report → Prop}

theorem refl (s : State) (perId : Nat) (waits forwards : Report → Prop) :
    Effect s s perId waits forwards :=
  ⟨fun _ => rfl, rfl, fun h => h, fun _ _ _ hr => Or.inl hr, fun _ _ => Or.inl rfl⟩

theorem trans (h : Effect s s' perId waits forwards) (h' : Effect s' s'' perId waits forwards) :
    Effect s s'' perId waits forwards := by
  refine ⟨fun q => (h'.hidc q).trans (h.hidc q), h'.gone.trans h.gone,
    fun hcounts => h'.counts (h.counts hcounts), fun q k r hr => ?_, fun a k => ?_⟩
  · rcases h'.waiting q k r hr with hold | hnew
    · exact h.waiting q k r hold
    · exact Or.inr hnew
  · rcases h'.last a k with heq | hnew
    · rw [heq]
      exact h.last a k
    · exact Or.inr hnew

end Effect

namespace State

variable {cfg : Config} {s : State} {perId : Nat} {waits forwards : Report → Prop}

theorem effect_of_log {s' : State} (hperipherals : s'.peripherals = s.peripherals)
    (hgone : s'.gone = s.gone) (hlast : ∀ a k, lastForwarded s'.log a k = lastForwarded s.log a k) :
    Effect s s' perId waits forwards := by
  have hqueue (q k : Nat) : s'.queue q k = s.queue q k := by rw [queue, queue, hperipherals]
  refine ⟨fun q => by rw [hperipherals], hgone, fun hcounts q k => ?_, fun q k r hr => ?_,
    fun a k => Or.inl (hlast a k)⟩
  · rw [hqueue]
    exact hcounts q k
  · rw [hqueue] at hr
    exact Or.inl hr

theorem record_effect {e : Entry} (he : e.forwarded? = none) :
    Effect s (s.record e) perId waits forwards :=
  effect_of_log rfl rfl fun _ _ => lastForwarded_append_of_not he

theorem queue_submit (r : Report) (q k : Nat) : (s.submit perId r).queue q k = s.queue q k := by
  by_cases hq : q = perId <;> simp [submit, queue, setPeripheral, setSubscriber, record, hq]

theorem hidc_submit (r : Report) (q : Nat) :
    ((s.submit perId r).peripherals q).hidc = (s.peripherals q).hidc := by
  by_cases hq : q = perId <;> simp [submit, setPeripheral, setSubscriber, record, hq]

theorem submit_effect {r : Report} (hr : forwards r) : Effect s (s.submit perId r) perId waits forwards := by
  refine ⟨hidc_submit r, rfl, fun hcounts q k => ?_, fun q k r' hr' => ?_, fun a k => ?_⟩
  · rw [queue_submit]
    exact hcounts q k
  · rw [queue_submit] at hr'
    exact Or.inl hr'
  · have hlog : (s.submit perId r).log = s.log ++ [.forwarded r] := rfl
    rw [hlog, lastForwarded_append]
    split_ifs with h
    · exact Or.inr ⟨r, rfl, hr, h⟩
    · exact Or.inl rfl

theorem queue_setQueue (k : Nat) (q' : EnqueuedReports) (q j : Nat) :
    (s.setQueue perId k q').queue q j = if q = perId ∧ j = k then q' else s.queue q j := by
  by_cases hq : q = perId
  · by_cases hj : j = k <;> simp [setQueue, queue, setPeripheral, hq, hj]
  · simp [setQueue, queue, setPeripheral, hq]

theorem hidc_setQueue (k : Nat) (q' : EnqueuedReports) (q : Nat) :
    ((s.setQueue perId k q').peripherals q).hidc = (s.peripherals q).hidc := by
  by_cases hq : q = perId <;> simp [setQueue, setPeripheral, hq]

theorem setQueue_effect {k : Nat} {q' : EnqueuedReports}
    (hcount : (s.queue perId k).count = (s.queue perId k).list.length → q'.count = q'.list.length)
    (hlist : ∀ r ∈ q'.list, r ∈ (s.queue perId k).list ∨ (r.reportId = k ∧ waits r)) :
    Effect s (s.setQueue perId k q') perId waits forwards := by
  refine ⟨hidc_setQueue k q', rfl, fun hcounts q j => ?_, fun q j r hr => ?_, fun _ _ => Or.inl rfl⟩
  · rw [queue_setQueue]
    split_ifs
    · exact hcount (hcounts perId k)
    · exact hcounts q j
  · rw [queue_setQueue] at hr
    split_ifs at hr with h
    · obtain ⟨rfl, rfl⟩ := h
      exact (hlist r hr).imp id fun hnew => ⟨rfl, hnew⟩
    · exact Or.inl hr

theorem mem_append_of_waits {l : List Report} {r r' : Report} (hr : waits r) (hr' : r' ∈ l ++ [r]) :
    r' ∈ l ∨ (r'.reportId = r.reportId ∧ waits r') := by
  rcases List.mem_append.mp hr' with hr' | hr'
  · exact Or.inl hr'
  · rw [List.mem_singleton.mp hr']
    exact Or.inr ⟨rfl, hr⟩

theorem enqueue_effect {r : Report} (hr : waits r) :
    Effect s (s.enqueue cfg perId r) perId waits forwards := by
  rw [enqueue, EnqueuedReports.enqueueHidReport]
  split_ifs with hfull
  · apply setQueue_effect
    · simp +contextual
    · exact fun r' hr' => mem_append_of_waits hr hr'
  · have hset : Effect s (s.setQueue perId r.reportId
        ⟨(s.queue perId r.reportId).list.tail ++ [r], (s.queue perId r.reportId).count⟩) perId waits
          forwards := by
      apply setQueue_effect
      · intro hcount
        have hpos := cfg.maxEnqueuedItems_pos
        simp only [List.length_append, List.length_tail, List.length_singleton]
        omega
      · exact fun r' hr' => (mem_append_of_waits hr hr').imp List.mem_of_mem_tail id
    dsimp only
    split
    · exact hset.trans (record_effect rfl)
    · exact hset

theorem wakeUp_effect {s' : State} (h : Effect s s' perId waits forwards) :
    Effect s (if s'.suspended then s'.record .wakeUp else s') perId waits forwards := by
  split
  · exact h.trans (record_effect rfl)
  · exact h

theorem forwardHidReport_effect {a k : Nat} {data : List UInt8}
    (hwaits : ∀ r : Report, r.peripheral = a → r.reportId = k → r.data = data → waits r)
    (hforwards : ∀ r : Report, r.peripheral = a → r.reportId = k → r.data = data → forwards r) :
    Effect s (s.forwardHidReport cfg perId a k data) perId waits forwards := by
  have harrive : Effect s { s with arrivals := s.arrivals + 1 } perId waits forwards :=
    effect_of_log rfl rfl fun _ _ => rfl
  dsimp only [forwardHidReport]
  split
  · exact .refl ..
  split
  · exact .refl ..
  split
  · exact harrive.trans (record_effect rfl)
  · apply wakeUp_effect
    split
    · exact harrive.trans (submit_effect (hforwards _ rfl rfl rfl))
    · exact harrive.trans (enqueue_effect (hwaits _ rfl rfl rfl))

theorem sendFirst_effect {i reportId : Nat}
    (hforwards : ∀ r ∈ (s.queue perId reportId).list, forwards r) :
    Effect s (s.sendFirst i perId reportId) perId waits forwards := by
  rw [sendFirst]
  cases hlist : (s.queue perId reportId).list with
  | nil => exact .refl ..
  | cons r rest =>
    have hpop : Effect s (s.setQueue perId reportId ⟨rest, (s.queue perId reportId).count - 1⟩) perId waits
        forwards := by
      apply setQueue_effect
      · intro hcount
        simp [hcount, hlist]
      · intro r' hr'
        rw [hlist]
        exact Or.inl (List.mem_cons_of_mem _ hr')
    have hsubmit := hpop.trans (submit_effect (hforwards r (by simp [hlist])))
    exact hsubmit.trans (effect_of_log rfl rfl fun _ _ => rfl)

end State

def waitingAnywhere (s : State) (r : Report) : Prop := ∃ q k, r ∈ (s.queue q k).list

namespace State

variable {cfg : Config} {s : State}

theorem sendEnqueuedReport_effect (i : Nat) :
    ∃ perId, Effect s (s.sendEnqueuedReport cfg i) perId (fun _ => False) (waitingAnywhere s) := by
  rw [sendEnqueuedReport]
  split
  · exact ⟨0, .refl ..⟩
  · split
    · next perId reportId _ => exact ⟨perId, sendFirst_effect fun r hr => ⟨perId, reportId, hr⟩⟩
    · exact ⟨0, .refl ..⟩

theorem clearState_effect (subscriber : Nat) :
    Effect s (s.clearState cfg subscriber) 0 (fun _ => False) (fun _ => False) := by
  have hqueue (q k : Nat) : (s.clearState cfg subscriber).queue q k =
      if q < cfg.maxConn ∧ k < REPORT_ID_COUNT then
        ⟨[], (s.queue q k).count - (s.queue q k).list.length⟩ else s.queue q k := by
    by_cases hq : q < cfg.maxConn <;> by_cases hk : k < REPORT_ID_COUNT <;>
      simp [clearState, queue, hq, hk]
  refine ⟨fun q => ?_, rfl, fun hcounts q k => ?_, fun q k r hr => ?_, fun a k => Or.inl ?_⟩
  · by_cases hq : q < cfg.maxConn <;> simp [clearState, hq]
  · rw [hqueue]
    split_ifs
    · simp [hcounts q k]
    · exact hcounts q k
  · rw [hqueue] at hr
    split_ifs at hr
    · cases hr
    · exact Or.inl hr
  · have hnone : ((s.enqueued cfg).map fun r => Entry.dropped r (.cleared subscriber)).filterMap
        Entry.forwarded? = [] := by
      rw [List.filterMap_map]
      exact List.filterMap_eq_nil_iff.mpr fun _ _ => rfl
    simp [clearState, lastForwarded, forwardedOf, List.filterMap_append, hnone]

end State

/-- What waits for a peripheral that is not connected with this report releases all keys, and so did the
last report that was forwarded for a peripheral that has disconnected. -/
structure ReleaseInv (cfg : Config) (s : State) : Prop where
  counts : ∀ q k, (s.queue q k).count = (s.queue q k).list.length
  ids : ∀ q k, ∀ r ∈ (s.queue q k).list, r.reportId = k
  slots : ∀ q, ∀ hidc ∈ (s.peripherals q).hidc, q < cfg.maxConn
  inputs : ∀ q, ∀ hidc ∈ (s.peripherals q).hidc, ∀ input ∈ hidc.inputs, input.1 < REPORT_ID_COUNT
  unique : ∀ q q', ∀ hidc ∈ (s.peripherals q).hidc, ∀ hidc' ∈ (s.peripherals q').hidc,
    hidc.peripheral = hidc'.peripheral ∨ hidc.conn = hidc'.conn → q = q'
  waiting : ∀ q k, ∀ r ∈ (s.queue q k).list, r.zero ∨ ∃ hidc ∈ (s.peripherals q).hidc,
    hidc.peripheral = r.peripheral ∧ ∃ input ∈ hidc.inputs, input.1 = r.reportId
  gone : ∀ g ∈ s.gone, (∀ q, ∀ hidc ∈ (s.peripherals q).hidc, hidc.peripheral ≠ g.peripheral) ∧
    ∀ input ∈ g.inputs, Released s.log g.peripheral input.1

theorem ReleaseInv.noStuckKey {cfg : Config} {s : State} (h : ReleaseInv cfg s) : NoStuckKey s :=
  fun g hg _ _ input hinput _ => (h.gone g hg).2 input hinput

namespace ReleaseInv

variable {cfg : Config} {s s' : State} {perId : Nat} {waits forwards : Report → Prop}

theorem init (addresses : Nat → Option Nat) : ReleaseInv cfg (State.init addresses) where
  counts _ _ := rfl
  ids _ _ _ hr := absurd hr List.not_mem_nil
  slots _ _ hhidc := by cases hhidc
  inputs _ _ hhidc := by cases hhidc
  unique _ _ _ hhidc := by cases hhidc
  waiting _ _ _ hr := absurd hr List.not_mem_nil
  gone _ hg := absurd hg List.not_mem_nil

theorem effect (h : ReleaseInv cfg s) (he : Effect s s' perId waits forwards)
    (hwaits : ∀ r, waits r → r.zero ∨ ∃ hidc ∈ (s.peripherals perId).hidc,
      hidc.peripheral = r.peripheral ∧ ∃ input ∈ hidc.inputs, input.1 = r.reportId)
    (hforwards : ∀ r, forwards r → ∀ g ∈ s.gone, r.peripheral = g.peripheral → r.zero) :
    ReleaseInv cfg s' where
  counts := he.counts h.counts
  ids q k r hr := (he.waiting q k r hr).elim (h.ids q k r) fun hnew => hnew.2.1
  slots q hidc hhidc := h.slots q hidc (he.hidc q ▸ hhidc)
  inputs q hidc hhidc := h.inputs q hidc (he.hidc q ▸ hhidc)
  unique q q' hidc hhidc hidc' hhidc' := h.unique q q' hidc (he.hidc q ▸ hhidc) hidc' (he.hidc q' ▸ hhidc')
  waiting q k r hr := by
    rw [he.hidc q]
    rcases he.waiting q k r hr with hold | ⟨rfl, -, hnew⟩
    · exact h.waiting q k r hold
    · exact hwaits r hnew
  gone g hg := by
    rw [he.gone] at hg
    refine ⟨fun q hidc hhidc => (h.gone g hg).1 q hidc (he.hidc q ▸ hhidc), fun input hinput r hr => ?_⟩
    rcases he.last g.peripheral input.1 with heq | ⟨r', hr', hnew, hperipheral, -⟩
    · exact (h.gone g hg).2 input hinput r (heq ▸ hr)
    · obtain rfl : r' = r := Option.some.inj (hr'.symm.trans hr)
      exact hforwards r' hnew g hg hperipheral

theorem report (h : ReleaseInv cfg s) {hidc : Hidc} {k : Nat} {data : List UInt8}
    (hhidc : hidc ∈ (s.peripherals perId).hidc) (hinput : (k, data.length) ∈ hidc.inputs) :
    ReleaseInv cfg (s.forwardHidReport cfg perId hidc.peripheral k data) := by
  have he : Effect s (s.forwardHidReport cfg perId hidc.peripheral k data) perId
      (fun r => r.peripheral = hidc.peripheral ∧ r.reportId = k) fun r => r.peripheral = hidc.peripheral :=
    State.forwardHidReport_effect (fun r hr hk _ => ⟨hr, hk⟩) fun r hr _ _ => hr
  apply h.effect he
  · rintro r ⟨hr, hk⟩
    exact Or.inr ⟨hidc, hhidc, hr.symm, _, hinput, hk.symm⟩
  · intro r hr g hg heq
    exact absurd (hr.symm.trans heq) ((h.gone g hg).1 perId hidc hhidc)

theorem send (h : ReleaseInv cfg s) (i : Nat) : ReleaseInv cfg (s.sendEnqueuedReport cfg i) := by
  obtain ⟨perId, he⟩ : ∃ perId, Effect s (s.sendEnqueuedReport cfg i) perId (fun _ => False)
      (waitingAnywhere s) := State.sendEnqueuedReport_effect i
  apply h.effect he
  · exact fun r hfalse => hfalse.elim
  · rintro r ⟨q, k, hr⟩ g hg heq
    rcases h.waiting q k r hr with hzero | ⟨hidc, hhidc, hperipheral, -⟩
    · exact hzero
    · exact absurd (hperipheral.trans heq) ((h.gone g hg).1 q hidc hhidc)

theorem of_same (h : ReleaseInv cfg s) (hperipherals : s'.peripherals = s.peripherals)
    (hgone : s'.gone = s.gone) (hlast : ∀ a k, lastForwarded s'.log a k = lastForwarded s.log a k) :
    ReleaseInv cfg s' := by
  have he : Effect s s' 0 (fun _ => False) fun _ => False := State.effect_of_log hperipherals hgone hlast
  exact h.effect he (fun _ hfalse => hfalse.elim) fun _ hfalse => hfalse.elim

theorem reportSent (h : ReleaseInv cfg s) (subscriber : Nat) :
    ReleaseInv cfg (s.reportSent cfg subscriber) := by
  rw [State.reportSent]
  split
  · apply send
    exact h.of_same rfl rfl fun _ _ => lastForwarded_append_of_not rfl
  · exact h

theorem subscription (h : ReleaseInv cfg s) (subscriber reportId : Nat) (enabled : Bool) :
    ReleaseInv cfg (s.subscription cfg subscriber reportId enabled) := by
  rw [State.subscription]
  split
  · dsimp only
    split
    · apply send
      exact h.of_same rfl rfl fun _ _ => rfl
    · refine effect ?_ (State.clearState_effect subscriber) (fun _ hfalse => hfalse.elim)
        fun _ hfalse => hfalse.elim
      exact h.of_same rfl rfl fun _ _ => rfl
  · exact h

theorem attach (h : ReleaseInv cfg s) {hidc : Hidc} {err : Int}
    (horder : InOrder cfg s (.connected hidc err)) (hslot : perId < cfg.maxConn)
    (hfree : (s.peripherals perId).hidc = none) (subId : Nat) :
    ReleaseInv cfg { s.setPeripheral perId { s.peripherals perId with
        subId := subId
        hidc := some hidc } with
      gone := s.gone.filter fun g => g.peripheral ≠ hidc.peripheral } := by
  have hqueue (q k : Nat) : (s.setPeripheral perId { s.peripherals perId with
      subId := subId
      hidc := some hidc }).queue q k = s.queue q k := by
    by_cases hq : q = perId <;> simp [State.queue, State.setPeripheral, hq]
  have hassigned {q : Nat} {other : Hidc} (hother : other ∈ ((s.setPeripheral perId
      { s.peripherals perId with
        subId := subId
        hidc := some hidc }).peripherals q).hidc) :
      (q = perId ∧ other = hidc) ∨ (q ≠ perId ∧ other ∈ (s.peripherals q).hidc) := by
    by_cases hq : q = perId
    · refine Or.inl ⟨hq, ?_⟩
      simpa [State.setPeripheral, hq] using hother.symm
    · exact Or.inr ⟨hq, by simpa [State.setPeripheral, hq] using hother⟩
  have hdistinct {q : Nat} {other : Hidc} (hother : other ∈ (s.peripherals q).hidc) :=
    horder.2 q (h.slots q other hother) other hother
  refine ⟨fun q k => ?_, fun q k r hr => ?_, fun q other hother => ?_, fun q other hother => ?_,
    fun q q' other hother other' hother' hsame => ?_, fun q k r hr => ?_, fun g hg =>
      ⟨fun q other hother => ?_,
      fun input hinput => ?_⟩⟩
  · exact (hqueue q k).symm ▸ h.counts q k
  · exact h.ids q k r ((hqueue q k) ▸ hr)
  · rcases hassigned hother with ⟨rfl, -⟩ | ⟨-, hold⟩
    · exact hslot
    · exact h.slots q other hold
  · rcases hassigned hother with ⟨-, rfl⟩ | ⟨-, hold⟩
    · exact fun input hinput => (horder.1 input hinput).2
    · exact h.inputs q other hold
  · rcases hassigned hother with ⟨rfl, rfl⟩ | ⟨-, hold⟩
    · rcases hassigned hother' with ⟨rfl, -⟩ | ⟨-, hold'⟩
      · rfl
      · exact (hsame.elim (fun heq => (hdistinct hold').1 heq.symm)
          fun heq => (hdistinct hold').2 heq.symm).elim
    · rcases hassigned hother' with ⟨rfl, rfl⟩ | ⟨-, hold'⟩
      · exact (hsame.elim (hdistinct hold).1 (hdistinct hold).2).elim
      · exact h.unique q q' other hold other' hold' hsame
  · have hold := h.waiting q k r (hqueue q k ▸ hr)
    by_cases hq : q = perId
    · subst hq
      refine hold.imp id fun hconnected => ?_
      obtain ⟨other, hother, -⟩ := hconnected
      rw [hfree] at hother
      cases hother
    · simpa [State.setPeripheral, hq] using hold
  · obtain ⟨hmem, hne⟩ := List.mem_filter.mp hg
    rcases hassigned hother with ⟨-, rfl⟩ | ⟨-, hold⟩
    · exact Ne.symm (by simpa using hne)
    · exact (h.gone g hmem).1 q other hold
  · exact (h.gone g (List.mem_of_mem_filter hg)).2 input hinput

theorem notAssigned (h : ReleaseInv cfg s) (hfree : (s.peripherals perId).hidc = none) (subId : Nat) :
    ReleaseInv cfg (s.setPeripheral perId { s.peripherals perId with
      subId := subId
      hidc := none }) := by
  have hqueue (q k : Nat) : (s.setPeripheral perId { s.peripherals perId with
      subId := subId
      hidc := none }).queue q k = s.queue q k := by
    by_cases hq : q = perId <;> simp [State.queue, State.setPeripheral, hq]
  have he : Effect s (s.setPeripheral perId { s.peripherals perId with
      subId := subId
      hidc := none }) 0 (fun _ => False) (fun _ => False) := by
    refine ⟨fun q => ?_, rfl, fun hcounts q k => (hqueue q k).symm ▸ hcounts q k,
      fun q k r hr => Or.inl ((hqueue q k) ▸ hr), fun _ _ => Or.inl rfl⟩
    by_cases hq : q = perId <;> simp [State.setPeripheral, hq, hfree]
  exact h.effect he (fun _ hfalse => hfalse.elim) fun _ hfalse => hfalse.elim

theorem registerPeripheral (h : ReleaseInv cfg s) {hidc : Hidc} (err : Int)
    (horder : InOrder cfg s (.connected hidc err)) :
    ReleaseInv cfg (s.registerPeripheral cfg hidc err) := by
  rw [State.registerPeripheral]
  split
  · next subId perId _ hfind =>
    have hslot : perId < cfg.maxConn := List.mem_range.mp (List.mem_of_find?_eq_some hfind)
    have hfree : (s.peripherals perId).hidc = none := by simpa using List.find?_some hfind
    by_cases hcount : cfg.deviceCount = 1
    · by_cases herr : err = 0
      · simp only [hcount, herr, if_true]
        exact h.attach horder hslot hfree subId
      · simp only [hcount, herr, if_true, if_false]
        exact h.notAssigned hfree subId
    · have hrouted : ReleaseInv cfg { s with
          peripheralAddress := Function.update s.peripheralAddress subId (some hidc.peripheral) } :=
        h.of_same rfl rfl fun _ _ => rfl
      by_cases herr : err = 0
      · simp only [hcount, herr, if_true, if_false]
        exact @attach cfg _ perId hrouted hidc err horder hslot hfree subId
      · simp only [hcount, herr, if_false]
        exact hrouted.notAssigned hfree subId
  · exact h

end ReleaseInv

section Disconnection

variable {cfg : Config} {s s' : State} {perId a k : Nat} {data : List UInt8}

def releaseAll (cfg : Config) (s : State) (perId peripheral : Nat) (inputs : List (Nat × Nat)) : State :=
  inputs.foldl (fun s input =>
    s.forwardHidReport cfg perId peripheral input.1 (State.emptyReport input.2)) s

theorem releaseAll_effect (inputs : List (Nat × Nat)) :
    Effect s (releaseAll cfg s perId a inputs) perId Report.zero Report.zero := by
  induction inputs generalizing s with
  | nil => exact .refl ..
  | cons input inputs ih =>
    have hzero (r : Report) (_ : r.peripheral = a) (_ : r.reportId = input.1)
        (hdata : r.data = State.emptyReport input.2) : r.zero := by
      intro b hb
      rw [hdata] at hb
      exact List.eq_of_mem_replicate hb
    exact (State.forwardHidReport_effect hzero hzero).trans ih

structure Stalled (s s' : State) (perId : Nat) : Prop where
  subscriber : s'.subscriberOf perId = s.subscriberOf perId
  suspended : s'.suspended = s.suspended
  counts : ∀ j, (s'.queue perId j).count = 0 ↔ (s.queue perId j).count = 0

theorem Stalled.trans {s'' : State} (h : Stalled s s' perId) (h' : Stalled s' s'' perId) :
    Stalled s s'' perId :=
  ⟨h'.subscriber.trans h.subscriber, h'.suspended.trans h.suspended,
    fun j => (h'.counts j).trans (h.counts j)⟩

theorem enqueue_stalled (r : Report) (hcount : (s.queue perId r.reportId).count ≠ 0) :
    Stalled s (s.enqueue cfg perId r) perId := by
  have hset (q : EnqueuedReports) (hq : q.count ≠ 0) : Stalled s (s.setQueue perId r.reportId q) perId := by
    refine ⟨by simp [State.setQueue, State.setPeripheral, State.subscriberOf], rfl, fun j => ?_⟩
    rw [State.queue_setQueue]
    split_ifs with h
    · rw [h.2]
      simp [hq, hcount]
    · exact Iff.rfl
  rw [State.enqueue, EnqueuedReports.enqueueHidReport]
  split_ifs
  · exact hset _ (by simp)
  · dsimp only
    split
    · have hsame := hset ⟨(s.queue perId r.reportId).list.tail ++ [r],
        (s.queue perId r.reportId).count⟩ hcount
      exact ⟨hsame.subscriber, hsame.suspended, hsame.counts⟩
    · exact hset _ hcount

theorem forwardHidReport_stalled (hawake : s.suspended = false)
    (hnot : ¬ ((s.subscriberOf perId).isReportEnabled k = true ∧ (s.queue perId k).count = 0)) :
    Stalled s (s.forwardHidReport cfg perId a k data) perId := by
  have hrefl : Stalled s s perId := ⟨rfl, rfl, fun _ => Iff.rfl⟩
  dsimp only [State.forwardHidReport]
  split
  · exact hrefl
  split
  · exact hrefl
  split
  · exact ⟨rfl, rfl, fun _ => Iff.rfl⟩
  · next hkeep =>
    have hcount : (s.queue perId k).count ≠ 0 := by
      intro hzero
      simp only [hawake, hzero, and_true] at hkeep hnot
      exact hnot (by simpa using hkeep)
    rw [if_neg (c := (s.subscriberOf perId).busy = false ∧ _) (fun h => hcount h.2.2)]
    have hstalled : Stalled { s with arrivals := s.arrivals + 1 } (State.enqueue cfg
        { s with arrivals := s.arrivals + 1 } perId
        ⟨(s.subscriberOf perId).id, k, data, a, s.arrivals⟩) perId := enqueue_stalled _ hcount
    rw [if_neg]
    · exact ⟨hstalled.subscriber, hstalled.suspended, hstalled.counts⟩
    · rw [hstalled.suspended]
      simp [hawake]

theorem releaseAll_stalled {inputs : List (Nat × Nat)} (hawake : s.suspended = false)
    (hnot : ∀ input ∈ inputs, ¬ ((s.subscriberOf perId).isReportEnabled input.1 = true ∧
      (s.queue perId input.1).count = 0)) : Stalled s (releaseAll cfg s perId a inputs) perId := by
  induction inputs generalizing s with
  | nil => exact ⟨rfl, rfl, fun _ => Iff.rfl⟩
  | cons input inputs ih =>
    have hfirst : Stalled s (s.forwardHidReport cfg perId a input.1 (State.emptyReport input.2)) perId :=
      forwardHidReport_stalled hawake (hnot input (by simp))
    refine hfirst.trans (ih (hfirst.suspended.trans hawake) fun other hother => ?_)
    rw [hfirst.subscriber, hfirst.counts]
    exact hnot other (by simp [hother])

theorem lastForwarded_of_atOnce (hk : k < REPORT_ID_COUNT) (hbusy : (s.subscriberOf perId).busy = false)
    (hawake : s.suspended = false) (henabled : (s.subscriberOf perId).isReportEnabled k = true)
    (hcount : (s.queue perId k).count = 0) : ∃ r,
      lastForwarded (s.forwardHidReport cfg perId a k data).log a k = some r ∧ r.data = data := by
  have hk32 : ¬ 32 ≤ k := by
    have hcount : REPORT_ID_COUNT = 12 := rfl
    omega
  refine ⟨⟨(s.subscriberOf perId).id, k, data, a, s.arrivals⟩, ?_, rfl⟩
  simp only [State.forwardHidReport, if_neg hk32, if_neg (Nat.not_lt.mpr hk.le), hbusy, hawake, henabled,
    hcount]
  simp only [State.submit, State.setPeripheral, State.setSubscriber, State.record, and_self, and_true,
    Bool.true_eq_false, Bool.false_eq_true, if_false, if_true, lastForwarded_append]

theorem releaseAll_released {hidc : Hidc} {sent : Nat × Nat}
    (hvalid : ∀ input ∈ hidc.inputs, input.1 < REPORT_ID_COUNT)
    (hsent : sentAtOnce s perId hidc = some sent) :
    Released (releaseAll cfg s perId a hidc.inputs).log a sent.1 := by
  rw [sentAtOnce] at hsent
  split_ifs at hsent with hready
  obtain ⟨hcond, pre, post, hinputs, hpre⟩ := List.find?_eq_some_iff_append.mp hsent
  simp only [decide_eq_true_eq] at hcond
  have hstalled : Stalled s (releaseAll cfg s perId a pre) perId :=
    releaseAll_stalled hready.2 fun input hinput => by
      simpa only [Bool.not_eq_true', decide_eq_false_iff_not] using hpre input hinput
  obtain ⟨r, hr, hdata⟩ : ∃ r, lastForwarded ((releaseAll cfg s perId a pre).forwardHidReport cfg perId a
      sent.1 (State.emptyReport sent.2)).log a sent.1 = some r ∧ r.data = State.emptyReport sent.2 :=
    lastForwarded_of_atOnce (hvalid sent (by simp [hinputs])) (hstalled.subscriber ▸ hready.1)
      (hstalled.suspended.trans hready.2) (hstalled.subscriber ▸ hcond.1)
      ((hstalled.counts sent.1).mpr hcond.2)
  have hsplit : releaseAll cfg s perId a hidc.inputs = releaseAll cfg
      ((releaseAll cfg s perId a pre).forwardHidReport cfg perId a sent.1 (State.emptyReport sent.2))
      perId a post := by
    rw [hinputs, releaseAll, List.foldl_append, List.foldl_cons]
    rfl
  rw [hsplit]
  have he : Effect _ (releaseAll cfg ((releaseAll cfg s perId a pre).forwardHidReport cfg perId a sent.1
      (State.emptyReport sent.2)) perId a post) perId Report.zero Report.zero := releaseAll_effect post
  intro r' hr'
  rcases he.last a sent.1 with heq | ⟨r'', hr'', hzero, -⟩
  · rw [heq, hr] at hr'
    obtain rfl : r = r' := Option.some.inj hr'
    intro b hb
    rw [hdata] at hb
    exact List.eq_of_mem_replicate hb
  · obtain rfl : r'' = r' := Option.some.inj (hr''.symm.trans hr')
    exact hzero

namespace ReleaseInv

theorem detach (h : ReleaseInv cfg s) {hidc : Hidc} (hhidc : hidc ∈ (s.peripherals perId).hidc)
    (hzero : ∀ k, ∀ r ∈ (s.queue perId k).list, r.zero)
    (hreleased : ∀ input ∈ hidc.inputs, Released s.log hidc.peripheral input.1) (subId : Nat) :
    ReleaseInv cfg (State.setPeripheral { s with gone := s.gone ++ [⟨hidc.peripheral, subId, hidc.inputs⟩] }
      perId { s.peripherals perId with hidc := none }) := by
  let g : Gone := ⟨hidc.peripheral, subId, hidc.inputs⟩
  have hqueue (q k : Nat) : (State.setPeripheral { s with gone := s.gone ++ [g] } perId
      { s.peripherals perId with hidc := none }).queue q k = s.queue q k := by
    by_cases hq : q = perId <;> simp [State.queue, State.setPeripheral, hq]
  have hassigned {q : Nat} {other : Hidc}
      (hother : other ∈ ((State.setPeripheral { s with gone := s.gone ++ [g] } perId
        { s.peripherals perId with hidc := none }).peripherals q).hidc) :
      q ≠ perId ∧ other ∈ (s.peripherals q).hidc := by
    by_cases hq : q = perId
    · simp [State.setPeripheral, hq] at hother
    · exact ⟨hq, by simpa [State.setPeripheral, hq] using hother⟩
  refine ⟨fun q k => (hqueue q k).symm ▸ h.counts q k, fun q k r hr => h.ids q k r (hqueue q k ▸ hr),
    fun q other hother => h.slots q other (hassigned hother).2,
    fun q other hother => h.inputs q other (hassigned hother).2,
    fun q q' other hother other' hother' =>
      h.unique q q' other (hassigned hother).2 other' (hassigned hother').2,
    fun q k r hr => ?_, fun g' hg' => ?_⟩
  · rw [hqueue] at hr
    by_cases hq : q = perId
    · exact Or.inl (hzero k r (hq ▸ hr))
    · have hold := h.waiting q k r hr
      simpa [State.setPeripheral, hq] using hold
  · rcases List.mem_append.mp hg' with hg' | hg'
    · exact ⟨fun q other hother => (h.gone g' hg').1 q other (hassigned hother).2, (h.gone g' hg').2⟩
    · obtain rfl : g' = g := List.mem_singleton.mp hg'
      refine ⟨fun q other hother heq => ?_, hreleased⟩
      obtain ⟨hq, hother⟩ := hassigned hother
      exact hq (h.unique q perId other hother hidc hhidc (Or.inl heq))

theorem disconnectPeripheral (h : ReleaseInv cfg s) {hidc : Hidc}
    (hhidc : hidc ∈ (s.peripherals perId).hidc) (hguard : ∀ input ∈ hidc.inputs,
      (∃ sent ∈ sentAtOnce s perId hidc, sent.1 = input.1) ∨ Quiet s perId hidc input.1) :
    ReleaseInv cfg (s.disconnectPeripheral cfg perId hidc) := by
  have he : Effect s (releaseAll cfg s perId hidc.peripheral hidc.inputs) perId Report.zero Report.zero :=
    releaseAll_effect hidc.inputs
  have hinv : ReleaseInv cfg (releaseAll cfg s perId hidc.peripheral hidc.inputs) :=
    h.effect he (fun _ hzero => Or.inl hzero) fun _ hzero _ _ _ => hzero
  have hreleased (input : Nat × Nat) (hinput : input ∈ hidc.inputs) :
      Released (releaseAll cfg s perId hidc.peripheral hidc.inputs).log hidc.peripheral input.1 := by
    rcases hguard input hinput with ⟨sent, hsent, hid⟩ | hquiet
    · rw [← hid]
      exact releaseAll_released (h.inputs perId hidc hhidc) hsent
    · intro r hr
      rcases he.last hidc.peripheral input.1 with heq | ⟨r', hr', hzero, -⟩
      · exact hquiet.1 r (heq ▸ hr)
      · obtain rfl : r' = r := Option.some.inj (hr'.symm.trans hr)
        exact hzero
  have hold (k : Nat) (r : Report) (hr : r ∈ (s.queue perId k).list) : r.zero := by
    rcases h.waiting perId k r hr with hzero | ⟨other, hother, hperipheral, input, hinput, hid⟩
    · exact hzero
    · obtain rfl : hidc = other := Option.some.inj (hhidc.symm.trans hother)
      obtain rfl : r.reportId = k := h.ids perId k r hr
      rcases hguard input hinput with ⟨sent, hsent, hsentid⟩ | hquiet
      · rw [sentAtOnce] at hsent
        split_ifs at hsent
        · have hcond := List.find?_some hsent
          simp only [decide_eq_true_eq] at hcond
          have hempty : (s.queue perId r.reportId).list = [] := by
            rw [← List.length_eq_zero_iff, ← h.counts, ← hid, ← hsentid]
            exact hcond.2
          rw [hempty] at hr
          cases hr
        · cases hsent
      · exact hquiet.2 r (hid ▸ hr) hperipheral.symm
  have hzero (k : Nat) (r : Report)
      (hr : r ∈ ((releaseAll cfg s perId hidc.peripheral hidc.inputs).queue perId k).list) : r.zero :=
    (he.waiting perId k r hr).elim (hold k r) fun hnew => hnew.2.2
  exact hinv.detach (he.hidc perId ▸ hhidc) hzero hreleased _

theorem foldl_disconnectMatching {l : List Nat} {conn : Nat}
    (hnone : ∀ q ∈ l, ∀ hidc ∈ (s.peripherals q).hidc, hidc.conn ≠ conn) :
    l.foldl (State.disconnectMatching cfg conn) s = s := by
  induction l with
  | nil => rfl
  | cons q l ih =>
    have hq : s.disconnectMatching cfg conn q = s := by
      rw [State.disconnectMatching]
      split
      · next hidc hhidc => exact if_neg (hnone q (by simp) hidc hhidc)
      · rfl
    rw [List.foldl_cons, hq]
    exact ih fun q' hq' => hnone q' (by simp [hq'])

theorem hidc_disconnectPeripheral {hidc : Hidc} (q : Nat) :
    ((s.disconnectPeripheral cfg perId hidc).peripherals q).hidc =
      if q = perId then none else (s.peripherals q).hidc := by
  have he : Effect s (releaseAll cfg s perId hidc.peripheral hidc.inputs) perId Report.zero Report.zero :=
    releaseAll_effect hidc.inputs
  rw [State.disconnectPeripheral, ← releaseAll]
  by_cases hq : q = perId
  · simp [State.setPeripheral, hq]
  · simp [State.setPeripheral, hq, he.hidc q]

theorem peerDisconnected (h : ReleaseInv cfg s) {conn : Nat}
    (hguard : Undisturbed cfg s (.disconnected conn)) : ReleaseInv cfg (s.peerDisconnected cfg conn) := by
  by_cases hconn : ∃ q, ∃ hidc ∈ (s.peripherals q).hidc, hidc.conn = conn
  · obtain ⟨q, hidc, hhidc, rfl⟩ := hconn
    have hother (q' : Nat) (other : Hidc) (hother : other ∈ (s.peripherals q').hidc)
        (heq : other.conn = hidc.conn) : q' = q := h.unique q' q other hother hidc hhidc (Or.inr heq)
    have hslot := h.slots q hidc hhidc
    obtain ⟨l₁, l₂, hrange⟩ := List.append_of_mem (List.mem_range.mpr hslot)
    have hnodup : (l₁ ++ q :: l₂).Nodup := hrange ▸ List.nodup_range
    have hfirst : l₁.foldl (State.disconnectMatching cfg hidc.conn) s = s := by
      apply foldl_disconnectMatching
      intro q' hq' other hmem heq
      obtain rfl := hother q' other hmem heq
      exact (List.nodup_append.mp hnodup).2.2 q' hq' q' (by simp) rfl
    have hself : s.disconnectMatching cfg hidc.conn q = s.disconnectPeripheral cfg q hidc := by
      have hassigned : (s.peripherals q).hidc = some hidc := hhidc
      simp [State.disconnectMatching, hassigned]
    have hrest : l₂.foldl (State.disconnectMatching cfg hidc.conn) (s.disconnectPeripheral cfg q hidc) =
        s.disconnectPeripheral cfg q hidc := by
      apply foldl_disconnectMatching
      intro q' _ other hmem heq
      rw [hidc_disconnectPeripheral] at hmem
      split_ifs at hmem with hq
      · cases hmem
      · exact hq (hother q' other hmem heq)
    rw [State.peerDisconnected, hrange, List.foldl_append, hfirst, List.foldl_cons, hself, hrest]
    exact h.disconnectPeripheral hhidc (hguard.2 q hslot hidc hhidc rfl)
  · rw [State.peerDisconnected, foldl_disconnectMatching]
    · exact h
    · exact fun q _ hidc hhidc heq => hconn ⟨q, hidc, hhidc, heq⟩

theorem step (h : ReleaseInv cfg s) (e : Event) (hguard : Undisturbed cfg s e) :
    ReleaseInv cfg (s.step cfg e) := by
  cases e with
  | report perId reportId data =>
    obtain ⟨hidc, hhidc, hinput⟩ := hguard.1
    have hassigned : (s.peripherals perId).hidc = some hidc := hhidc
    rw [State.step, hassigned]
    exact h.report hhidc hinput
  | reportSent subscriber => exact h.reportSent subscriber
  | subscription subscriber reportId enabled => exact h.subscription subscriber reportId enabled
  | connected hidc err => exact h.registerPeripheral err hguard.1
  | disconnected conn => exact h.peerDisconnected hguard
  | erased => exact h.of_same rfl rfl fun _ _ => rfl
  | powerDown => exact h.of_same rfl rfl fun _ _ => rfl
  | wakeUp => exact h.of_same rfl rfl fun _ _ => rfl

end ReleaseInv

end Disconnection

/-- No undisturbed run leaves a key pressed whose peripheral has disconnected. -/
theorem hidForward_noStuckKey {cfg : Config} {addresses : Nat → Option Nat} {s : State}
    (hs : Reached (State.step cfg) (Undisturbed cfg) (State.init addresses) s) : NoStuckKey s := by
  have hstep (s : State) (e : Event) (h : ReleaseInv cfg s) (hguard : Undisturbed cfg s e) :
      ReleaseInv cfg (s.step cfg e) := h.step e hguard
  exact (hs.invariant (ReleaseInv.init addresses) hstep).noStuckKey

def oneDevice : Config := ⟨2, 1, 2, by decide⟩

def keyThenGone : List Event :=
  [.subscription 70 1 true, .connected ⟨5, 100, [(1, 2)]⟩ 0, .report 0 1 [4, 0], .reportSent 70,
    .disconnected 5, .reportSent 70]

theorem keyThenGone_noStuckKey :
    NoStuckKey (keyThenGone.foldl (State.step oneDevice) (State.init fun _ => none)) ∧
      (keyThenGone.foldl (State.step oneDevice) (State.init fun _ => none)).log =
        [.forwarded ⟨some 70, 1, [4, 0], 100, 0⟩, .confirmed 70,
          .forwarded ⟨some 70, 1, [0, 0], 100, 1⟩, .confirmed 70] := by
  have hguarded : Reached.Guarded (State.step oneDevice) (Undisturbed oneDevice)
      (State.init fun _ => none) keyThenGone := by decide
  exact ⟨hidForward_noStuckKey (Reached.run .start hguarded), by decide⟩

def goneWhileBusy : List Event :=
  [.subscription 70 1 true, .connected ⟨5, 100, [(1, 2)]⟩ 0, .report 0 1 [4, 0], .disconnected 5,
    .reportSent 70]

theorem goneWhileBusy_stuckKey :
    ∃ s, Reached (State.step oneDevice) (InOrder oneDevice) (State.init fun _ => none) s ∧
      ¬ NoStuckKey s := by
  have hguarded : Reached.Guarded (State.step oneDevice) (InOrder oneDevice)
      (State.init fun _ => none) goneWhileBusy := by decide
  refine ⟨_, Reached.run .start hguarded, fun hnone => ?_⟩
  have hreleased := hnone ⟨100, 0, [(1, 2)]⟩ (by decide) (by decide) (by decide)
    (1, 2) (by decide) (by decide)
  exact absurd hreleased (by decide)

end SdkNrf.Desktop.HidForward
