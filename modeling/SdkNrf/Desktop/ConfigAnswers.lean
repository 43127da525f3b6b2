import SdkNrf.Desktop.ConfigReaction

/-!
# Answers to configuration requests

Every request is answered once, and until then its peripheral has a GATT operation in flight for it or its
timer runs.
-/

namespace SdkNrf.Desktop.ConfigForward

def State.answersTo (s : State) (n : Nat) : List ConfigEvent := s.responses.filter fun rsp => rsp.number = n

def State.pending (cfg : Config) (s : State) (n : Nat) : Bool :=
  (List.range cfg.maxConn).any fun p => (s.peripherals p).cfgChanRsp.any fun rsp => rsp.number = n

/-- Nothing goes wrong; every request is answered once, as itself, and with what its peripheral responds;
while it is not answered, there is something to wait for. -/
structure ConfigRight (cfg : Config) (s : State) : Prop where
  faults : s.faults = []
  answered : ∀ n < s.requests.length, (s.answersTo n).length + (s.pending cfg n).toNat = 1
  own : ∀ rsp ∈ s.responses, ∃ request ∈ s.requests[rsp.number]?, Matches rsp request
  awaited : ∀ p, ∀ rsp ∈ (s.peripherals p).cfgChanRsp, (s.peripherals p).readRsp = true ∨
    ∃ o ∈ (s.peripherals p).inFlight, o.number? = some rsp.number
  data : ∀ r ∈ s.reports, TakenOver r.2 →
    ∃ rsp ∈ s.answersTo r.1, rsp.status = r.2.getD 2 0 ∧ rsp.data = reportData r.2

def Event.slot : Event → Option Nat
  | .completed p _ _ _ => some p
  | .expired p _ => some p
  | _ => none

def Advance (cfg : Config) (s : State) (e : Event) : Prop :=
  ∀ p ∈ e.slot, ((s.step cfg e).peripherals p).stepsLeft < (s.peripherals p).stepsLeft

/-- Operations that are in flight are completed, with reports of the right size, and timers expire
that run. -/
def InOrder (s : State) : Event → Prop
  | .completed p o _ data => o ∈ (s.peripherals p).inFlight ∧ data.length = REPORT_SIZE_USER_CONFIG
  | .expired p _ => (s.peripherals p).readRsp = true
  | _ => True

/-- An operation is completed before its request has been answered, a read without an error and with a
report that can be read; a report that is fetched exists. -/
def Fit (s : State) : Event → Prop
  | .completed p o err data => ∃ rsp ∈ (s.peripherals p).cfgChanRsp, o.number? = some rsp.number ∧
      (o.isWrite = false → err = 0 ∧ Readable rsp data)
  | .expired p _ => ∃ hidc ∈ (s.peripherals p).hidc, hidc.hasFeature = true
  | _ => True

def Undisturbed (s : State) (e : Event) : Prop := InOrder s e ∧ Fit s e

instance (s : State) (e : Event) : Decidable (InOrder s e) := by
  cases e <;> unfold InOrder <;> infer_instance

instance (s : State) (e : Event) : Decidable (Undisturbed s e) := by
  have hfit : Decidable (Fit s e) := by
    cases e <;> unfold Fit <;> infer_instance
  exact inferInstanceAs (Decidable (_ ∧ _))

structure Pend (requests : List ConfigEvent) (per : Peripheral) (rsp : ConfigEvent) : Prop where
  request : ∃ request ∈ requests[rsp.number]?, Matches rsp request
  recipient : rsp.recipient = per.cfgChanId
  indexed : per.cfgChanId ≠ CFG_CHAN_UNUSED_PEER_ID
  phase : Phase per rsp

structure SlotInv (requests : List ConfigEvent) (per : Peripheral) : Prop where
  idle : per.cfgChanRsp = none → per.readRsp = false
  pending : ∀ rsp ∈ per.cfgChanRsp, Pend requests per rsp
  known : ∀ o ∈ per.inFlight, ∀ n ∈ o.number?, n < requests.length

def Waits (s : State) (n : Nat) : Prop := ∃ p, ∃ rsp ∈ (s.peripherals p).cfgChanRsp, rsp.number = n

structure ConfigInv (cfg : Config) (s : State) : Prop where
  faults : s.faults = []
  slots : ∀ p, SlotInv s.requests (s.peripherals p)
  indexed : ∀ p, (s.peripherals p).cfgChanId = CFG_CHAN_UNUSED_PEER_ID ∨
    (s.peripherals p).cfgChanId = (CFG_CHAN_BASE_ID + p).toUInt8
  bound : ∀ p, (s.peripherals p).cfgChanRsp.isSome → p < cfg.maxConn
  unique : ∀ p q, ∀ rsp ∈ (s.peripherals p).cfgChanRsp, ∀ rsp' ∈ (s.peripherals q).cfgChanRsp,
    rsp.number = rsp'.number → p = q
  answered : ∀ n < s.requests.length,
    (Waits s n ∧ s.answersTo n = []) ∨ (¬ Waits s n ∧ (s.answersTo n).length = 1)
  own : ∀ rsp ∈ s.responses, ∃ request ∈ s.requests[rsp.number]?, Matches rsp request
  data : ∀ r ∈ s.reports, TakenOver r.2 →
    ∃ rsp ∈ s.answersTo r.1, rsp.status = r.2.getD 2 0 ∧ rsp.data = reportData r.2

namespace ConfigInv

variable {cfg : Config} {s s' : State} {p : Nat}

theorem init : ConfigInv cfg State.init where
  faults := rfl
  slots _ := ⟨fun _ => rfl, fun _ hrsp => (by cases hrsp), fun _ ho => absurd ho List.not_mem_nil⟩
  indexed _ := Or.inl rfl
  bound _ hsome := by cases hsome
  unique _ _ _ hrsp := by cases hrsp
  answered _ hn := absurd hn (Nat.not_lt_zero _)
  own _ hrsp := absurd hrsp List.not_mem_nil
  data _ hr := absurd hr List.not_mem_nil

theorem any_eq_true {α : Type} {a : Option α} {p : α → Bool} : a.any p = true ↔ ∃ x ∈ a, p x = true := by
  cases a <;> simp

theorem pending_eq (h : ConfigInv cfg s) (n : Nat) : s.pending cfg n = true ↔ Waits s n := by
  simp only [State.pending, List.any_eq_true, List.mem_range]
  constructor
  · rintro ⟨p, -, hany⟩
    obtain ⟨rsp, hrsp, hn⟩ := any_eq_true.mp hany
    exact ⟨p, rsp, hrsp, by simpa using hn⟩
  · rintro ⟨p, rsp, hrsp, hn⟩
    exact ⟨p, h.bound p (Option.isSome_of_mem hrsp), any_eq_true.mpr ⟨rsp, hrsp, by simpa using hn⟩⟩

theorem configRight (h : ConfigInv cfg s) : ConfigRight cfg s where
  faults := h.faults
  answered n hn := by
    rcases h.answered n hn with ⟨hwaits, hnone⟩ | ⟨hnot, hone⟩
    · rw [hnone, (h.pending_eq n).mpr hwaits]
      rfl
    · have hfalse : s.pending cfg n = false := by
        rw [← Bool.not_eq_true, h.pending_eq]
        exact hnot
      rw [hone, hfalse]
      rfl
  own := h.own
  awaited p rsp hrsp := by
    cases ((h.slots p).pending rsp hrsp).phase with
    | write report own =>
      have hmem : Operation.write rsp.number report ∈ (s.peripherals p).own rsp.number := by simp [own]
      exact Or.inr ⟨_, mem_own.mp hmem⟩
    | timer own timer => exact Or.inl timer
    | read own =>
      have hmem : Operation.read (some rsp.number) ∈ (s.peripherals p).own rsp.number := by simp [own]
      exact Or.inr ⟨_, mem_own.mp hmem⟩
  data := h.data

theorem waits_iff (p n : Nat) : Waits s n ↔ (∃ rsp ∈ (s.peripherals p).cfgChanRsp, rsp.number = n) ∨
    ∃ q, q ≠ p ∧ ∃ rsp ∈ (s.peripherals q).cfgChanRsp, rsp.number = n := by
  constructor
  · rintro ⟨q, hq⟩
    by_cases hqp : q = p
    · exact Or.inl (hqp ▸ hq)
    · exact Or.inr ⟨q, hqp, hq⟩
  · rintro (hp | ⟨q, -, hq⟩)
    · exact ⟨p, hp⟩
    · exact ⟨q, hq⟩

theorem answersTo_append {answers : List ConfigEvent} (hresponses : s'.responses = s.responses ++ answers)
    (n : Nat) : s'.answersTo n = s.answersTo n ++ answers.filter fun rsp => rsp.number = n := by
  rw [State.answersTo, hresponses, List.filter_append]
  rfl

theorem slot_update (h : ConfigInv cfg s) {per' : Peripheral} {o : Outcome}
    {reports : List (Nat × List UInt8)}
    {rsp : ConfigEvent} (hrsp : (s.peripherals p).cfgChanRsp = some rsp)
    (hr : Reaction (s.peripherals p) rsp reports o) (hper : per' = o.peripheral) :
    SlotInv s.requests per' ∧ (per'.cfgChanId = CFG_CHAN_UNUSED_PEER_ID ∨
      per'.cfgChanId = (CFG_CHAN_BASE_ID + p).toUInt8) := by
  have hpend := (h.slots p).pending rsp hrsp
  have hnumber : rsp.number < s.requests.length := by
    obtain ⟨request, hrequest, -⟩ := hpend.request
    exact (List.getElem?_eq_some_iff.mp hrequest).1
  cases hr with
  | @waits per'' rsp' held number same phase cfgChanId inFlight =>
    subst hper
    refine ⟨⟨fun hnone => ?_, fun rsp'' hrsp'' => ?_, fun o ho n hn => ?_⟩, ?_⟩
    · rw [held] at hnone
      cases hnone
    · obtain rfl : rsp' = rsp'' := Option.some.inj (held.symm.trans hrsp'')
      obtain ⟨request, hrequest, hmatch⟩ := hpend.request
      refine ⟨⟨request, number ▸ hrequest, same.1.trans hmatch.1, same.2.1.trans hmatch.2.1,
        same.2.2.trans hmatch.2.2⟩, ?_, ?_, phase⟩
      · rw [cfgChanId, ← hpend.recipient]
        exact same.2.2
      · rw [cfgChanId]
        exact hpend.indexed
    · rcases inFlight o ho with hold | hnew
      · exact (h.slots p).known o hold n hn
      · obtain rfl : rsp.number = n := Option.some.inj (hnew.symm.trans hn)
        exact hnumber
    · rw [cfgChanId]
      exact h.indexed p
  | answers free timer number same cfgChanId inFlight =>
    subst hper
    refine ⟨⟨fun _ => timer, fun rsp'' hrsp'' => ?_, fun o ho => (h.slots p).known o (inFlight o ho)⟩, ?_⟩
    · have hsome : some rsp'' = none := hrsp''.symm.trans free
      cases hsome
    · rcases cfgChanId with hsame | hunused
      · rw [hsame]
        exact h.indexed p
      · exact Or.inl hunused

/-- The peripheral `p` reacts for its request, and nothing else happens. -/
structure Reacts (s s' : State) (p : Nat) (rsp : ConfigEvent) (read : List (Nat × List UInt8))
    (o : Outcome) : Prop where
  held : (s.peripherals p).cfgChanRsp = some rsp
  reaction : Reaction (s.peripherals p) rsp read o
  peripherals : s'.peripherals = Function.update s.peripherals p o.peripheral
  requests : s'.requests = s.requests
  responses : s'.responses = s.responses ++ o.responses
  reports : s'.reports = s.reports ++ read
  faults : s'.faults = s.faults ++ o.faults

namespace Reacts

variable {rsp rsp' : ConfigEvent} {o : Outcome} {read : List (Nat × List UInt8)} {q : Nat}

theorem self (hr : Reacts s s' p rsp read o) : s'.peripherals p = o.peripheral := by
  rw [hr.peripherals, Function.update_self]

theorem other (hr : Reacts s s' p rsp read o) (hq : q ≠ p) : s'.peripherals q = s.peripherals q := by
  rw [hr.peripherals, Function.update_of_ne hq]

theorem number (hr : Reacts s s' p rsp read o) (hrsp' : rsp' ∈ o.peripheral.cfgChanRsp) :
    rsp'.number = rsp.number := by
  cases hr.reaction with
  | waits held number =>
    obtain rfl : _ = rsp' := Option.some.inj (held.symm.trans hrsp')
    exact number
  | answers free =>
    have hsome : some rsp' = none := hrsp'.symm.trans free
    cases hsome

/-- What another slot waits for is another request. -/
theorem distinct (hr : Reacts s s' p rsp read o) (h : ConfigInv cfg s) (hq : q ≠ p)
    (hrsp' : rsp' ∈ (s.peripherals q).cfgChanRsp) : rsp'.number ≠ rsp.number :=
  fun heq => hq (h.unique q p rsp' hrsp' rsp hr.held heq)

theorem no_faults (hr : Reacts s s' p rsp read o) (h : ConfigInv cfg s) : s'.faults = [] := by
  rw [hr.faults, h.faults]
  cases hr.reaction <;> rfl

theorem slots (hr : Reacts s s' p rsp read o) (h : ConfigInv cfg s) (q : Nat) :
    SlotInv s'.requests (s'.peripherals q) := by
  rw [hr.requests]
  by_cases hq : q = p
  · rw [hq, hr.self]
    exact (h.slot_update hr.held hr.reaction rfl).1
  · rw [hr.other hq]
    exact h.slots q

theorem indexed (hr : Reacts s s' p rsp read o) (h : ConfigInv cfg s) (q : Nat) :
    (s'.peripherals q).cfgChanId = CFG_CHAN_UNUSED_PEER_ID ∨
      (s'.peripherals q).cfgChanId = (CFG_CHAN_BASE_ID + q).toUInt8 := by
  by_cases hq : q = p
  · rw [hq, hr.self]
    exact (h.slot_update hr.held hr.reaction rfl).2
  · rw [hr.other hq]
    exact h.indexed q

theorem bound (hr : Reacts s s' p rsp read o) (h : ConfigInv cfg s)
    (hq : (s'.peripherals q).cfgChanRsp.isSome) : q < cfg.maxConn := by
  by_cases hqp : q = p
  · exact hqp ▸ h.bound p (by simp [hr.held])
  · rw [hr.other hqp] at hq
    exact h.bound q hq

theorem unique (hr : Reacts s s' p rsp read o) (h : ConfigInv cfg s) {q' : Nat} {r r' : ConfigEvent}
    (hmem : r ∈ (s'.peripherals q).cfgChanRsp) (hmem' : r' ∈ (s'.peripherals q').cfgChanRsp)
    (heq : r.number = r'.number) : q = q' := by
  by_cases hq : q = p
  · by_cases hq' : q' = p
    · exact hq.trans hq'.symm
    · rw [hq, hr.self] at hmem
      rw [hr.other hq'] at hmem'
      exact absurd (heq.symm.trans (hr.number hmem)) (hr.distinct h hq' hmem')
  · rw [hr.other hq] at hmem
    by_cases hq' : q' = p
    · rw [hq', hr.self] at hmem'
      exact absurd (heq.trans (hr.number hmem')) (hr.distinct h hq hmem)
    · rw [hr.other hq'] at hmem'
      exact h.unique q q' r hmem r' hmem' heq

theorem waits (hr : Reacts s s' p rsp read o) (n : Nat) :
    Waits s' n ↔ (∃ rsp ∈ o.peripheral.cfgChanRsp, rsp.number = n) ∨
      ∃ q, q ≠ p ∧ ∃ rsp ∈ (s.peripherals q).cfgChanRsp, rsp.number = n := by
  rw [waits_iff p n, hr.self]
  exact or_congr Iff.rfl (exists_congr fun q => and_congr_right fun hq => by rw [hr.other hq])

theorem answered (hr : Reacts s s' p rsp read o) (h : ConfigInv cfg s) {n : Nat}
    (hn : n < s'.requests.length) :
    (Waits s' n ∧ s'.answersTo n = []) ∨ (¬ Waits s' n ∧ (s'.answersTo n).length = 1) := by
  rw [hr.requests] at hn
  have hbefore : Waits s n ↔ rsp.number = n ∨
      ∃ q, q ≠ p ∧ ∃ rsp ∈ (s.peripherals q).cfgChanRsp, rsp.number = n := by
    rw [waits_iff p n, hr.held]
    simp
  have hold := h.answered n hn
  rw [hbefore] at hold
  rw [answersTo_append hr.responses, hr.waits]
  have hreact := hr.reaction
  cases hreact with
  | waits held number => simpa [held, number] using hold
  | answers free timer number =>
    have hnone : ¬ ∃ q, q ≠ p ∧ ∃ rsp' ∈ (s.peripherals q).cfgChanRsp, rsp'.number = rsp.number := by
      rintro ⟨q, hq, rsp', hrsp', heq⟩
      exact hr.distinct h hq hrsp' heq
    by_cases hn : rsp.number = n
    · subst hn
      have hempty := (hold.resolve_right fun hright => hright.1 (Or.inl rfl)).2
      refine Or.inr ⟨?_, ?_⟩
      · simpa [free] using hnone
      · simp [hempty, number]
    · simpa [free, number, hn] using hold

theorem own (hr : Reacts s s' p rsp read o) (h : ConfigInv cfg s) {r : ConfigEvent}
    (hmem : r ∈ s'.responses) : ∃ request ∈ s'.requests[r.number]?, Matches r request := by
  rw [hr.responses] at hmem
  rw [hr.requests]
  rcases List.mem_append.mp hmem with hold | hnew
  · exact h.own r hold
  · obtain ⟨request, hrequest, hmatch⟩ := ((h.slots p).pending rsp hr.held).request
    have hreact := hr.reaction
    cases hreact with
    | waits => cases hnew
    | answers free timer number same =>
      obtain rfl := List.mem_singleton.mp hnew
      exact ⟨request, number ▸ hrequest, same.1.trans hmatch.1, same.2.1.trans hmatch.2.1,
        same.2.2.trans hmatch.2.2⟩

theorem data (hr : Reacts s s' p rsp read o) (h : ConfigInv cfg s) {r : Nat × List UInt8}
    (hmem : r ∈ s'.reports) (htaken : TakenOver r.2) :
    ∃ rsp ∈ s'.answersTo r.1, rsp.status = r.2.getD 2 0 ∧ rsp.data = reportData r.2 := by
  rw [hr.reports] at hmem
  rw [answersTo_append hr.responses]
  rcases List.mem_append.mp hmem with hold | hnew
  · obtain ⟨answer, hanswer, hdata⟩ := h.data r hold htaken
    exact ⟨answer, List.mem_append_left _ hanswer, hdata⟩
  · have hreact := hr.reaction
    cases hreact with
    | waits held number same phase cfgChanId inFlight pending => exact absurd htaken (pending r hnew)
    | @answers per' answer free timer number same cfgChanId inFlight taken =>
      obtain ⟨hnumber, hdata⟩ := taken r hnew htaken
      refine ⟨answer, List.mem_append_right _ ?_, hdata⟩
      simp [hnumber, number]

end Reacts

theorem react (h : ConfigInv cfg s) {rsp : ConfigEvent} {o : Outcome} {read : List (Nat × List UInt8)}
    (hr : Reacts s s' p rsp read o) : ConfigInv cfg s' where
  faults := hr.no_faults h
  slots := hr.slots h
  indexed := hr.indexed h
  bound _ := hr.bound h
  unique _ _ _ hmem _ hmem' := hr.unique h hmem hmem'
  answered _ := hr.answered h
  own _ := hr.own h
  data _ := hr.data h

structure Quiet (per per' : Peripheral) : Prop where
  cfgChanRsp : per'.cfgChanRsp = per.cfgChanRsp
  readRsp : per'.readRsp = per.readRsp
  curPollCnt : per.cfgChanRsp.isSome → per'.curPollCnt = per.curPollCnt
  inFlight : per'.inFlight = per.inFlight
  cfgChanId : per.cfgChanRsp.isSome → per'.cfgChanId = per.cfgChanId

theorem Quiet.refl (per : Peripheral) : Quiet per per := ⟨rfl, rfl, fun _ => rfl, rfl, fun _ => rfl⟩

theorem request_append {requests : List ConfigEvent} {rsp : ConfigEvent} (new : List ConfigEvent)
    (h : ∃ request ∈ requests[rsp.number]?, Matches rsp request) :
    ∃ request ∈ (requests ++ new)[rsp.number]?, Matches rsp request := by
  obtain ⟨request, hrequest, hmatch⟩ := h
  refine ⟨request, ?_, hmatch⟩
  rw [List.getElem?_append_left (List.getElem?_eq_some_iff.mp hrequest).1]
  exact hrequest

theorem Quiet.slotInv {requests : List ConfigEvent} {per per' : Peripheral} (hq : Quiet per per')
    (h : SlotInv requests per) (new : List ConfigEvent) : SlotInv (requests ++ new) per' where
  idle hnone := hq.readRsp.trans (h.idle (hq.cfgChanRsp ▸ hnone))
  pending rsp hrsp := by
    have hold : rsp ∈ per.cfgChanRsp := hq.cfgChanRsp ▸ hrsp
    have hpend := h.pending rsp hold
    have hid := hq.cfgChanId (Option.isSome_of_mem hold)
    have hcnt := hq.curPollCnt (Option.isSome_of_mem hold)
    have hown (n : Nat) : per'.own n = per.own n := by rw [Peripheral.own, hq.inFlight, Peripheral.own]
    refine ⟨request_append new hpend.request, hpend.recipient.trans hid.symm, hid ▸ hpend.indexed, ?_⟩
    cases hpend.phase with
    | write report own timer size => exact .write report ((hown _).trans own) (hq.readRsp.trans timer) size
    | timer own timer polls =>
      exact .timer ((hown _).trans own) (hq.readRsp.trans timer) (hcnt.symm ▸ polls)
    | read own timer polls =>
      exact .read ((hown _).trans own) (hq.readRsp.trans timer) (hcnt.symm ▸ polls)
  known o ho n hn := by
    rw [List.length_append]
    exact Nat.lt_add_right _ (h.known o (hq.inFlight ▸ ho) n hn)

theorem number_lt (h : ConfigInv cfg s) {rsp : ConfigEvent}
    (hrsp : rsp ∈ (s.peripherals p).cfgChanRsp ∨ rsp ∈ s.responses) : rsp.number < s.requests.length := by
  have hrequest : ∃ request ∈ s.requests[rsp.number]?, Matches rsp request := by
    rcases hrsp with hrsp | hrsp
    · exact ((h.slots p).pending rsp hrsp).request
    · exact h.own rsp hrsp
  obtain ⟨request, hrequest, -⟩ := hrequest
  exact (List.getElem?_eq_some_iff.mp hrequest).1

theorem fresh (h : ConfigInv cfg s) : ¬ Waits s s.requests.length ∧ s.answersTo s.requests.length = [] := by
  constructor
  · rintro ⟨p, rsp, hrsp, hnumber⟩
    exact absurd hnumber (h.number_lt (Or.inl hrsp)).ne
  · apply List.filter_eq_nil_iff.mpr
    intro rsp hrsp
    have hlt := h.number_lt (p := 0) (Or.inr hrsp)
    simp only [decide_eq_true_eq]
    omega

theorem quiet (h : ConfigInv cfg s) (hq : ∀ p, Quiet (s.peripherals p) (s'.peripherals p))
    (hindexed : ∀ p, (s'.peripherals p).cfgChanId = CFG_CHAN_UNUSED_PEER_ID ∨
      (s'.peripherals p).cfgChanId = (CFG_CHAN_BASE_ID + p).toUInt8)
    {new answers : List ConfigEvent} (hrequests : s'.requests = s.requests ++ new)
    (hresponses : s'.responses = s.responses ++ answers) (hreports : s'.reports = s.reports)
    (hfaults : s'.faults = s.faults) (hnew : (new = [] ∧ answers = []) ∨ ∃ event answer, new = [event] ∧
      answers = [answer] ∧ answer.number = s.requests.length ∧ Matches answer event) :
    ConfigInv cfg s' where
  faults := hfaults.trans h.faults
  indexed := hindexed
  slots p := by
    rw [hrequests]
    exact (hq p).slotInv (h.slots p) new
  bound p hp := by
    rw [(hq p).cfgChanRsp] at hp
    exact h.bound p hp
  unique p q r hr r' hr' := by
    rw [(hq p).cfgChanRsp] at hr
    rw [(hq q).cfgChanRsp] at hr'
    exact h.unique p q r hr r' hr'
  answered n hn := by
    have hwaits : Waits s' n ↔ Waits s n := exists_congr fun p => by rw [(hq p).cfgChanRsp]
    rw [answersTo_append hresponses, hwaits]
    rw [hrequests] at hn
    rcases hnew with ⟨rfl, rfl⟩ | ⟨event, answer, rfl, rfl, hnumber, -⟩
    · rw [List.append_nil] at hn
      simpa using h.answered n hn
    · rw [List.length_append, List.length_singleton] at hn
      rcases Nat.lt_succ_iff_lt_or_eq.mp hn with hlt | rfl
      · have hne : answer.number ≠ n := by omega
        simpa [hne] using h.answered n hlt
      · exact Or.inr ⟨h.fresh.1, by simp [h.fresh.2, hnumber]⟩
  own r hr := by
    rw [hrequests]
    rw [hresponses] at hr
    rcases List.mem_append.mp hr with hr | hr
    · exact request_append new (h.own r hr)
    · rcases hnew with ⟨-, rfl⟩ | ⟨event, answer, rfl, rfl, hnumber, hmatch⟩
      · cases hr
      · obtain rfl := List.mem_singleton.mp hr
        refine ⟨event, ?_, hmatch⟩
        simp [hnumber]
  data r hr htaken := by
    rw [hreports] at hr
    obtain ⟨answer, hanswer, hdata⟩ := h.data r hr htaken
    rw [answersTo_append hresponses]
    exact ⟨answer, List.mem_append_left _ hanswer, hdata⟩

/-- The peripheral `p` takes a request, of which `rsp` becomes the response and which is written. -/
structure Accepts (cfg : Config) (s s' : State) (p : Nat) (event rsp : ConfigEvent)
    (report : List UInt8) : Prop where
  free : (s.peripherals p).cfgChanRsp = none
  lt : p < cfg.maxConn
  used : (s.peripherals p).cfgChanId ≠ CFG_CHAN_UNUSED_PEER_ID
  number : rsp.number = s.requests.length
  same : Matches rsp event
  recipient : rsp.recipient = (s.peripherals p).cfgChanId
  size : rsp.status = CONFIG_STATUS_SET → rsp.data = []
  peripherals : s'.peripherals = Function.update s.peripherals p { s.peripherals p with
    cfgChanRsp := some rsp
    inFlight := (s.peripherals p).inFlight ++ [.write rsp.number report] }
  requests : s'.requests = s.requests ++ [event]
  responses : s'.responses = s.responses
  reports : s'.reports = s.reports
  faults : s'.faults = s.faults

namespace Accepts

variable {event rsp rsp' : ConfigEvent} {report : List UInt8} {q n : Nat}

theorem self (ha : Accepts cfg s s' p event rsp report) : s'.peripherals p = { s.peripherals p with
    cfgChanRsp := some rsp
    inFlight := (s.peripherals p).inFlight ++ [.write rsp.number report] } := by
  rw [ha.peripherals, Function.update_self]

theorem other (ha : Accepts cfg s s' p event rsp report) (hq : q ≠ p) :
    s'.peripherals q = s.peripherals q := by
  rw [ha.peripherals, Function.update_of_ne hq]

theorem held (ha : Accepts cfg s s' p event rsp report) (hrsp' : rsp' ∈ (s'.peripherals p).cfgChanRsp) :
    rsp' = rsp := by
  rw [ha.self] at hrsp'
  exact (Option.some.inj hrsp').symm

theorem own_eq (ha : Accepts cfg s s' p event rsp report) (h : ConfigInv cfg s) :
    (s'.peripherals p).own rsp.number = [.write rsp.number report] := by
  have hold : (s.peripherals p).inFlight.filter (fun o => o.number? = some rsp.number) = [] := by
    apply List.filter_eq_nil_iff.mpr
    intro o ho
    simp only [decide_eq_true_eq]
    intro heq
    exact absurd ha.number ((h.slots p).known o ho rsp.number heq).ne
  rw [ha.self, Peripheral.own, List.filter_append, hold]
  simp [Operation.number?]

theorem pend (ha : Accepts cfg s s' p event rsp report) (h : ConfigInv cfg s) :
    Pend (s.requests ++ [event]) (s'.peripherals p) rsp := by
  have hrequest : ∃ request ∈ (s.requests ++ [event])[rsp.number]?, Matches rsp request := by
    refine ⟨event, ?_, ha.same⟩
    simp [ha.number]
  refine ⟨hrequest, ?_, ?_, .write report (ha.own_eq h) ?_ ha.size⟩ <;> rw [ha.self]
  · exact ha.recipient
  · exact ha.used
  · exact (h.slots p).idle ha.free

theorem slots (ha : Accepts cfg s s' p event rsp report) (h : ConfigInv cfg s) (q : Nat) :
    SlotInv s'.requests (s'.peripherals q) := by
  rw [ha.requests]
  by_cases hq : q = p
  · subst hq
    refine ⟨fun hnone => ?_, fun r hr => ?_, fun o ho n hn => ?_⟩
    · rw [ha.self] at hnone
      cases hnone
    · rw [ha.held hr]
      exact ha.pend h
    · rw [List.length_append]
      rw [ha.self] at ho
      rcases List.mem_append.mp ho with ho | ho
      · exact Nat.lt_add_right _ ((h.slots q).known o ho n hn)
      · rw [List.mem_singleton.mp ho] at hn
        obtain rfl : rsp.number = n := Option.some.inj hn
        rw [ha.number]
        exact Nat.lt_succ_self _
  · rw [ha.other hq]
    exact (Quiet.refl _).slotInv (h.slots q) [event]

theorem indexed (ha : Accepts cfg s s' p event rsp report) (h : ConfigInv cfg s) (q : Nat) :
    (s'.peripherals q).cfgChanId = CFG_CHAN_UNUSED_PEER_ID ∨
      (s'.peripherals q).cfgChanId = (CFG_CHAN_BASE_ID + q).toUInt8 := by
  by_cases hq : q = p
  · subst hq
    rw [ha.self]
    exact h.indexed q
  · rw [ha.other hq]
    exact h.indexed q

theorem bound (ha : Accepts cfg s s' p event rsp report) (h : ConfigInv cfg s)
    (hq : (s'.peripherals q).cfgChanRsp.isSome) : q < cfg.maxConn := by
  by_cases hqp : q = p
  · exact hqp ▸ ha.lt
  · rw [ha.other hqp] at hq
    exact h.bound q hq

theorem unique (ha : Accepts cfg s s' p event rsp report) (h : ConfigInv cfg s) {q' : Nat}
    {r r' : ConfigEvent} (hr : r ∈ (s'.peripherals q).cfgChanRsp)
    (hr' : r' ∈ (s'.peripherals q').cfgChanRsp) (heq : r.number = r'.number) : q = q' := by
  by_cases hq : q = p
  · by_cases hq' : q' = p
    · exact hq.trans hq'.symm
    · obtain rfl := ha.held (hq ▸ hr)
      rw [ha.other hq'] at hr'
      exact absurd (heq.symm.trans ha.number) (h.number_lt (Or.inl hr')).ne
  · rw [ha.other hq] at hr
    by_cases hq' : q' = p
    · obtain rfl := ha.held (hq' ▸ hr')
      exact absurd (heq.trans ha.number) (h.number_lt (Or.inl hr)).ne
    · rw [ha.other hq'] at hr'
      exact h.unique q q' r hr r' hr' heq

theorem waits (ha : Accepts cfg s s' p event rsp report) (n : Nat) :
    Waits s' n ↔ rsp.number = n ∨ Waits s n := by
  have hrest : (∃ q, q ≠ p ∧ ∃ rsp ∈ (s'.peripherals q).cfgChanRsp, rsp.number = n) ↔
      ∃ q, q ≠ p ∧ ∃ rsp ∈ (s.peripherals q).cfgChanRsp, rsp.number = n :=
    exists_congr fun q => and_congr_right fun hq => by rw [ha.other hq]
  rw [waits_iff p n, waits_iff p n, ha.free, hrest, ha.self]
  simp

theorem answered (ha : Accepts cfg s s' p event rsp report) (h : ConfigInv cfg s)
    (hn : n < s'.requests.length) :
    (Waits s' n ∧ s'.answersTo n = []) ∨ (¬ Waits s' n ∧ (s'.answersTo n).length = 1) := by
  have hanswers : s'.answersTo n = s.answersTo n := by
    rw [State.answersTo, ha.responses, State.answersTo]
  rw [hanswers, ha.waits]
  rw [ha.requests, List.length_append, List.length_singleton] at hn
  rcases Nat.lt_succ_iff_lt_or_eq.mp hn with hlt | rfl
  · have hne : rsp.number ≠ n := by
      rw [ha.number]
      omega
    simpa [hne] using h.answered n hlt
  · exact Or.inl ⟨Or.inl ha.number, h.fresh.2⟩

end Accepts

theorem accept (h : ConfigInv cfg s) {event rsp : ConfigEvent} {report : List UInt8}
    (ha : Accepts cfg s s' p event rsp report) : ConfigInv cfg s' where
  faults := ha.faults.trans h.faults
  slots := ha.slots h
  indexed := ha.indexed h
  bound _ := ha.bound h
  unique _ _ _ hr _ hr' := ha.unique h hr hr'
  answered _ := ha.answered h
  own r hr := by
    rw [ha.responses] at hr
    rw [ha.requests]
    exact request_append [event] (h.own r hr)
  data r hr htaken := by
    rw [ha.reports] at hr
    rw [State.answersTo, ha.responses]
    exact h.data r hr htaken

inductive Forwarded (per : Peripheral) (event : ConfigEvent) : Outcome → Prop
  | rejected (status : UInt8) : Forwarded per event ⟨per, [event.nodataResponse status], []⟩
  | written (size : Nat) (report : List UInt8) (free : per.cfgChanRsp = none)
      (empty : event.status = CONFIG_STATUS_SET → size = 0) :
      Forwarded per event ⟨{ per with
        cfgChanRsp := some (event.generateResponse size)
        inFlight := per.inFlight ++ [.write event.number report] }, [], []⟩

theorem forward_forwarded (per : Peripheral) (event : ConfigEvent) (writeErr : Int) :
    Forwarded per event (per.forward event writeErr) := by
  rw [Peripheral.forward]
  split
  · exact .rejected _
  · next hbusy =>
    have hfree : per.cfgChanRsp = none := by simpa using hbusy
    split
    · exact .rejected _
    split
    · exact .rejected _
    split
    · exact .rejected _
    split
    · exact .rejected _
    split
    · exact .rejected _
    · exact .written _ _ hfree fun hset => if_pos hset

theorem findPeripheral_eq_some {id : UInt8} (hfind : s.findPeripheral cfg id = some p) :
    p < cfg.maxConn ∧ (s.peripherals p).cfgChanId = id ∧ id ≠ CFG_CHAN_UNUSED_PEER_ID := by
  rw [State.findPeripheral] at hfind
  split at hfind
  · cases hfind
  · next hused =>
    exact ⟨List.mem_range.mp (List.mem_of_find?_eq_some hfind), by simpa using List.find?_some hfind, hused⟩

theorem quiet_index (h : ConfigInv cfg s) (p : Nat) : Quiet (s.peripherals p)
    { s.peripherals p with cfgChanId := (CFG_CHAN_BASE_ID + p).toUInt8 } := by
  refine ⟨rfl, rfl, fun _ => rfl, rfl, fun hsome => ?_⟩
  obtain ⟨rsp, hrsp⟩ := Option.isSome_iff_exists.mp hsome
  exact ((h.indexed p).resolve_left ((h.slots p).pending rsp hrsp).indexed).symm

theorem handleConfigEvent (h : ConfigInv cfg s) (event : ConfigEvent) (writeErr : Int) :
    ConfigInv cfg (s.handleConfigEvent cfg event writeErr) := by
  dsimp only [State.handleConfigEvent]
  split
  · refine h.quiet (fun p => ?_) (fun p => ?_) rfl rfl rfl rfl
      (Or.inr ⟨_, _, rfl, rfl, rfl, rfl, rfl, rfl⟩)
    · dsimp only [State.indexPeers]
      split
      · exact h.quiet_index p
      · exact .refl _
    · dsimp only [State.indexPeers]
      split
      · exact Or.inr rfl
      · exact h.indexed p
  split
  · exact h.quiet (fun p => .refl _) h.indexed rfl rfl rfl rfl
      (Or.inr ⟨_, _, rfl, rfl, rfl, rfl, rfl, rfl⟩)
  split
  · next p hfind =>
    obtain ⟨hp, hid, hused⟩ := findPeripheral_eq_some hfind
    generalize houtcome : (s.peripherals p).forward { event with number := s.requests.length } writeErr = o
    have hforward := forward_forwarded (s.peripherals p) { event with number := s.requests.length } writeErr
    rw [houtcome] at hforward
    cases hforward with
    | rejected status =>
      have hsame : Function.update s.peripherals p (s.peripherals p) = s.peripherals :=
        Function.update_eq_self ..
      refine h.quiet (fun q => ?_) (fun q => ?_) rfl rfl rfl (List.append_nil _)
        (Or.inr ⟨_, _, rfl, rfl, rfl, rfl, rfl, rfl⟩)
      · dsimp only [State.apply]
        rw [hsame]
        exact .refl _
      · dsimp only [State.apply]
        rw [hsame]
        exact h.indexed q
    | written size report free empty =>
      have hmatch : Matches
          (ConfigEvent.generateResponse { event with number := s.requests.length } size)
          { event with number := s.requests.length } := ⟨rfl, rfl, rfl⟩
      refine h.accept ⟨free, hp, hid ▸ hused, rfl, hmatch, hid.symm, fun hset => ?_, rfl, rfl,
        List.append_nil _, rfl, List.append_nil _⟩
      rw [ConfigEvent.generateResponse, empty hset]
      rfl
  · exact h

theorem reconnect (h : ConfigInv cfg s) (p : Nat) (hidc : Option Hidc) (hwid : List UInt8) :
    ConfigInv cfg { s with peripherals := Function.update s.peripherals p { s.peripherals p with
      hidc := hidc
      hwid := hwid } } := by
  refine h.quiet (fun q => ?_) (fun q => ?_) (List.append_nil _).symm (List.append_nil _).symm rfl rfl
    (Or.inl ⟨rfl, rfl⟩)
  · by_cases hq : q = p
    · subst hq
      dsimp only
      rw [Function.update_self]
      exact ⟨rfl, rfl, fun _ => rfl, rfl, fun _ => rfl⟩
    · dsimp only
      rw [Function.update_of_ne hq]
      exact .refl _
  · by_cases hq : q = p
    · subst hq
      dsimp only
      rw [Function.update_self]
      exact h.indexed q
    · dsimp only
      rw [Function.update_of_ne hq]
      exact h.indexed q

theorem disconnectMatching (h : ConfigInv cfg s) (conn p : Nat) :
    ConfigInv cfg (s.disconnectMatching conn p) := by
  rw [State.disconnectMatching]
  split
  · cases hrsp : (s.peripherals p).cfgChanRsp with
    | some rsp => exact h.react ⟨hrsp, disconnect_reaction hrsp, rfl, rfl, rfl, (List.append_nil _).symm, rfl⟩
    | none =>
      have hnone : (s.peripherals p).cfgChanRsp.isSome = false := by simp [hrsp]
      have hper : (s.peripherals p).disconnect = ⟨{ s.peripherals p with
          hidc := none
          readRsp := false
          hwid := List.replicate HWID_LEN 0
          curPollCnt := 0
          cfgChanId := CFG_CHAN_UNUSED_PEER_ID }, [], []⟩ := by
        rw [Peripheral.disconnect]
        exact if_neg (by simp [hrsp])
      rw [hper]
      refine h.quiet (fun q => ?_) (fun q => ?_) (List.append_nil _).symm rfl rfl (List.append_nil _)
        (Or.inl ⟨rfl, rfl⟩)
      · by_cases hq : q = p
        · subst hq
          dsimp only [State.apply]
          rw [Function.update_self]
          exact ⟨rfl, ((h.slots q).idle hrsp).symm, fun hsome => absurd hsome (by simp [hnone]), rfl,
            fun hsome => absurd hsome (by simp [hnone])⟩
        · dsimp only [State.apply]
          rw [Function.update_of_ne hq]
          exact .refl _
      · by_cases hq : q = p
        · subst hq
          dsimp only [State.apply]
          rw [Function.update_self]
          exact Or.inl rfl
        · dsimp only [State.apply]
          rw [Function.update_of_ne hq]
          exact h.indexed q
  · exact h

theorem reaction (h : ConfigInv cfg s) {e : Event} (hguard : Undisturbed s e) (hslot : p ∈ e.slot) :
    ∃ rsp, ∃ o : Outcome, ∃ reports, (s.peripherals p).cfgChanRsp = some rsp ∧
      Reaction (s.peripherals p) rsp reports o ∧
        s.step cfg e = { s.apply p o with reports := s.reports ++ reports } := by
  obtain ⟨horder, hfit⟩ := hguard
  cases e with
  | completed q o err data =>
    obtain rfl : q = p := Option.some.inj hslot
    obtain ⟨rsp, hrsp, hnumber, hreadable⟩ := hfit
    have hpend := (h.slots q).pending rsp hrsp
    exact ⟨rsp, _, _, hrsp,
      complete_reaction hpend.phase hrsp hpend.recipient horder.1 hnumber hreadable, rfl⟩
  | expired q readErr =>
    obtain rfl : q = p := Option.some.inj hslot
    cases hrsp : (s.peripherals q).cfgChanRsp with
    | none =>
      have htimer := (h.slots q).idle hrsp
      rw [InOrder, htimer] at horder
      cases horder
    | some rsp =>
      have hpend := (h.slots q).pending rsp hrsp
      refine ⟨rsp, _, [], rfl, readRspFn_reaction hpend.phase hrsp horder hfit readErr, ?_⟩
      rw [List.append_nil]
      rfl
  | request => cases hslot
  | connected => cases hslot
  | ready => cases hslot
  | disconnected => cases hslot

theorem step (h : ConfigInv cfg s) (e : Event) (hguard : Undisturbed s e) : ConfigInv cfg (s.step cfg e) := by
  cases hslot : e.slot with
  | some p =>
    obtain ⟨rsp, o, reports, hrsp, hreact, hstep⟩ := h.reaction hguard hslot
    rw [hstep]
    exact h.react ⟨hrsp, hreact, rfl, rfl, rfl, rfl, rfl⟩
  | none =>
    cases e with
    | request event writeErr => exact h.handleConfigEvent event writeErr
    | completed => cases hslot
    | expired => cases hslot
    | connected hidc hwid err =>
      rw [State.step, State.registerPeripheral]
      split
      · exact h.reconnect ..
      · exact h
    | ready p => exact h.reconnect p _ (s.peripherals p).hwid
    | disconnected conn =>
      rw [State.step]
      generalize List.range cfg.maxConn = l
      induction l generalizing s with
      | nil => exact h
      | cons p l ih => exact ih (h.disconnectMatching conn p) hguard

theorem advance (h : ConfigInv cfg s) (e : Event) (hguard : Undisturbed s e) : Advance cfg s e := by
  intro p hslot
  obtain ⟨rsp, o, reports, hrsp, hreact, hstep⟩ := h.reaction hguard hslot
  have hself : (s.step cfg e).peripherals p = o.peripheral := by
    rw [hstep]
    exact Function.update_self ..
  rw [hself]
  cases hreact with
  | waits held number same phase cfgChanId inFlight pending closer => exact closer
  | @answers per' _ free =>
    have hzero : per'.stepsLeft = 0 := by rw [Peripheral.stepsLeft, free]
    change per'.stepsLeft < _
    rw [hzero]
    exact ((h.slots p).pending rsp hrsp).phase.stepsLeft_pos hrsp

end ConfigInv

/-- As long as every read brings a report that can be read, and before its request has been answered, each
request is answered once and as itself, and each completion or expiry brings its answer closer. -/
theorem configForward_right {cfg : Config} {s : State}
    (hs : Reached (State.step cfg) Undisturbed State.init s) :
    ConfigRight cfg s ∧ ∀ e, Undisturbed s e → Advance cfg s e := by
  have hstep (s : State) (e : Event) (h : ConfigInv cfg s) (hguard : Undisturbed s e) :
      ConfigInv cfg (s.step cfg e) := h.step e hguard
  have hinv := hs.invariant ConfigInv.init hstep
  exact ⟨hinv.configRight, hinv.advance⟩

def twoPeers : Config := ⟨2, by decide⟩

def report (recipient eventId status : UInt8) (data : List UInt8) : List UInt8 :=
  [recipient, eventId, status, data.length.toUInt8] ++ data ++
    List.replicate (REPORT_SIZE_USER_CONFIG - TRANSPORT_HEADER_SIZE - data.length) 0

def fetch : List Event :=
  [.connected ⟨5, false, false, true⟩ [] 0, .ready 0,
    .request ⟨1, 0, CFG_CHAN_RECIPIENT_LOCAL, CONFIG_STATUS_INDEX_PEERS, [], 0⟩ 0,
    .request ⟨1, 0x17, 1, CONFIG_STATUS_FETCH, [], 0⟩ 0,
    .completed 0 (.write 1 [0, 0x17, CONFIG_STATUS_FETCH, 0]) 0 (report 0 0 0 []), .expired 0 0]

def fetched : List Event := fetch ++
  [.completed 0 (.read (some 1)) 0 (report 0 0x17 CONFIG_STATUS_SUCCESS [1, 2, 3])]

theorem fetched_right :
    (ConfigRight twoPeers (fetched.foldl (State.step twoPeers) State.init) ∧
      ∀ e, Undisturbed (fetched.foldl (State.step twoPeers) State.init) e →
        Advance twoPeers (fetched.foldl (State.step twoPeers) State.init) e) ∧
      (fetched.foldl (State.step twoPeers) State.init).answersTo 1 =
        [⟨1, 0x17, 1, CONFIG_STATUS_SUCCESS, [1, 2, 3], 1⟩] := by
  have hguarded : Reached.Guarded (State.step twoPeers) Undisturbed State.init fetched := by
    decide
  exact ⟨configForward_right (Reached.run .start hguarded), by decide⟩

def pendingThenData : List Event := fetch ++
  [.completed 0 (.read (some 1)) 0 (report 0 0 CONFIG_STATUS_PENDING []), .expired 0 0,
    .completed 0 (.read (some 1)) 0 (report 0 0x17 CONFIG_STATUS_SUCCESS [1, 2, 3])]

theorem pendingThenData_asserts : ∃ s, Reached (State.step twoPeers) InOrder State.init s ∧
    ¬ ConfigRight twoPeers s := by
  have hguarded : Reached.Guarded (State.step twoPeers) InOrder State.init pendingThenData := by
    decide
  refine ⟨_, Reached.run .start hguarded, fun hright => ?_⟩
  exact absurd hright.faults (by decide)

end SdkNrf.Desktop.ConfigForward
