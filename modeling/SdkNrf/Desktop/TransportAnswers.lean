import SdkNrf.Desktop.TransportFrames

/-!
# Answers of the configuration channel transport

Requests and answers are matched by a transport id.
-/

namespace SdkNrf.Desktop.ConfigTransport

open ConfigForward (ConfigEvent REPORT_SIZE_USER_CONFIG TRANSPORT_HEADER_SIZE)

/-- The event answers a request that has been submitted: it is the response of a module, with at most the data
of a report, or the request that no module has taken. -/
def Answers (s : State) (event : ConfigEvent) (isRequest : Bool) : Prop :=
  ∃ r ∈ s.inFlight, r.event.number = event.number ∧ r.event.transportId = event.transportId ∧
    (answerOf event isRequest).data.length ≤ REPORT_SIZE_USER_CONFIG - TRANSPORT_HEADER_SIZE

def Foreign (base : UInt8) (event : ConfigEvent) : Prop := event.transportId >>> 8 ≠ base.toUInt16

def InOrder (base : UInt8) (s : State) : Event → Prop
  | .answer event isRequest => Answers s event isRequest
  | .foreign event _ => Foreign base event
  | .expired => s.transport.timeout = true
  | _ => True

def Timely (s : State) : Prop := ∀ r ∈ s.inFlight, s.drops < r.drops + 255

def Promised (base : UInt8) (s : State) (e : Event) : Prop := InOrder base s e ∧ Timely (s.step e)

def Sized (s : State) : Event → Prop
  | .set buffer => s.transport.state = .waitRsp ∨ Allocated buffer.length
  | .get length => length ≤ REPORT_SIZE_USER_CONFIG
  | _ => True

def Allowed (base : UInt8) (s : State) (e : Event) : Prop := Promised base s e ∧ Sized s e

instance (base : UInt8) (s : State) (e : Event) : Decidable (InOrder base s e) := by
  cases e <;> simp only [InOrder, Answers, Foreign] <;> infer_instance

instance (s : State) (e : Event) : Decidable (Sized s e) := by
  cases e <;> simp only [Sized, Allocated] <;> infer_instance

instance (s : State) : Decidable (Timely s) := inferInstanceAs (Decidable (∀ r ∈ s.inFlight, _))

instance (base : UInt8) (s : State) (e : Event) : Decidable (Promised base s e) :=
  inferInstanceAs (Decidable (_ ∧ _))

instance (base : UInt8) (s : State) (e : Event) : Decidable (Allowed base s e) :=
  inferInstanceAs (Decidable (_ ∧ _))

/-- Nothing goes wrong; an event is taken where it answers the outstanding request, and only there; the host
reads pending until then, and afterwards the answer or a timeout. -/
structure TransportRight (base : UInt8) (s : State) : Prop where
  faults : s.faults = []
  taken : ∀ event isRequest, Answers s event isRequest → s.session.outstanding = some event.number →
    (s.transport.configChannelTransportRspReceive event isRequest).taken = true
  late : ∀ event isRequest, Answers s event isRequest → s.session.outstanding ≠ some event.number →
    s.transport.configChannelTransportRspReceive event isRequest = ⟨s.transport, false, []⟩
  foreign : ∀ event isRequest, Foreign base event →
    s.transport.configChannelTransportRspReceive event isRequest = ⟨s.transport, false, []⟩
  pending : s.session.outstanding.isSome → s.session.shown = .pending ∧ s.transport.timeout = true
  read : ∀ length ≤ REPORT_SIZE_USER_CONFIG,
    (s.transport.configChannelTransportGet length).bytes.length = length ∧
      ((s.transport.configChannelTransportGet length).bytes <+: s.session.shown.frame ∨
        s.session.shown.frame <+: (s.transport.configChannelTransportGet length).bytes)

structure Sent (base : UInt8) (s : State) (r : InFlight) : Prop where
  id : r.event.transportId = idAfter base r.drops
  number : r.event.number < s.requests
  before : r.drops ≤ s.drops
  timely : s.drops < r.drops + 255
  current : r.drops = s.drops ↔ s.session.outstanding = some r.event.number

structure TransportInv (base : UInt8) (s : State) : Prop where
  faults : s.faults = []
  active : s.transport.state ≠ .disabled
  id : s.transport.transportId = idAfter base s.drops
  timeout : s.transport.timeout = true ↔ s.transport.state = .waitRsp
  outstanding : s.session.outstanding.isSome ↔ s.transport.state = .waitRsp
  pending : s.session.outstanding.isSome → s.session.shown = .pending
  shown : s.session.shown.frame <+: List.ofFn s.transport.data
  requests : s.session.requests = s.requests
  sent : ∀ r ∈ s.inFlight, Sent base s r

namespace TransportInv

variable {base : UInt8} {s : State}

theorem init (base : UInt8) : TransportInv base (State.init base) where
  faults := rfl
  active := by simp [State.init, configChannelTransportInit]
  id := rfl
  timeout := by simp [State.init, configChannelTransportInit]
  outstanding := by simp [State.init, configChannelTransportInit]
  pending := by simp [State.init]
  shown := by simp [State.init, configChannelTransportInit, Shown.frame, pendingHeader]; decide
  requests := rfl
  sent := by simp [State.init]

theorem outstanding_eq_none (h : TransportInv base s) (hstate : s.transport.state ≠ .waitRsp) :
    s.session.outstanding = none := by
  simpa [hstate] using h.outstanding

variable {event : ConfigEvent}

theorem id_eq_iff (h : TransportInv base s) {isRequest : Bool}
    (hanswers : Answers s event isRequest) :
    event.transportId = s.transport.transportId ↔ s.session.outstanding = some event.number := by
  obtain ⟨r, hr, hnumber, hid, -⟩ := hanswers
  have hsent := h.sent r hr
  rw [← hid, hsent.id, h.id, ← hnumber, ← hsent.current]
  exact (idAfter_distinguishes base).eq_iff hsent.before hsent.timely

theorem foreign_ne (h : TransportInv base s) (hforeign : Foreign base event) :
    event.transportId ≠ s.transport.transportId := by
  intro heq
  apply hforeign
  apply UInt16.toNat_inj.mp
  have hlow : cyclicId 255 s.drops ≤ 255 := cyclicId_le (by decide) s.drops
  rw [heq, h.id, UInt16.toNat_shiftRight, toNat_idAfter, Nat.shiftRight_eq_div_pow]
  simp
  omega

/-- A report that the host sets while a request is outstanding, or that is not well formed, changes
nothing. -/
theorem step_set_rejects (h : TransportInv base s) {buffer : List UInt8} (hsized : Sized s (.set buffer))
    (hrejects : s.transport.state = .waitRsp ∨ ¬ WellFormed buffer) : s.step (.set buffer) = s := by
  have hsession : s.session.step (.set buffer) = s.session := by
    apply if_neg
    intro haccepts
    cases hrejects with
    | inl hstate => simpa [haccepts.1] using h.outstanding.mpr hstate
    | inr hnot => exact hnot haccepts.2
  by_cases hstate : s.transport.state = .waitRsp
  · simp [State.step, set_busy hstate, hsession]
  · have hwell := hrejects.resolve_left hstate
    have hlength : Allocated buffer.length := hsized.resolve_left hstate
    simp [State.step, set_rejects hstate h.active hlength hwell, hsession]

theorem set (h : TransportInv base s) {buffer : List UInt8} (hsized : Sized s (.set buffer))
    (htimely : Timely (s.step (.set buffer))) : TransportInv base (s.step (.set buffer)) := by
  by_cases hrejects : s.transport.state = .waitRsp ∨ ¬ WellFormed buffer
  · rw [h.step_set_rejects hsized hrejects]
    exact h
  · obtain ⟨hstate, hwell⟩ := not_or.mp hrejects
    have hnone := h.outstanding_eq_none hstate
    have hset := set_accepts hstate h.active (hsized.resolve_left hstate) (not_not.mp hwell)
    have hstep : s.step (.set buffer) =
        { transport := { s.transport with
            timeout := true
            data := overwrite ConfigTransport.pendingHeader s.transport.data
            dataLen := TRANSPORT_HEADER_SIZE
            state := .waitRsp }
          inFlight := s.inFlight ++ [⟨{ s.transport.requestOf buffer with number := s.requests }, s.drops⟩]
          requests := s.requests + 1
          drops := s.drops
          faults := s.faults
          session := ⟨some s.requests, .pending, s.requests + 1⟩ } := by
      simp [State.step, hset, Session.step, hnone, not_not.mp hwell, h.requests]
    rw [hstep] at htimely ⊢
    exact {
      faults := h.faults
      active := by simp
      id := h.id
      timeout := by simp
      outstanding := by simp
      pending := by simp
      shown := overwrite_prefix pendingHeader_length_le _
      requests := rfl
      sent := by
        intro r hr
        rcases List.mem_append.mp hr with hold | hnew
        · have hsent := h.sent r hold
          have hne : r.drops ≠ s.drops := by simp [hsent.current, hnone]
          exact {
            id := hsent.id
            number := hsent.number.trans (Nat.lt_succ_self _)
            before := hsent.before
            timely := hsent.timely
            current := by simp [hne, hsent.number.ne'] }
        · obtain rfl := List.mem_singleton.mp hnew
          exact {
            id := h.id
            number := Nat.lt_succ_self _
            before := le_rfl
            timely := htimely _ hr
            current := by simp } }

theorem get (h : TransportInv base s) {length : Nat} (hsized : length ≤ REPORT_SIZE_USER_CONFIG) :
    TransportInv base (s.step (.get length)) := by
  have hfaults := get_faults h.active hsized
  by_cases hready : s.transport.state = .rspReady
  · have hnone := h.outstanding_eq_none (by simp [hready])
    have htimeout : s.transport.timeout = false := by
      simpa [hready] using h.timeout
    have hstep : s.step (.get length) = { s with transport := { s.transport with state := .idle } } := by
      have htransport : (s.transport.configChannelTransportGet length).transport =
          { s.transport with state := .idle } := if_pos hready
      simp [State.step, hfaults, htransport, Session.step]
    rw [hstep]
    exact {
      faults := h.faults
      active := by simp
      id := h.id
      timeout := by simp [htimeout]
      outstanding := by simp [hnone]
      pending := h.pending
      shown := h.shown
      requests := h.requests
      sent r hr := ⟨(h.sent r hr).id, (h.sent r hr).number, (h.sent r hr).before, (h.sent r hr).timely,
        (h.sent r hr).current⟩ }
  · have hstep : s.step (.get length) = s := by
      have htransport : (s.transport.configChannelTransportGet length).transport = s.transport :=
        if_neg hready
      simp [State.step, hfaults, htransport, Session.step]
    rw [hstep]
    exact h

theorem answer (h : TransportInv base s) {isRequest : Bool} (hanswers : Answers s event isRequest) :
    TransportInv base (s.step (.answer event isRequest)) := by
  by_cases hid : event.transportId = s.transport.transportId
  · have houtstanding := (h.id_eq_iff hanswers).mp hid
    have hdata := hanswers.elim fun _ hr => hr.2.2.2
    have hstep : s.step (.answer event isRequest) =
        { s with
          transport := { s.transport with
            state := .rspReady
            timeout := false
            data := overwrite (Shown.response (answerOf event isRequest)).frame s.transport.data }
          inFlight := s.inFlight.filter fun r => r.event.number ≠ event.number
          session := { s.session with
            outstanding := none
            shown := .response (answerOf event isRequest) } } := by
      simp [State.step, receive_own hid hdata, Session.step, houtstanding, answerOf]
    rw [hstep]
    exact {
      faults := h.faults
      active := by simp
      id := h.id
      timeout := by simp
      outstanding := by simp
      pending := by simp
      shown := overwrite_prefix (response_frame_length_le hdata) _
      requests := h.requests
      sent := by
        intro r hr
        obtain ⟨hmem, hother⟩ := List.mem_filter.mp hr
        have hsent := h.sent r hmem
        have hne : r.drops ≠ s.drops := by
          intro heq
          have hsame := (hsent.current.mp heq).symm.trans houtstanding
          simp [Option.some.inj hsame] at hother
        exact {
          id := hsent.id
          number := hsent.number
          before := hsent.before
          timely := hsent.timely
          current := by simp [hne] } }
  · have hlate := mt (h.id_eq_iff hanswers).mpr hid
    have hstep : s.step (.answer event isRequest) =
        { s with inFlight := s.inFlight.filter fun r => r.event.number ≠ event.number } := by
      simp [State.step, receive_other hid, Session.step, hlate]
    rw [hstep]
    exact {
      faults := h.faults
      active := h.active
      id := h.id
      timeout := h.timeout
      outstanding := h.outstanding
      pending := h.pending
      shown := h.shown
      requests := h.requests
      sent := by
        intro r hr
        have hsent := h.sent r (List.mem_of_mem_filter hr)
        exact ⟨hsent.id, hsent.number, hsent.before, hsent.timely, hsent.current⟩ }

theorem foreign (h : TransportInv base s) (hforeign : Foreign base event) (isRequest : Bool) :
    TransportInv base (s.step (.foreign event isRequest)) := by
  have hstep : s.step (.foreign event isRequest) = s := by
    simp [State.step, receive_other (h.foreign_ne hforeign), Session.step]
  rw [hstep]
  exact h

theorem sent_dropped (h : TransportInv base s) {s' : State} (hinFlight : s'.inFlight = s.inFlight)
    (hrequests : s'.requests = s.requests) (hdrops : s'.drops = s.drops + 1)
    (hsession : s'.session.outstanding = none) (htimely : Timely s') : ∀ r ∈ s'.inFlight, Sent base s' r := by
  intro r hr
  have hsent := h.sent r (hinFlight ▸ hr)
  have hbefore := hsent.before
  exact {
    id := hsent.id
    number := hrequests ▸ hsent.number
    before := by omega
    timely := htimely r hr
    current := by
      simp [hsession]
      omega }

theorem expired (h : TransportInv base s) (htimeout : s.transport.timeout = true)
    (htimely : Timely (s.step .expired)) : TransportInv base (s.step .expired) := by
  have hstate := h.timeout.mp htimeout
  have hpending := h.pending (h.outstanding.mpr hstate)
  have hshown := h.shown
  rw [hpending] at hshown
  exact {
    faults := by simp [State.step, Transport.timeoutFn, h.faults, assert, hstate]
    active := by simp [State.step, Transport.timeoutFn]
    id := by
      simp only [State.step, Transport.timeoutFn, idAfter_succ, h.id]
    timeout := by simp [State.step, Transport.timeoutFn]
    outstanding := by simp [State.step, Session.step, Transport.timeoutFn]
    pending := by simp [State.step, Session.step]
    shown := timeoutFn_shows hshown
    requests := h.requests
    sent := h.sent_dropped rfl rfl rfl rfl htimely }

theorem disconnected (h : TransportInv base s) (htimely : Timely (s.step .disconnected)) :
    TransportInv base (s.step .disconnected) := by
  by_cases hstate : s.transport.state = .waitRsp
  · have hpending := h.pending (h.outstanding.mpr hstate)
    exact {
      faults := by simp [State.step, Transport.configChannelTransportDisconnect, h.faults, assert, h.active]
      active := by simp [State.step, Transport.configChannelTransportDisconnect]
      id := by
        simp [State.step, Transport.configChannelTransportDisconnect, hstate, idAfter_succ, h.id]
      timeout := by simp [State.step, Transport.configChannelTransportDisconnect]
      outstanding := by simp [State.step, Session.step, Transport.configChannelTransportDisconnect]
      pending := by simp [State.step, Session.step]
      shown := h.shown
      requests := h.requests
      sent := h.sent_dropped rfl rfl (by simp [State.step, hstate]) rfl htimely }
  · have hnone := h.outstanding_eq_none hstate
    have hstep : s.step .disconnected = { s with transport := { s.transport with
        state := .idle
        timeout := false } } := by
      simp [State.step, Session.step, Transport.configChannelTransportDisconnect, hstate, assert, h.active,
        ← hnone]
    rw [hstep]
    exact {
      faults := h.faults
      active := by simp
      id := h.id
      timeout := by simp
      outstanding := by simp [hnone]
      pending := h.pending
      shown := h.shown
      requests := h.requests
      sent r hr := ⟨(h.sent r hr).id, (h.sent r hr).number, (h.sent r hr).before, (h.sent r hr).timely,
        (h.sent r hr).current⟩ }

theorem step (h : TransportInv base s) {e : Event} (hallowed : Allowed base s e) :
    TransportInv base (s.step e) := by
  obtain ⟨⟨horder, htimely⟩, hsized⟩ := hallowed
  cases e with
  | set buffer => exact h.set hsized htimely
  | get length => exact h.get hsized
  | answer event isRequest => exact h.answer horder
  | foreign event isRequest => exact h.foreign horder isRequest
  | expired => exact h.expired horder htimely
  | disconnected => exact h.disconnected htimely

theorem reached (hs : Reached State.step (Allowed base) (State.init base) s) : TransportInv base s :=
  hs.invariant (init base) fun _ _ h hallowed => h.step hallowed

theorem right (h : TransportInv base s) : TransportRight base s where
  faults := h.faults
  taken event isRequest hanswers houtstanding := by
    have hid := (h.id_eq_iff hanswers).mpr houtstanding
    have hdata := hanswers.elim fun _ hr => hr.2.2.2
    rw [receive_own hid hdata]
  late event isRequest hanswers hother := receive_other (mt (h.id_eq_iff hanswers).mp hother) isRequest
  foreign event isRequest hforeign := receive_other (h.foreign_ne hforeign) isRequest
  pending hsome := ⟨h.pending hsome, h.timeout.mpr (h.outstanding.mp hsome)⟩
  read length hlength := by
    refine ⟨?_, get_bytes h.shown⟩
    simp [Transport.configChannelTransportGet, hlength]

end TransportInv

/-- Where no frame that is looked at is shorter than its header, and none that is fetched longer
than a report, `config_channel_report_parse` inverts `config_channel_report_fill`, and the transport
is right after every run. -/
theorem configChannelTransport_right (base : UInt8) :
    ReportsInverse ∧ ∀ s, Reached State.step (Allowed base) (State.init base) s → TransportRight base s :=
  ⟨parse_fill, fun _ hs => (TransportInv.reached hs).right⟩

def twoRequests : List Event :=
  [.set [1, 0x17, ConfigForward.CONFIG_STATUS_FETCH, 0],
    .answer ⟨0x0100, 0x17, 1, ConfigForward.CONFIG_STATUS_SUCCESS, [5, 6], 0⟩ false, .get 29,
    .set [1, 0x18, ConfigForward.CONFIG_STATUS_FETCH, 0], .expired,
    .answer ⟨0x0100, 0x18, 1, ConfigForward.CONFIG_STATUS_SUCCESS, [7], 1⟩ false, .get 29]

theorem twoRequests_right : TransportRight 1 (twoRequests.foldl State.step (State.init 1)) :=
  (configChannelTransport_right 1).2 _ (Reached.start.run (by decide))

/-- The host fetches a byte more than the data of the transport have. -/
theorem longGet_outside : ¬ ∀ s, Reached State.step (Promised 1) (State.init 1) s → TransportRight 1 s := by
  intro h
  have hreached : Reached State.step (Promised 1) (State.init 1) ((State.init 1).step (.get 30)) :=
    Reached.start.next _ (by decide)
  have hfaults : ((State.init 1).step (.get 30)).faults = [.outside] := by decide
  simpa [hfaults] using (h _ hreached).faults

end SdkNrf.Desktop.ConfigTransport
