import SdkNrf.Esb.Delivery

/-!
# Payloads of acknowledgements

The PRX infers from a new packet that the acknowledgement of the last one has arrived, removes the payload it
carried and sends the payload that is then in the front slot.
-/

namespace SdkNrf.Esb

def Payload.content (p : Payload) : Nat × List UInt8 := (p.pipe, p.data)

namespace Node

variable {n : Node}

def frontIs (n : Node) (pipe : Nat) : Prop := n.txFifo.contents.head?.map Payload.pipe = some pipe

theorem frontIs_iff (h : Accounted n) (pipe : Nat) :
    n.frontIs pipe ↔ 0 < n.txFifo.count ∧ n.txFifo.frontSlot.pipe = pipe := by
  rw [frontIs, ← h.head?_eq, Ring.head?]
  split <;> simp <;> omega

/-- The front entry has been sent and its packet is a new one: the entry is reported and removed, and
the front slot is sent. -/
theorem rxDpl_next (h : Accounted n) {pipe b1 : Nat} (hfront : n.frontIs pipe)
    (hflag : (n.rxPipeInfo pipe).ackPayload = true) :
    n.onRadioDisabledRxDpl pipe b1 false = { n with
      succeeded := n.succeeded ++ n.txFifo.contents.head?.toList
      txFifo := n.txFifo.drop
      rxPipeInfo := Function.update n.rxPipeInfo pipe { n.rxPipeInfo pipe with ackPayload := true }
      txBuf := ⟨n.txFifo.drop.frontSlot.data.length, b1, n.txFifo.drop.frontSlot.data⟩ } := by
  rw [onRadioDisabledRxDpl, if_pos ((frontIs_iff h pipe).mp hfront)]
  simp only [hflag, Bool.not_false, Bool.and_true, if_true, reportSuccess, h.head?_eq]

theorem rxDpl_again (h : Accounted n) {pipe b1 : Nat} {retransmitPayload : Bool}
    (hfront : n.frontIs pipe)
    (hold : ((n.rxPipeInfo pipe).ackPayload && !retransmitPayload) = false) :
    n.onRadioDisabledRxDpl pipe b1 retransmitPayload = { n with
      rxPipeInfo := Function.update n.rxPipeInfo pipe { n.rxPipeInfo pipe with ackPayload := true }
      txBuf := ⟨n.txFifo.frontSlot.data.length, b1, n.txFifo.frontSlot.data⟩ } := by
  rw [onRadioDisabledRxDpl, if_pos ((frontIs_iff h pipe).mp hfront)]
  simp only [hold, Bool.false_eq_true, if_false]

theorem rxDpl_none (h : Accounted n) {pipe b1 : Nat} {retransmitPayload : Bool}
    (hfront : ¬ n.frontIs pipe) :
    n.onRadioDisabledRxDpl pipe b1 retransmitPayload = { n with
      rxPipeInfo := Function.update n.rxPipeInfo pipe { n.rxPipeInfo pipe with ackPayload := false }
      txBuf := ⟨0, b1, []⟩ } := by
  rw [onRadioDisabledRxDpl, if_neg ((frontIs_iff h pipe).not.mp hfront)]

structure SameAck (n n' : Node) : Prop where
  txFifo : n'.txFifo = n.txFifo
  written : n'.written = n.written
  succeeded : n'.succeeded = n.succeeded
  rxPipeInfo : n'.rxPipeInfo = n.rxPipeInfo
  txBuf : n'.txBuf = n.txBuf
  acks : n'.acks = n.acks
  state : n'.state = n.state

theorem rxPush_sameAck (n : Node) (buf : RfBuf) (pipe pid : Nat) (rssi : Int) :
    SameAck n (n.rxFifoPushRfbuf buf pipe pid rssi) := by
  unfold rxFifoPushRfbuf
  split
  · exact ⟨rfl, rfl, rfl, rfl, rfl, rfl, rfl⟩
  · split <;> exact ⟨rfl, rfl, rfl, rfl, rfl, rfl, rfl⟩

def asks (n : Node) (buf : RfBuf) : Bool := !n.cfg.selectiveAutoAck || buf.b1 % 2 = 1

variable {buf : RfBuf}

theorem acceptPacket_asks (hdpl : n.cfg.protocol = .esbDpl) (hasks : n.asks buf = true)
    (pipe crc : Nat) (rssi : Int) :
    SameAck (((n.remember pipe crc buf).onRadioDisabledRxDpl pipe buf.b1
      (n.isRetransmit pipe crc buf)).sendAck pipe) (n.acceptPacket pipe crc buf rssi) := by
  have hcond : (!(n.remember pipe crc buf).cfg.selectiveAutoAck || buf.b1 % 2 = 1) = true := hasks
  have hprepare : (n.remember pipe crc buf).prepareAck pipe buf (n.isRetransmit pipe crc buf) =
      (n.remember pipe crc buf).onRadioDisabledRxDpl pipe buf.b1 (n.isRetransmit pipe crc buf) := by
    unfold prepareAck
    simp only [remember, hdpl]
  unfold acceptPacket
  simp only [hcond, if_true, hprepare]
  split
  · exact ⟨rfl, rfl, rfl, rfl, rfl, rfl, rfl⟩
  · exact rxPush_sameAck _ _ _ _ _

theorem acceptPacket_noack (hasks : n.asks buf = false) (pipe crc : Nat) (rssi : Int) :
    SameAck (n.remember pipe crc buf) (n.acceptPacket pipe crc buf rssi) := by
  have hcond : (!(n.remember pipe crc buf).cfg.selectiveAutoAck || buf.b1 % 2 = 1) = false := hasks
  unfold acceptPacket
  simp only [hcond, Bool.false_eq_true, if_false]
  split
  · exact ⟨rfl, rfl, rfl, rfl, rfl, rfl, rfl⟩
  · exact rxPush_sameAck _ _ _ _ _

/-- An acknowledgement with `data` has been sent on a pipe. -/
structure Answered (n n' : Node) (pipe : Nat) (flag : Bool) (data : List UInt8) : Prop where
  written : n'.written = n.written
  state : n'.state = .prxSendAck
  others : ∀ q, q ≠ pipe → (n'.rxPipeInfo q).ackPayload = (n.rxPipeInfo q).ackPayload
  flag_eq : (n'.rxPipeInfo pipe).ackPayload = flag
  b0 : n'.txBuf.b0 = data.length
  data_eq : n'.txBuf.data = data
  acks : n'.acks = n.acks ++ [⟨pipe, data, n'.txFifo.head?⟩]

@[simp] theorem remember_ackPayload (n : Node) (pipe crc : Nat) (buf : RfBuf) (q : Nat) :
    ((n.remember pipe crc buf).rxPipeInfo q).ackPayload = (n.rxPipeInfo q).ackPayload := by
  by_cases hq : q = pipe <;> simp [remember, hq]

theorem answered_of_sent {n' : Node} {pipe crc b1 : Nat} {buf : RfBuf} {succeeded : List Payload}
    {txFifo : Ring Payload} {flag : Bool} {data : List UInt8}
    (h : SameAck (sendAck { n.remember pipe crc buf with
      succeeded := succeeded
      txFifo := txFifo
      rxPipeInfo := Function.update (n.remember pipe crc buf).rxPipeInfo pipe
        { (n.remember pipe crc buf).rxPipeInfo pipe with ackPayload := flag }
      txBuf := ⟨data.length, b1, data⟩ } pipe) n') :
    n'.txFifo = txFifo ∧ n'.succeeded = succeeded ∧ Answered n n' pipe flag data := by
  refine ⟨h.txFifo, h.succeeded, h.written, h.state, ?_, ?_, ?_, ?_, ?_⟩
  · intro q hq
    rw [h.rxPipeInfo]
    simp only [sendAck, Function.update_of_ne hq, remember_ackPayload]
  · simp [h.rxPipeInfo, sendAck]
  · rw [h.txBuf]
    rfl
  · rw [h.txBuf]
    rfl
  · rw [h.acks, h.txFifo]
    rfl

theorem acceptPacket_cases (h : Accounted n) (hdpl : n.cfg.protocol = .esbDpl) {buf : RfBuf}
    (hasks : n.asks buf = true) (pipe crc : Nat) (rssi : Int) :
    (n.frontIs pipe ∧ (n.rxPipeInfo pipe).ackPayload = true ∧ n.isRetransmit pipe crc buf = false ∧
      (n.acceptPacket pipe crc buf rssi).txFifo = n.txFifo.drop ∧
      (n.acceptPacket pipe crc buf rssi).succeeded =
        n.succeeded ++ n.txFifo.contents.head?.toList ∧
      Answered n (n.acceptPacket pipe crc buf rssi) pipe true n.txFifo.drop.frontSlot.data) ∨
    (n.frontIs pipe ∧
      ((n.rxPipeInfo pipe).ackPayload && !n.isRetransmit pipe crc buf) = false ∧
      (n.acceptPacket pipe crc buf rssi).txFifo = n.txFifo ∧
      (n.acceptPacket pipe crc buf rssi).succeeded = n.succeeded ∧
      Answered n (n.acceptPacket pipe crc buf rssi) pipe true n.txFifo.frontSlot.data) ∨
    (¬ n.frontIs pipe ∧
      (n.acceptPacket pipe crc buf rssi).txFifo = n.txFifo ∧
      (n.acceptPacket pipe crc buf rssi).succeeded = n.succeeded ∧
      Answered n (n.acceptPacket pipe crc buf rssi) pipe false []) := by
  have hsame := acceptPacket_asks hdpl hasks pipe crc rssi
  have hremember := h.remember pipe crc buf
  have hfrontIs : (n.remember pipe crc buf).frontIs pipe ↔ n.frontIs pipe := Iff.rfl
  by_cases hfront : n.frontIs pipe
  · by_cases hnext : ((n.rxPipeInfo pipe).ackPayload && !n.isRetransmit pipe crc buf) = true
    · left
      simp only [Bool.and_eq_true, Bool.not_eq_true'] at hnext
      rw [hnext.2, rxDpl_next hremember (hfrontIs.mpr hfront)
        (by rw [remember_ackPayload, hnext.1])] at hsame
      exact ⟨hfront, hnext.1, hnext.2, answered_of_sent hsame⟩
    · right
      left
      rw [Bool.not_eq_true] at hnext
      rw [rxDpl_again hremember (hfrontIs.mpr hfront)
        (by rw [remember_ackPayload, hnext])] at hsame
      exact ⟨hfront, hnext, answered_of_sent hsame⟩
  · right
    right
    rw [rxDpl_none hremember (hfrontIs.not.mpr hfront)] at hsame
    exact ⟨hfront, answered_of_sent hsame⟩

@[simp] theorem removed_received (n : Node) :
    n.reportSuccess.txFifoRemoveLast.received = n.received := by
  unfold txFifoRemoveLast
  split <;> rfl

theorem txNoack_received (n : Node) : n.onRadioDisabledTxNoack.received = n.received := by
  unfold onRadioDisabledTxNoack
  simp only
  split
  · exact removed_received n
  · exact removed_received n

theorem ackReceived_none (n : Node) (hlength : buf.b0 = 0) (rssi : Int) :
    (n.ackReceived buf rssi).received = n.received := by
  rw [ackReceived]
  simp [hlength]

theorem ackReceived_payload (n : Node) (hdpl : n.cfg.protocol = .esbDpl) (hpos : 0 < buf.b0)
    (hlength : buf.b0 ≤ n.cfg.maxPayloadLength) (hroom : n.rxFifo.count < n.rxFifo.size)
    (rssi : Int) :
    (n.ackReceived buf rssi).received =
      n.received ++ [receivedPayload n.cfg buf n.txAddress (buf.b1 / 2) rssi] := by
  have hfields : ∀ m : Node, m.reportSuccess.txFifoRemoveLast.rxFifo = m.rxFifo ∧
      m.reportSuccess.txFifoRemoveLast.txAddress = m.txAddress := by
    intro m
    unfold txFifoRemoveLast
    split <;> exact ⟨rfl, rfl⟩
  rw [ackReceived]
  simp only [removed_cfg, hdpl]
  rw [if_pos ⟨by simp, hpos⟩, rxPush_received, removed_received, removed_cfg]
  · rw [(hfields _).2]
  · rw [(hfields _).1]
    exact hroom
  · rw [removed_cfg]
    exact hlength

theorem waitForAck_received (n : Node) (buf : RfBuf) (rssi : Int) :
    (n.onRadioDisabledTxWaitForAck (some buf) rssi).received =
      (n.ackReceived buf rssi).received := by
  rw [onRadioDisabledTxWaitForAck]
  split <;> rfl

end Node

namespace Link

variable {crc : Nat → RfBuf → Nat} {cfg : Config} {l : Link}

/-- The packet that is taken asks for an acknowledgement and is a new one, and the payload that the
last acknowledgement carried is removed. -/
def removes (crc : Nat → RfBuf → Nat) (l : Link) : Prop :=
  l.ptx.state = .ptxTxAck ∧ l.prx.frontIs l.ptx.txAddress ∧
    (l.prx.rxPipeInfo l.ptx.txAddress).ackPayload = true ∧
    l.prx.isRetransmit l.ptx.txAddress (crc l.ptx.txAddress l.ptx.txBuf) l.ptx.txBuf = false

/-- A payload is removed only when the one behind it is for the same pipe, a new packet is not taken
for a retransmission, and the PTX has room for the payloads that it gets. -/
def AcksRight (crc : Nat → RfBuf → Nat) (l : Link) : LinkEvent → Prop
  | .packetEnd reception _ => l.takes reception = true →
    (removes crc l →
      l.prx.txFifo.contents.tail.head?.map Payload.pipe = some l.ptx.txAddress) ∧
    (l.ptx.state = .ptxTxAck → l.arrived = false →
      l.prx.isRetransmit l.ptx.txAddress (crc l.ptx.txAddress l.ptx.txBuf) l.ptx.txBuf = false)
  | .windowEnd reception _ => l.ptx.state = .ptxRxAck → ∀ buf ∈ l.heardAck reception, 0 < buf.b0 →
    l.ptx.rxFifo.count < l.ptx.rxFifo.size
  | _ => True

instance (n : Node) (pipe : Nat) : Decidable (n.frontIs pipe) :=
  inferInstanceAs (Decidable (_ = _))

instance (crc : Nat → RfBuf → Nat) (l : Link) : Decidable (removes crc l) :=
  inferInstanceAs (Decidable (_ ∧ _))

instance (crc : Nat → RfBuf → Nat) (l : Link) (e : LinkEvent) : Decidable (AcksRight crc l e) := by
  induction e using LinkEvent.casesOn <;> dsimp only [AcksRight] <;> infer_instance

/-- The PTX has received what the PRX has reported, and the front payload once it was `heard`. While
the flag of a pipe is set, the front payload is for this pipe, and it has been heard or the packet
whose acknowledgement carries it is still being transmitted. -/
structure AckInv (crc : Nat → RfBuf → Nat) (cfg : Config) (l : Link) (heard : Bool) : Prop where
  coupled : Coupled crc cfg l
  received : l.ptx.received.map Payload.content =
    (l.prx.succeeded ++ if heard then l.prx.txFifo.contents.head?.toList else []).map
      Payload.content
  flag : ∀ q, (l.prx.rxPipeInfo q).ackPayload = true → l.prx.frontIs q ∧
    (heard = true ∨ (l.arrived = true ∧ l.ptx.frontIs q))
  heard_flag : heard = true → ∃ q, l.prx.frontIs q ∧ (l.prx.rxPipeInfo q).ackPayload = true ∧
    ¬ (l.arrived = true ∧ l.ptx.frontIs q)
  carried : ∀ buf, l.ack = some buf → ∃ q, l.ptx.frontIs q ∧
    ((buf.b0 = 0 ∧ (l.prx.rxPipeInfo q).ackPayload = false) ∨
      ((l.prx.rxPipeInfo q).ackPayload = true ∧ ∃ p, l.prx.txFifo.contents.head? = some p ∧
        p.pipe = q ∧ buf.b0 = p.data.length ∧ buf.data = p.data))
  acks : ∀ a ∈ l.prx.acks, a.data ≠ [] → ∃ p, a.front = some p ∧ p.pipe = a.pipe ∧ p.data = a.data

namespace AckInv

variable {heard : Bool}

theorem init (cfg : Config) (ptxTx ptxRx prxTx prxRx : Nat) :
    AckInv crc cfg (Link.init cfg ptxTx ptxRx prxTx prxRx) false := by
  refine ⟨Coupled.init cfg ptxTx ptxRx prxTx prxRx, rfl, ?_, by simp, ?_, ?_⟩
  · intro q hq
    cases hq
  · intro buf hbuf
    cases hbuf
  · intro a ha
    cases ha

theorem frontIs_congr {n n' : Node} (h : n'.txFifo = n.txFifo) (q : Nat) :
    n'.frontIs q ↔ n.frontIs q := by
  rw [Node.frontIs, Node.frontIs, h]

theorem frame {l' : Link} (h : AckInv crc cfg l heard) (hcoupled : Coupled crc cfg l')
    (hptx : Node.Untouched l.ptx l'.ptx) (hprx : Node.Untouched l.prx l'.prx)
    (harrived : l'.arrived = l.arrived) (hack : l'.ack = l.ack ∨ l'.ack = none) :
    AckInv crc cfg l' heard := by
  refine ⟨hcoupled, ?_, ?_, ?_, ?_, ?_⟩
  · simpa only [hptx.received, hprx.succeeded, hprx.txFifo] using h.received
  · simpa only [Node.frontIs, hptx.txFifo, hprx.txFifo, hprx.rxPipeInfo, harrived] using h.flag
  · simpa only [Node.frontIs, hptx.txFifo, hprx.txFifo, hprx.rxPipeInfo, harrived] using
      h.heard_flag
  · intro buf hbuf
    rcases hack with hack | hack
    · rw [hack] at hbuf
      simpa only [Node.frontIs, hptx.txFifo, hprx.txFifo, hprx.rxPipeInfo] using h.carried buf hbuf
    · rw [hack] at hbuf
      cases hbuf
  · simpa only [hprx.acks] using h.acks

theorem head?_write {n : Node} (h : Node.Accounted n) (payload : Payload) {p : Payload}
    (hhead : n.txFifo.contents.head? = some p) :
    (n.after (n.esbWritePayload payload)).txFifo.contents.head? = some p := by
  rcases Node.after_write_cases h payload with heq | ⟨-, hcontents, -, -⟩
  · rw [heq, hhead]
  · rw [hcontents, List.head?_append, hhead, Option.some_or]

theorem exists_of_frontIs {n : Node} {q : Nat} (h : n.frontIs q) :
    ∃ p, n.txFifo.contents.head? = some p ∧ p.pipe = q := by
  simpa [Node.frontIs] using h

theorem frontIs_write {n : Node} (h : Node.Accounted n) (payload : Payload) {q : Nat}
    (hfront : n.frontIs q) : (n.after (n.esbWritePayload payload)).frontIs q := by
  obtain ⟨p, hhead, rfl⟩ := exists_of_frontIs hfront
  rw [Node.frontIs, head?_write h payload hhead]
  rfl

theorem ptxWrite (h : AckInv crc cfg l heard) (payload : Payload) :
    AckInv crc cfg (l.step crc (.ptxWrite payload)) heard := by
  refine ⟨h.coupled.ptxWrite payload, ?_, ?_, ?_, ?_, h.acks⟩
  · simpa only [Link.step, Node.after_write_received] using h.received
  · intro q hq
    obtain ⟨hfront, hheard⟩ := h.flag q hq
    refine ⟨hfront, hheard.imp_right fun hboth => ⟨hboth.1, ?_⟩⟩
    exact frontIs_write h.coupled.ptx payload hboth.2
  · intro hheard
    obtain ⟨q, hfront, hflag, hnot⟩ := h.heard_flag hheard
    refine ⟨q, hfront, hflag, ?_⟩
    rintro ⟨harrived, hptx⟩
    apply hnot
    refine ⟨harrived, ?_⟩
    obtain ⟨p, hhead, -⟩ := h.coupled.arrived harrived
    have hhead' := head?_write h.coupled.ptx payload hhead
    rw [Node.frontIs] at hptx ⊢
    rw [hhead]
    rwa [Link.step, hhead'] at hptx
  · intro buf hbuf
    obtain ⟨q, hptx, hrest⟩ := h.carried buf hbuf
    exact ⟨q, frontIs_write h.coupled.ptx payload hptx, hrest⟩

theorem prxWrite (h : AckInv crc cfg l heard) (payload : Payload) :
    AckInv crc cfg (l.step crc (.prxWrite payload)) heard := by
  refine ⟨h.coupled.prxWrite payload, ?_, ?_, ?_, ?_, ?_⟩
  · cases heard with
    | false => simpa [Link.step] using h.received
    | true =>
      obtain ⟨q, hfront, -, -⟩ := h.heard_flag rfl
      obtain ⟨p, hhead, -⟩ := exists_of_frontIs hfront
      have hreceived := h.received
      rw [hhead] at hreceived
      simp only [Link.step, Node.after_write_succeeded, head?_write h.coupled.prx payload hhead]
      exact hreceived
  · intro q hq
    simp only [Link.step, Node.after_write_rxPipeInfo] at hq
    obtain ⟨hfront, hheard⟩ := h.flag q hq
    exact ⟨frontIs_write h.coupled.prx payload hfront, hheard⟩
  · intro hheard
    obtain ⟨q, hfront, hflag, hnot⟩ := h.heard_flag hheard
    refine ⟨q, frontIs_write h.coupled.prx payload hfront, ?_, hnot⟩
    simpa only [Link.step, Node.after_write_rxPipeInfo] using hflag
  · intro buf hbuf
    obtain ⟨q, hptx, hrest⟩ := h.carried buf hbuf
    refine ⟨q, hptx, ?_⟩
    simp only [Link.step, Node.after_write_rxPipeInfo]
    apply hrest.imp_right
    rintro ⟨hflag, p, hhead, hp⟩
    exact ⟨hflag, p, head?_write h.coupled.prx payload hhead, hp⟩
  · simpa only [Link.step, Node.after_write_acks] using h.acks

theorem asks_eq (h : Coupled crc cfg l) (hdpl : cfg.protocol = .esbDpl) (p : Payload) :
    l.prx.asks (Node.encode cfg.protocol p) = Node.expectsAck cfg p := by
  have hnoack := Coupled.encode_noack hdpl p
  rw [Node.asks, h.prx_cfg, Node.expectsAck]
  simp only [hdpl] at hnoack ⊢
  cases hn : p.noack <;> simp [hnoack, hn]

theorem frontIs_iff_eq {n : Node} {p : Payload} (hhead : n.txFifo.contents.head? = some p) (q : Nat) :
    n.frontIs q ↔ p.pipe = q := by
  simp [Node.frontIs, hhead]

theorem prxAfter_noack (h : Coupled crc cfg l) (hdpl : cfg.protocol = .esbDpl)
    (hstate : l.ptx.state = .ptxTx) (reception : Reception) (rssi : Int) :
    (l.prxAfter crc reception rssi).txFifo = l.prx.txFifo ∧
      (l.prxAfter crc reception rssi).succeeded = l.prx.succeeded ∧
      (l.prxAfter crc reception rssi).acks = l.prx.acks ∧
      ∀ q, ((l.prxAfter crc reception rssi).rxPipeInfo q).ackPayload =
        (l.prx.rxPipeInfo q).ackPayload := by
  cases htakes : l.takes reception with
  | false =>
    rw [prxAfter_of_not_takes htakes]
    exact ⟨rfl, rfl, rfl, fun _ => rfl⟩
  | true =>
    obtain ⟨p, -, hbuf, -, hack⟩ := h.sending (by simp [hstate])
    have hasks : l.prx.asks l.ptx.txBuf = false := by
      rw [hbuf, asks_eq h hdpl]
      exact hack.mp hstate
    have hsame := Node.acceptPacket_noack hasks l.ptx.txAddress
      (crc l.ptx.txAddress l.ptx.txBuf) rssi
    rw [prxAfter_of_takes htakes]
    refine ⟨hsame.txFifo, hsame.succeeded, hsame.acks, fun q => ?_⟩
    rw [hsame.rxPipeInfo, Node.remember_ackPayload]

theorem noackEnd (h : AckInv crc cfg l heard) (hdpl : cfg.protocol = .esbDpl)
    (hstate : l.ptx.state = .ptxTx) (reception : Reception) (rssi : Int)
    (hcoupled : Coupled crc cfg (l.step crc (.packetEnd reception rssi))) :
    AckInv crc cfg (l.step crc (.packetEnd reception rssi)) heard := by
  obtain ⟨hfifo, hsucceeded, hacks, hflags⟩ :=
    prxAfter_noack h.coupled hdpl hstate reception rssi
  have hnew : l.arrived = false := by
    obtain ⟨p, hhead, -, -, hack⟩ := h.coupled.sending (by simp [hstate])
    cases harrived : l.arrived with
    | false => rfl
    | true =>
      obtain ⟨q, hq, hexpects, -⟩ := h.coupled.arrived harrived
      obtain rfl : p = q := Option.some.inj (hhead.symm.trans hq)
      rw [hack.mp hstate] at hexpects
      cases hexpects
  have hnone : l.ack = none := by
    by_contra hack
    simp [(h.coupled.ack hack).1] at hstate
  simp only [Link.step, hstate] at hcoupled ⊢
  refine ⟨hcoupled, ?_, ?_, ?_, ?_, ?_⟩
  · simpa only [Node.txNoack_received, hsucceeded, hfifo] using h.received
  · intro q hq
    rw [hflags] at hq
    obtain ⟨hfront, hheard⟩ := h.flag q hq
    refine ⟨(frontIs_congr hfifo q).mpr hfront, Or.inl ?_⟩
    simpa [hnew] using hheard
  · intro hheard
    obtain ⟨q, hfront, hflag, -⟩ := h.heard_flag hheard
    refine ⟨q, (frontIs_congr hfifo q).mpr hfront, ?_, by simp⟩
    rw [hflags, hflag]
  · intro buf hbuf
    rw [hnone] at hbuf
    cases hbuf
  · simpa only [hacks] using h.acks

section Taken

variable {l' : Link} {t : Payload}

theorem taken_next (h : AckInv crc cfg l heard) (hcoupled : Coupled crc cfg l')
    (hptx : l'.ptx.txFifo = l.ptx.txFifo) (hreceived : l'.ptx.received = l.ptx.received)
    (harrived : l'.arrived = true) (hack : l'.ack = some l'.prx.txBuf)
    (hhead : l.ptx.txFifo.contents.head? = some t) (hnew : l.arrived = false)
    (hfront : l.prx.frontIs t.pipe) (hflag : (l.prx.rxPipeInfo t.pipe).ackPayload = true)
    (hfifo : l'.prx.txFifo = l.prx.txFifo.drop)
    (hsucceeded : l'.prx.succeeded = l.prx.succeeded ++ l.prx.txFifo.contents.head?.toList)
    (hanswered : Node.Answered l.prx l'.prx t.pipe true l.prx.txFifo.drop.frontSlot.data)
    (hnext : l.prx.txFifo.contents.tail.head?.map Payload.pipe = some t.pipe) :
    AckInv crc cfg l' false := by
  have hheard : heard = true := by
    simpa [hnew] using (h.flag t.pipe hflag).2
  have hcount := ((Node.frontIs_iff h.coupled.prx t.pipe).mp hfront).1
  have hcontents : l'.prx.txFifo.contents = l.prx.txFifo.contents.tail := by
    rw [hfifo, Ring.contents_drop h.coupled.prx.tx hcount]
  obtain ⟨p, hp, hpipe⟩ : ∃ p, l.prx.txFifo.contents.tail.head? = some p ∧ p.pipe = t.pipe := by
    simpa using hnext
  have hslot : l.prx.txFifo.drop.frontSlot = p := by
    have hpos : 0 < l.prx.txFifo.drop.count := by
      rw [← Ring.length_contents, ← hfifo, hcontents, List.length_pos_iff]
      intro hempty
      simp [hempty] at hp
    have hdrop := Ring.frontSlot_eq (h.coupled.prx.tx.drop hcount) hpos
    rw [← hfifo, hcontents, hp, hfifo] at hdrop
    exact (Option.some.inj hdrop).symm
  have hfront' : l'.prx.frontIs t.pipe := by
    rw [Node.frontIs, hcontents, hnext]
  have hptxFront : l'.ptx.frontIs t.pipe := by
    rw [frontIs_congr hptx, frontIs_iff_eq hhead]
  rw [hslot] at hanswered
  refine ⟨hcoupled, ?_, ?_, by simp, ?_, ?_⟩
  · rw [hreceived, hsucceeded, h.received, hheard]
    simp
  · intro q hq
    by_cases hqt : q = t.pipe
    · subst hqt
      exact ⟨hfront', Or.inr ⟨harrived, hptxFront⟩⟩
    · rw [hanswered.others q hqt] at hq
      have hold := (h.flag q hq).1
      rw [Node.frontIs, hfront] at hold
      exact absurd (Option.some.inj hold).symm hqt
  · intro buf hbuf
    obtain rfl : l'.prx.txBuf = buf := Option.some.inj (hack.symm.trans hbuf)
    exact ⟨t.pipe, hptxFront, Or.inr ⟨hanswered.flag_eq, p, by rw [hcontents, hp], hpipe,
      hanswered.b0, hanswered.data_eq⟩⟩
  · intro a ha hdata
    rw [hanswered.acks] at ha
    rcases List.mem_append.mp ha with ha | ha
    · exact h.acks a ha hdata
    · obtain rfl := List.mem_singleton.mp ha
      refine ⟨p, ?_, hpipe, rfl⟩
      rw [hcoupled.prx.head?_eq, hcontents, hp]

theorem taken_again (h : AckInv crc cfg l heard) (hcoupled : Coupled crc cfg l')
    (hptx : l'.ptx.txFifo = l.ptx.txFifo) (hreceived : l'.ptx.received = l.ptx.received)
    (harrived : l'.arrived = true) (hack : l'.ack = some l'.prx.txBuf)
    (hhead : l.ptx.txFifo.contents.head? = some t) (hfront : l.prx.frontIs t.pipe)
    (hold : (l.prx.rxPipeInfo t.pipe).ackPayload = true → l.arrived = true)
    (hfifo : l'.prx.txFifo = l.prx.txFifo) (hsucceeded : l'.prx.succeeded = l.prx.succeeded)
    (hanswered : Node.Answered l.prx l'.prx t.pipe true l.prx.txFifo.frontSlot.data) :
    AckInv crc cfg l' false := by
  have hptxFront : l.ptx.frontIs t.pipe := (frontIs_iff_eq hhead _).mpr rfl
  have hheard : heard = false := by
    cases hh : heard with
    | false => rfl
    | true =>
      obtain ⟨q, hq, hflag, hnot⟩ := h.heard_flag hh
      obtain rfl : t.pipe = q := by
        rw [Node.frontIs, hfront] at hq
        exact Option.some.inj hq
      exact absurd ⟨hold hflag, hptxFront⟩ hnot
  obtain ⟨p, hp, hpipe⟩ := exists_of_frontIs hfront
  have hslot : l.prx.txFifo.frontSlot = p := by
    have hcount := ((Node.frontIs_iff h.coupled.prx t.pipe).mp hfront).1
    exact Option.some.inj ((Ring.frontSlot_eq h.coupled.prx.tx hcount).symm.trans hp)
  rw [hslot] at hanswered
  refine ⟨hcoupled, ?_, ?_, by simp, ?_, ?_⟩
  · rw [hreceived, hsucceeded, h.received, hheard, hfifo]
  · intro q hq
    by_cases hqt : q = t.pipe
    · subst hqt
      exact ⟨(frontIs_congr hfifo _).mpr hfront,
        Or.inr ⟨harrived, (frontIs_congr hptx _).mpr hptxFront⟩⟩
    · rw [hanswered.others q hqt] at hq
      have hflag := (h.flag q hq).1
      rw [Node.frontIs, hfront] at hflag
      exact absurd (Option.some.inj hflag).symm hqt
  · intro buf hbuf
    obtain rfl : l'.prx.txBuf = buf := Option.some.inj (hack.symm.trans hbuf)
    exact ⟨t.pipe, (frontIs_congr hptx _).mpr hptxFront, Or.inr ⟨hanswered.flag_eq, p,
      by rw [hfifo, hp], hpipe, hanswered.b0, hanswered.data_eq⟩⟩
  · intro a ha hdata
    rw [hanswered.acks] at ha
    rcases List.mem_append.mp ha with ha | ha
    · exact h.acks a ha hdata
    · obtain rfl := List.mem_singleton.mp ha
      refine ⟨p, ?_, hpipe, rfl⟩
      rw [hcoupled.prx.head?_eq, hfifo, hp]

theorem taken_none (h : AckInv crc cfg l heard) (hcoupled : Coupled crc cfg l')
    (hptx : l'.ptx.txFifo = l.ptx.txFifo) (hreceived : l'.ptx.received = l.ptx.received)
    (hack : l'.ack = some l'.prx.txBuf)
    (hhead : l.ptx.txFifo.contents.head? = some t) (hfront : ¬ l.prx.frontIs t.pipe)
    (hfifo : l'.prx.txFifo = l.prx.txFifo) (hsucceeded : l'.prx.succeeded = l.prx.succeeded)
    (hanswered : Node.Answered l.prx l'.prx t.pipe false []) :
    AckInv crc cfg l' heard := by
  have hothers (q : Nat) (hq : l.prx.frontIs q) :
      q ≠ t.pipe ∧ ¬ l.ptx.frontIs q := by
    have hne : q ≠ t.pipe := fun heq => hfront (heq ▸ hq)
    exact ⟨hne, fun hptx => hne ((frontIs_iff_eq hhead q).mp hptx).symm⟩
  refine ⟨hcoupled, ?_, ?_, ?_, ?_, ?_⟩
  · simpa only [hreceived, hsucceeded, hfifo] using h.received
  · intro q hq
    by_cases hqt : q = t.pipe
    · subst hqt
      rw [hanswered.flag_eq] at hq
      cases hq
    · rw [hanswered.others q hqt] at hq
      obtain ⟨hold, hheard⟩ := h.flag q hq
      refine ⟨(frontIs_congr hfifo q).mpr hold, Or.inl ?_⟩
      exact hheard.resolve_right fun hpending => (hothers q hold).2 hpending.2
  · intro hheard
    obtain ⟨q, hq, hflag, -⟩ := h.heard_flag hheard
    obtain ⟨hne, hnot⟩ := hothers q hq
    refine ⟨q, (frontIs_congr hfifo q).mpr hq, ?_, fun hpending => hnot ?_⟩
    · rw [hanswered.others q hne, hflag]
    · exact (frontIs_congr hptx q).mp hpending.2
  · intro buf hbuf
    obtain rfl : l'.prx.txBuf = buf := Option.some.inj (hack.symm.trans hbuf)
    refine ⟨t.pipe, (frontIs_congr hptx _).mpr ((frontIs_iff_eq hhead _).mpr rfl), Or.inl ?_⟩
    exact ⟨hanswered.b0, hanswered.flag_eq⟩
  · intro a ha hdata
    rw [hanswered.acks] at ha
    rcases List.mem_append.mp ha with ha | ha
    · exact h.acks a ha hdata
    · obtain rfl := List.mem_singleton.mp ha
      exact absurd rfl hdata

end Taken

variable {reception : Reception}

theorem packetEnd (h : AckInv crc cfg l heard) (hdpl : cfg.protocol = .esbDpl) {rssi : Int}
    (hright : AcksRight crc l (.packetEnd reception rssi)) :
    ∃ heard', AckInv crc cfg (l.step crc (.packetEnd reception rssi)) heard' := by
  have hcoupled := h.coupled.packetEnd hdpl reception rssi
  by_cases hnoack : l.ptx.state = .ptxTx
  · exact ⟨heard, h.noackEnd hdpl hnoack reception rssi hcoupled⟩
  by_cases hstate : l.ptx.state = .ptxTxAck
  · simp only [Link.step, hstate] at hcoupled ⊢
    cases htakes : l.takes reception with
    | false =>
      rw [htakes] at hcoupled
      refine ⟨heard, h.frame hcoupled ⟨rfl, rfl, rfl, rfl, rfl, rfl, rfl, rfl⟩ ?_ (by simp) ?_⟩
      · rw [prxAfter_of_not_takes htakes]
        exact ⟨rfl, rfl, rfl, rfl, rfl, rfl, rfl, rfl⟩
      · exact Or.inr (by simp)
    | true =>
      obtain ⟨t, hhead, hbuf, haddress, hexpects⟩ := h.coupled.sending (by simp [hstate])
      obtain ⟨hnext, hnew⟩ := hright htakes
      have hasks : l.prx.asks (Node.encode cfg.protocol t) = true := by
        rw [asks_eq h.coupled hdpl]
        simpa [hstate] using hexpects
      have hprx : l.prxAfter crc reception rssi = l.prx.acceptPacket t.pipe
          (crc t.pipe (Node.encode cfg.protocol t)) (Node.encode cfg.protocol t) rssi := by
        rw [prxAfter_of_takes htakes, haddress, hbuf]
      rw [removes, haddress, hbuf] at hnext
      rw [haddress, hbuf] at hnew
      rw [htakes, hprx] at hcoupled
      have hprotocol : l.prx.cfg.protocol = .esbDpl := by rw [h.coupled.prx_cfg, hdpl]
      rw [hprx]
      rcases Node.acceptPacket_cases h.coupled.prx hprotocol hasks t.pipe
        (crc t.pipe (Node.encode cfg.protocol t)) rssi with
        ⟨hfront, hflag, hretransmit, hfifo, hsucceeded, hanswered⟩ |
        ⟨hfront, hold, hfifo, hsucceeded, hanswered⟩ | ⟨hfront, hfifo, hsucceeded, hanswered⟩
      · have hfresh : l.arrived = false := by
          cases harrived : l.arrived with
          | false => rfl
          | true =>
            rw [h.coupled.isRetransmit hdpl hhead harrived] at hretransmit
            cases hretransmit
        exact ⟨false, h.taken_next hcoupled rfl rfl (by simp) (by simp [hanswered.state]) hhead
          hfresh hfront hflag hfifo hsucceeded hanswered (hnext ⟨hstate, hfront, hflag, hretransmit⟩)⟩
      · refine ⟨false, h.taken_again hcoupled rfl rfl (by simp) (by simp [hanswered.state]) hhead
          hfront (fun hflag => ?_) hfifo hsucceeded hanswered⟩
        cases harrived : l.arrived with
        | true => rfl
        | false =>
          rw [hflag, hnew hstate harrived] at hold
          cases hold
      · exact ⟨heard, h.taken_none hcoupled rfl rfl (by simp [hanswered.state]) hhead hfront hfifo
          hsucceeded hanswered⟩
  · have hstep : l.step crc (.packetEnd reception rssi) = l := by
      rw [Link.step]
      split
      · next htx => exact absurd htx hnoack
      · next htx => exact absurd htx hstate
      · rfl
    rw [hstep]
    exact ⟨heard, h⟩

theorem ackHeard (h : AckInv crc cfg l heard) (hdpl : cfg.protocol = .esbDpl)
    (hstate : l.ptx.state = .ptxRxAck) {rssi : Int} {buf : RfBuf}
    (hheard : l.heardAck reception = some buf)
    (hroom : 0 < buf.b0 → l.ptx.rxFifo.count < l.ptx.rxFifo.size) :
    ∃ heard', AckInv crc cfg (l.step crc (.windowEnd reception rssi)) heard' := by
  have hcoupled : Coupled crc cfg (l.step crc (.windowEnd reception rssi)) :=
    h.coupled.windowEnd reception rssi
  have hack : l.ack = some buf := by
    unfold heardAck at hheard
    split at hheard
    · exact hheard
    · cases hheard
  obtain ⟨t, hhead, -, haddress, -⟩ := h.coupled.sending (by simp [hstate])
  obtain ⟨q, hq, hcarried⟩ := h.carried buf hack
  obtain rfl : t.pipe = q := (frontIs_iff_eq hhead q).mp hq
  simp only [Link.step, hstate, hheard] at hcoupled ⊢
  rcases hcarried with ⟨hlength, hflag⟩ | ⟨hflag, p, hp, hpipe, hlength, hdata⟩
  · refine ⟨heard, hcoupled, ?_, ?_, ?_, by simp, h.acks⟩
    · rw [Node.waitForAck_received, Node.ackReceived_none _ hlength]
      exact h.received
    · intro q hq
      obtain ⟨hfront, hcases⟩ := h.flag q hq
      refine ⟨hfront, Or.inl (hcases.resolve_right fun hpending => ?_)⟩
      obtain rfl : t.pipe = q := (frontIs_iff_eq hhead q).mp hpending.2
      rw [hflag] at hq
      cases hq
    · intro hh
      obtain ⟨q, hfront, hq, -⟩ := h.heard_flag hh
      exact ⟨q, hfront, hq, by simp⟩
  · have hfresh : heard = false := by
      cases hh : heard with
      | false => rfl
      | true =>
        obtain ⟨q, hfront, -, hnot⟩ := h.heard_flag hh
        obtain rfl : p.pipe = q := (frontIs_iff_eq hp q).mp hfront
        rw [hpipe] at hnot
        exact absurd ⟨(h.coupled.ack (by simp [hack])).2, hq⟩ hnot
    have hvalid : ¬ Node.BadLength l.prx.cfg p.data.length := by
      refine h.coupled.prx.valid p ?_
      rw [h.coupled.prx.sent]
      exact List.mem_append_right _ (List.mem_of_mem_head? hp)
    simp only [h.coupled.prx_cfg, Node.BadLength] at hvalid
    have hpos : 0 < buf.b0 := by omega
    have hmax : buf.b0 ≤ l.ptx.cfg.maxPayloadLength := by
      simp only [h.coupled.ptx_cfg]
      omega
    have hprotocol : l.ptx.cfg.protocol = .esbDpl := by rw [h.coupled.ptx_cfg, hdpl]
    have hcontent : (Node.receivedPayload l.ptx.cfg buf l.ptx.txAddress (buf.b1 / 2) rssi).content =
        p.content := by
      simp [Node.receivedPayload, Payload.content, Node.receivedLength, hprotocol, haddress, hpipe,
        hlength, hdata]
    refine ⟨true, hcoupled, ?_, ?_, ?_, by simp, h.acks⟩
    · rw [Node.waitForAck_received,
        Node.ackReceived_payload _ hprotocol hpos hmax (hroom hpos), List.map_append, h.received,
        hfresh]
      simp [hp, hcontent]
    · intro q hq
      exact ⟨(h.flag q hq).1, Or.inl rfl⟩
    · intro _
      exact ⟨t.pipe, (frontIs_iff_eq hp _).mpr hpipe, hflag, by simp⟩

theorem windowEnd (h : AckInv crc cfg l heard) (hdpl : cfg.protocol = .esbDpl) {rssi : Int}
    (hright : AcksRight crc l (.windowEnd reception rssi)) :
    ∃ heard', AckInv crc cfg (l.step crc (.windowEnd reception rssi)) heard' := by
  by_cases hstate : l.ptx.state = .ptxRxAck
  · cases hheard : l.heardAck reception with
    | none =>
      have hcoupled : Coupled crc cfg (l.step crc (.windowEnd reception rssi)) :=
        h.coupled.windowEnd reception rssi
      simp only [Link.step, hstate, hheard] at hcoupled ⊢
      exact ⟨heard, h.frame hcoupled (Node.untouched_waitForAck l.ptx rssi)
        ⟨rfl, rfl, rfl, rfl, rfl, rfl, rfl, rfl⟩ (by simp) (Or.inr rfl)⟩
    | some buf =>
      exact h.ackHeard hdpl hstate hheard (hright hstate buf (by simp [hheard]))
  · have hstep : l.step crc (.windowEnd reception rssi) = l := by
      rw [Link.step]
      split
      · next hrx => exact absurd hrx hstate
      · rfl
    rw [hstep]
    exact ⟨heard, h⟩

theorem step (h : AckInv crc cfg l heard) (hdpl : cfg.protocol = .esbDpl) {e : LinkEvent}
    (hright : AcksRight crc l e) : ∃ heard', AckInv crc cfg (l.step crc e) heard' := by
  cases e with
  | ptxWrite payload => exact ⟨heard, h.ptxWrite payload⟩
  | ptxStart =>
    exact ⟨heard, h.frame h.coupled.ptxStart (Node.untouched_start l.ptx)
      ⟨rfl, rfl, rfl, rfl, rfl, rfl, rfl, rfl⟩ rfl (Or.inl rfl)⟩
  | ptxRead =>
    exact ⟨heard, h.frame h.coupled.ptxRead (Node.untouched_read l.ptx)
      ⟨rfl, rfl, rfl, rfl, rfl, rfl, rfl, rfl⟩ rfl (Or.inl rfl)⟩
  | prxWrite payload => exact ⟨heard, h.prxWrite payload⟩
  | prxRead =>
    exact ⟨heard, h.frame h.coupled.prxRead ⟨rfl, rfl, rfl, rfl, rfl, rfl, rfl, rfl⟩
      (Node.untouched_read l.prx) rfl (Or.inl rfl)⟩
  | packetEnd reception rssi => exact h.packetEnd hdpl hright
  | windowEnd reception rssi => exact h.windowEnd hdpl hright
  | ackEnd =>
    have hcoupled : Coupled crc cfg (l.step crc .ackEnd) := h.coupled.ackEnd
    refine ⟨heard, ?_⟩
    rw [Link.step] at hcoupled ⊢
    split
    · next hstate =>
      rw [if_pos hstate] at hcoupled
      exact h.frame hcoupled ⟨rfl, rfl, rfl, rfl, rfl, rfl, rfl, rfl⟩
        ⟨rfl, rfl, rfl, rfl, rfl, rfl, rfl, rfl⟩ rfl (Or.inl rfl)
    · exact h

end AckInv

def AckKept (crc : Nat → RfBuf → Nat) (cfg : Config) (l : Link) : Prop :=
  ∃ heard, AckInv crc cfg l heard

def dataOf (pipe : Nat) (l : List Payload) : List (Nat × List UInt8) :=
  (l.map Payload.content).filter fun c => c.1 = pipe

/-- Acknowledgements carry the front payload for their pipe, what the PRX has reported has been
received, and the PTX has received the first payloads for each pipe. -/
structure AckPayloadsRight (l : Link) : Prop where
  acks : ∀ a ∈ l.prx.acks, a.data ≠ [] → ∃ p, a.front = some p ∧ p.pipe = a.pipe ∧ p.data = a.data
  reported : ∀ pipe, dataOf pipe l.prx.succeeded <+: dataOf pipe l.ptx.received
  inOrder : ∀ pipe, dataOf pipe l.ptx.received <+: dataOf pipe l.prx.written

theorem AckInv.ackPayloadsRight {heard : Bool} (h : AckInv crc cfg l heard) :
    AckPayloadsRight l := by
  refine ⟨h.acks, fun pipe => ?_, fun pipe => ?_⟩
  · rw [dataOf, dataOf, h.received, List.map_append]
    exact (List.prefix_append _ _).filter _
  · rw [dataOf, dataOf, h.received, h.coupled.prx.sent]
    refine List.IsPrefix.filter _ (List.IsPrefix.map _ ?_)
    refine (List.prefix_append_right_inj _).mpr ?_
    split
    · cases l.prx.txFifo.contents <;> simp
    · simp

/-- In every run in which a payload is removed only with another one for its pipe behind it, the
acknowledgement payloads are right. -/
theorem esb_ackPayloads {cfg : Config} (hdpl : cfg.protocol = .esbDpl)
    {ptxTx ptxRx prxTx prxRx : Nat} {l : Link}
    (hl : Reached (Link.step crc) (AcksRight crc) (Link.init cfg ptxTx ptxRx prxTx prxRx) l) :
    AckPayloadsRight l := by
  have hstep : ∀ l e, AckKept crc cfg l → AcksRight crc l e → AckKept crc cfg (l.step crc e) := by
    rintro l e ⟨heard, h⟩ hright
    exact h.step hdpl hright
  have h : AckKept crc cfg l :=
    hl.invariant ⟨false, AckInv.init cfg ptxTx ptxRx prxTx prxRx⟩ hstep
  obtain ⟨heard, h⟩ := h
  exact h.ackPayloadsRight

def pairEvents : List LinkEvent :=
  [.prxWrite ⟨0, 0, false, 0, [10]⟩, .prxWrite ⟨0, 0, false, 0, [11]⟩,
    .ptxWrite ⟨0, 0, false, 0, [1]⟩] ++ exchange .received .lost ++ exchange .received .received ++
    [.ptxWrite ⟨0, 0, false, 0, [2]⟩] ++ exchange .received .received

def pairLink : Link :=
  pairEvents.foldl (Link.step fun _ buf => (buf.data.headD 0).toNat)
    (Link.init (Node.dplConfig .ptx) 2 2 2 2)

theorem pairLink_ackPayloads :
    pairLink.ptx.received.map Payload.data = [[10], [11]] ∧
      pairLink.prx.succeeded.map Payload.data = [[10]] ∧ AckPayloadsRight pairLink := by
  have hevents : Reached.Guarded (Link.step fun _ buf => (buf.data.headD 0).toNat)
      (AcksRight fun _ buf => (buf.data.headD 0).toNat)
      (Link.init (Node.dplConfig .ptx) 2 2 2 2) pairEvents := by decide +kernel
  exact ⟨by decide +kernel, by decide +kernel, esb_ackPayloads rfl (Reached.run .start hevents)⟩

/-- The first payload is removed when it is the only one. When the next one has been written, the
flag is still set: it is removed without having been sent, and the slot behind it is. -/
def staleEvents : List LinkEvent :=
  [.prxWrite ⟨0, 0, false, 0, [10]⟩, .ptxWrite ⟨0, 0, false, 0, [1]⟩] ++
    exchange .received .received ++ [.ptxWrite ⟨0, 0, false, 0, [2]⟩] ++
    exchange .received .received ++
    [.prxRead, .prxRead, .prxWrite ⟨0, 0, false, 0, [11]⟩, .ptxWrite ⟨0, 0, false, 0, [3]⟩] ++
    [.packetEnd .received (-40)]

def staleLink : Link :=
  staleEvents.foldl (Link.step fun _ buf => (buf.data.headD 0).toNat)
    (Link.init (Node.dplConfig .ptx) 2 4 2 2)

theorem staleLink_not_ackPayloadsRight :
    staleLink.prx.succeeded.map Payload.data = [[10], [11]] ∧
      staleLink.ptx.received.map Payload.data = [[10]] ∧ ¬ AckPayloadsRight staleLink := by
  have hstale : ⟨0, [10], none⟩ ∈ staleLink.prx.acks := by decide +kernel
  refine ⟨by decide +kernel, by decide +kernel, fun h => ?_⟩
  obtain ⟨p, hfront, -⟩ := h.acks _ hstale (by simp)
  cases hfront

end Link

end SdkNrf.Esb
