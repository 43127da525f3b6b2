import SdkNrf.Esb.Accounting
import SdkNrf.Esb.Link
import SdkNrf.Framework.Reachable

/-!
# What couples the two devices

The packet in the air is the first payload of the TX FIFO of the PTX, and once the PRX has taken it, the PRX
remembers its id and its CRC.
-/

namespace SdkNrf.Esb

namespace Node

def Sending (n : Node) (p : Payload) : Prop :=
  n.txFifo.contents.head? = some p ∧ n.txBuf = encode n.cfg.protocol p ∧ n.txAddress = p.pipe

def Transmits (n : Node) : Prop :=
  n.state ≠ .idle → ∃ p, n.Sending p ∧ (n.state = .ptxTx ↔ expectsAck n.cfg p = false)

variable {n : Node}

theorem transmits_start (h : Accounted n) (hcount : 0 < n.txFifo.count) :
    Transmits n.startTxTransaction := by
  intro _
  have hhead : n.txFifo.contents.head? = some n.txFifo.frontSlot := Ring.frontSlot_eq h.tx hcount
  refine ⟨n.txFifo.frontSlot, ⟨hhead, rfl, rfl⟩, ?_⟩
  cases hack : expectsAck n.cfg n.txFifo.frontSlot <;> simp [startTxTransaction, hack]

theorem contents_stored (h : Accounted n) {payload : Payload} (haccepts : n.Accepts payload) :
    (n.stored payload).txFifo.contents = n.txFifo.contents ++
      [{ payload with pid := (n.pids payload.pipe + 1) % (pidMax + 1) }] :=
  Ring.contents_push h.tx haccepts.2.1 _

namespace Transmits

theorem write (ht : Transmits n) (h : Accounted n) (payload : Payload) :
    Transmits (n.after (n.esbWritePayload payload)) := by
  rcases n.after_write payload with ⟨-, heq⟩ | ⟨haccepts, heq⟩
  · rwa [heq]
  · have hcontents := contents_stored h haccepts
    rw [heq]
    split
    · refine transmits_start (h.stored haccepts) (Accounted.count_pos_iff.mpr ?_)
      simp [hcontents]
    · intro hbusy
      obtain ⟨p, ⟨hhead, hbuf, haddress⟩, hack⟩ := ht hbusy
      refine ⟨p, ⟨?_, hbuf, haddress⟩, hack⟩
      rw [hcontents, List.head?_append, hhead, Option.some_or]

theorem start (ht : Transmits n) (h : Accounted n) : Transmits (n.after n.esbStartTx) := by
  unfold esbStartTx
  split
  · exact ht
  · split
    · exact ht
    · exact transmits_start h (by omega)

theorem read (ht : Transmits n) : Transmits (n.after (n.esbReadRxPayload.map Prod.fst)) := by
  unfold esbReadRxPayload
  split <;> exact ht

theorem txNoack (h : Accounted n) : Transmits n.onRadioDisabledTxNoack := by
  unfold onRadioDisabledTxNoack
  simp only
  split
  · intro hbusy
    exact absurd rfl hbusy
  · exact transmits_start h.removed (by omega)

theorem tx (ht : Transmits n) (hstate : n.state = .ptxTxAck) : Transmits n.onRadioDisabledTx := by
  intro _
  obtain ⟨p, hsending, hack⟩ := ht (by simp [hstate])
  refine ⟨p, hsending, ?_⟩
  simpa [onRadioDisabledTx, hstate] using hack

theorem waitForAck (ht : Transmits n) (h : Accounted n) (hstate : n.state = .ptxRxAck)
    (ack : Option RfBuf) (rssi : Int) : Transmits (n.onRadioDisabledTxWaitForAck ack rssi) := by
  cases ack with
  | none =>
    rw [onRadioDisabledTxWaitForAck]
    split
    · intro hbusy
      exact absurd rfl hbusy
    · intro _
      obtain ⟨p, hsending, hack⟩ := ht (by simp [hstate])
      refine ⟨p, hsending, ?_⟩
      simpa [hstate] using hack
  | some buf =>
    rw [onRadioDisabledTxWaitForAck]
    split
    · intro hbusy
      exact absurd rfl hbusy
    · exact transmits_start (h.ackReceived buf rssi) (by omega)

end Transmits

structure Untouched (n n' : Node) : Prop where
  cfg : n'.cfg = n.cfg
  txFifo : n'.txFifo = n.txFifo
  written : n'.written = n.written
  succeeded : n'.succeeded = n.succeeded
  pids : n'.pids = n.pids
  received : n'.received = n.received
  rxPipeInfo : n'.rxPipeInfo = n.rxPipeInfo
  acks : n'.acks = n.acks

theorem untouched_start (n : Node) : Untouched n (n.after n.esbStartTx) := by
  unfold esbStartTx
  split
  · exact ⟨rfl, rfl, rfl, rfl, rfl, rfl, rfl, rfl⟩
  · split <;> exact ⟨rfl, rfl, rfl, rfl, rfl, rfl, rfl, rfl⟩

theorem untouched_read (n : Node) : Untouched n (n.after (n.esbReadRxPayload.map Prod.fst)) := by
  unfold esbReadRxPayload
  split <;> exact ⟨rfl, rfl, rfl, rfl, rfl, rfl, rfl, rfl⟩

@[simp] theorem after_read_state (n : Node) :
    (n.after (n.esbReadRxPayload.map Prod.fst)).state = n.state := by
  unfold esbReadRxPayload
  split <;> rfl

theorem after_write_cases (h : Accounted n) (payload : Payload) :
    n.after (n.esbWritePayload payload) = n ∨
      (n.Accepts payload ∧
        (n.after (n.esbWritePayload payload)).txFifo.contents = n.txFifo.contents ++
          [{ payload with pid := (n.pids payload.pipe + 1) % (pidMax + 1) }] ∧
        (n.after (n.esbWritePayload payload)).written = n.written ++
          [{ payload with pid := (n.pids payload.pipe + 1) % (pidMax + 1) }] ∧
        (n.after (n.esbWritePayload payload)).pids = Function.update n.pids payload.pipe
          ((n.pids payload.pipe + 1) % (pidMax + 1))) := by
  rcases n.after_write payload with ⟨-, heq⟩ | ⟨haccepts, heq⟩
  · exact Or.inl heq
  · right
    rw [heq]
    refine ⟨haccepts, ?_, ?_, ?_⟩
    · rw [← contents_stored h haccepts]
      split <;> rfl
    · split <;> rfl
    · split <;> rfl

section Writes

variable (n) (payload : Payload)

@[simp] theorem after_write_cfg : (n.after (n.esbWritePayload payload)).cfg = n.cfg := by
  rcases n.after_write payload with ⟨-, heq⟩ | ⟨-, heq⟩ <;> rw [heq]
  split <;> rfl

@[simp] theorem after_write_succeeded :
    (n.after (n.esbWritePayload payload)).succeeded = n.succeeded := by
  rcases n.after_write payload with ⟨-, heq⟩ | ⟨-, heq⟩ <;> rw [heq]
  split <;> rfl

@[simp] theorem after_write_received :
    (n.after (n.esbWritePayload payload)).received = n.received := by
  rcases n.after_write payload with ⟨-, heq⟩ | ⟨-, heq⟩ <;> rw [heq]
  split <;> rfl

@[simp] theorem after_write_rxPipeInfo :
    (n.after (n.esbWritePayload payload)).rxPipeInfo = n.rxPipeInfo := by
  rcases n.after_write payload with ⟨-, heq⟩ | ⟨-, heq⟩ <;> rw [heq]
  split <;> rfl

@[simp] theorem after_write_acks : (n.after (n.esbWritePayload payload)).acks = n.acks := by
  rcases n.after_write payload with ⟨-, heq⟩ | ⟨-, heq⟩ <;> rw [heq]
  split <;> rfl

theorem after_write_state (hbusy : n.state ≠ .idle) :
    (n.after (n.esbWritePayload payload)).state = n.state := by
  rcases n.after_write payload with ⟨-, heq⟩ | ⟨-, heq⟩ <;> rw [heq]
  rw [if_neg (by simp [hbusy])]
  rfl

end Writes

section Packets

variable (n : Node) (pipe crc : Nat) (buf : RfBuf) (retransmitPayload : Bool) (rssi : Int)

@[simp] theorem rxPush_rxPipeInfo (pid : Nat) :
    (n.rxFifoPushRfbuf buf pipe pid rssi).rxPipeInfo = n.rxPipeInfo := by
  unfold rxFifoPushRfbuf
  split
  · rfl
  · split <;> rfl

@[simp] theorem rxPush_state (pid : Nat) :
    (n.rxFifoPushRfbuf buf pipe pid rssi).state = n.state := by
  unfold rxFifoPushRfbuf
  split
  · rfl
  · split <;> rfl

@[simp] theorem rxPush_cfg (pid : Nat) : (n.rxFifoPushRfbuf buf pipe pid rssi).cfg = n.cfg := by
  unfold rxFifoPushRfbuf
  split
  · rfl
  · split <;> rfl

theorem rxPush_received {pid : Nat} (hroom : n.rxFifo.count < n.rxFifo.size)
    (hlength : buf.b0 ≤ n.cfg.maxPayloadLength) :
    (n.rxFifoPushRfbuf buf pipe pid rssi).received =
      n.received ++ [receivedPayload n.cfg buf pipe pid rssi] := by
  rw [rxFifoPushRfbuf, if_neg (by omega), if_neg (by omega)]

theorem prepareAck_rx :
    (n.prepareAck pipe buf retransmitPayload).rxFifo = n.rxFifo ∧
      (n.prepareAck pipe buf retransmitPayload).received = n.received ∧
      (n.prepareAck pipe buf retransmitPayload).cfg = n.cfg := by
  unfold prepareAck
  split
  · unfold onRadioDisabledRxDpl
    split
    · simp only
      split <;> exact ⟨rfl, rfl, rfl⟩
    · exact ⟨rfl, rfl, rfl⟩
  · exact ⟨rfl, rfl, rfl⟩

theorem prepareAck_info (q : Nat) :
    ((n.prepareAck pipe buf retransmitPayload).rxPipeInfo q).crc = (n.rxPipeInfo q).crc ∧
      ((n.prepareAck pipe buf retransmitPayload).rxPipeInfo q).pid = (n.rxPipeInfo q).pid := by
  unfold prepareAck
  split
  · unfold onRadioDisabledRxDpl
    split
    · simp only
      split <;> by_cases hq : q = pipe <;> simp [hq, reportSuccess]
    · by_cases hq : q = pipe <;> simp [hq]
  · exact ⟨rfl, rfl⟩

theorem acceptPacket_info (q : Nat) :
    ((n.acceptPacket pipe crc buf rssi).rxPipeInfo q).crc =
        (if q = pipe then crc else (n.rxPipeInfo q).crc) ∧
      ((n.acceptPacket pipe crc buf rssi).rxPipeInfo q).pid =
        (if q = pipe then buf.b1 / 2 else (n.rxPipeInfo q).pid) := by
  have hremember : ((n.remember pipe crc buf).rxPipeInfo q).crc =
        (if q = pipe then crc else (n.rxPipeInfo q).crc) ∧
      ((n.remember pipe crc buf).rxPipeInfo q).pid =
        (if q = pipe then buf.b1 / 2 else (n.rxPipeInfo q).pid) := by
    by_cases hq : q = pipe <;> simp [remember, hq]
  have hack := prepareAck_info (n.remember pipe crc buf) pipe buf (n.isRetransmit pipe crc buf) q
  unfold acceptPacket
  simp only
  split <;> split
  · exact ⟨hack.1.trans hremember.1, hack.2.trans hremember.2⟩
  · exact hremember
  · simp only [rxPush_rxPipeInfo]
    exact ⟨hack.1.trans hremember.1, hack.2.trans hremember.2⟩
  · simp only [rxPush_rxPipeInfo]
    exact hremember

theorem acceptPacket_received (hroom : n.rxFifo.count < n.rxFifo.size)
    (hlength : buf.b0 ≤ n.cfg.maxPayloadLength) :
    (n.acceptPacket pipe crc buf rssi).received =
      if n.isRetransmit pipe crc buf then n.received
      else n.received ++ [receivedPayload n.cfg buf pipe (buf.b1 / 2) rssi] := by
  obtain ⟨hfifo, hreceived, hcfg⟩ :=
    prepareAck_rx (n.remember pipe crc buf) pipe buf (n.isRetransmit pipe crc buf)
  unfold acceptPacket
  simp only
  split <;> split
  · exact hreceived
  · rfl
  · rw [rxPush_received]
    · simp only [sendAck, hreceived, hcfg]
      rfl
    · simp only [sendAck, hfifo]
      exact hroom
    · simp only [sendAck, hcfg]
      exact hlength
  · rw [rxPush_received (n.remember pipe crc buf) pipe buf rssi hroom hlength]
    rfl

theorem acceptPacket_cfg : (n.acceptPacket pipe crc buf rssi).cfg = n.cfg := by
  have hcfg := (prepareAck_rx (n.remember pipe crc buf) pipe buf
    (n.isRetransmit pipe crc buf)).2.2
  unfold acceptPacket
  simp only
  split <;> split
  · exact hcfg
  · rfl
  · rw [rxPush_cfg]
    exact hcfg
  · rw [rxPush_cfg]
    rfl

end Packets

section Ends

variable (n : Node) (rssi : Int)

structure Completed (n n' : Node) : Prop where
  contents : n'.txFifo.contents = n.txFifo.contents.tail
  written : n'.written = n.written
  succeeded : n'.succeeded = n.succeeded ++ n.txFifo.contents.head?.toList
  pids : n'.pids = n.pids

theorem completed_removed (h : Accounted n) : Completed n n.reportSuccess.txFifoRemoveLast := by
  unfold txFifoRemoveLast
  split
  · next hempty =>
    have hcontents : n.txFifo.contents = [] :=
      List.length_eq_zero_iff.mp (Ring.length_contents.trans hempty)
    refine ⟨?_, rfl, ?_, rfl⟩
    · simp [reportSuccess, hcontents]
    · simp [reportSuccess, h.head?_eq]
  · next hcount =>
    refine ⟨Ring.contents_drop h.tx (Nat.pos_of_ne_zero hcount), rfl, ?_, rfl⟩
    simp [reportSuccess, h.head?_eq]

theorem completed_rxPush {n n' : Node} (h : Completed n n') (buf : RfBuf) (pipe pid : Nat)
    (rssi : Int) : Completed n (n'.rxFifoPushRfbuf buf pipe pid rssi) := by
  unfold rxFifoPushRfbuf
  split
  · exact h
  · split
    · exact h
    · exact ⟨h.contents, h.written, h.succeeded, h.pids⟩

theorem completed_ackReceived (h : Accounted n) (buf : RfBuf) :
    Completed n (n.ackReceived buf rssi) := by
  have hattempts : Accounted { n with
      lastTxAttempts := n.cfg.retransmitCount - n.retransmitsRemaining + 1 } :=
    ⟨h.tx, h.rx, h.sent, h.kept, h.valid⟩
  have hremoved := completed_removed _ hattempts
  have hcompleted : Completed n { n with
      lastTxAttempts := n.cfg.retransmitCount - n.retransmitsRemaining + 1
      }.reportSuccess.txFifoRemoveLast :=
    ⟨hremoved.contents, hremoved.written, hremoved.succeeded, hremoved.pids⟩
  unfold ackReceived
  simp only
  split
  · exact completed_rxPush hcompleted buf _ _ rssi
  · exact hcompleted

theorem completed_waitForAck (h : Accounted n) (buf : RfBuf) :
    Completed n (n.onRadioDisabledTxWaitForAck (some buf) rssi) := by
  have hack := completed_ackReceived n rssi h buf
  rw [onRadioDisabledTxWaitForAck]
  split <;> exact ⟨hack.contents, hack.written, hack.succeeded, hack.pids⟩

theorem untouched_waitForAck : Untouched n (n.onRadioDisabledTxWaitForAck none rssi) := by
  rw [onRadioDisabledTxWaitForAck]
  split <;> exact ⟨rfl, rfl, rfl, rfl, rfl, rfl, rfl, rfl⟩

@[simp] theorem removed_cfg : n.reportSuccess.txFifoRemoveLast.cfg = n.cfg := by
  unfold txFifoRemoveLast
  split <;> rfl

theorem txNoack_cfg : n.onRadioDisabledTxNoack.cfg = n.cfg := by
  unfold onRadioDisabledTxNoack
  simp only
  split
  · exact removed_cfg n
  · exact removed_cfg n

theorem ackReceived_cfg (buf : RfBuf) : (n.ackReceived buf rssi).cfg = n.cfg := by
  unfold ackReceived
  simp only
  split
  · rw [rxPush_cfg, removed_cfg]
  · rw [removed_cfg]

theorem waitForAck_cfg (ack : Option RfBuf) :
    (n.onRadioDisabledTxWaitForAck ack rssi).cfg = n.cfg := by
  cases ack with
  | none =>
    rw [onRadioDisabledTxWaitForAck]
    split <;> rfl
  | some buf =>
    rw [onRadioDisabledTxWaitForAck]
    split <;> exact ackReceived_cfg n rssi buf

end Ends

end Node

namespace Link

variable {crc : Nat → RfBuf → Nat} {cfg : Config} {l : Link}

theorem prxAfter_of_takes {reception : Reception} {rssi : Int} (h : l.takes reception = true) :
    l.prxAfter crc reception rssi = l.prx.acceptPacket l.ptx.txAddress
      (crc l.ptx.txAddress l.ptx.txBuf) l.ptx.txBuf rssi := by
  simp only [takes, hears, Bool.and_eq_true, decide_eq_true_eq] at h
  obtain ⟨⟨rfl, hstate⟩, hroom⟩ := h
  rw [prxAfter, if_pos ⟨by simp, hstate⟩, Node.onRadioDisabledRx, if_neg (by simp),
    if_neg (by omega)]

theorem prxAfter_of_not_takes {reception : Reception} {rssi : Int}
    (h : l.takes reception = false) : l.prxAfter crc reception rssi = l.prx := by
  unfold prxAfter
  split
  · next hheard =>
    unfold Node.onRadioDisabledRx
    split
    · rfl
    · next hcrc =>
      split
      · rfl
      · next hroom =>
        have hreceived : reception = .received := by simpa using hcrc
        simp [takes, hears, hreceived, hheard.2, Nat.lt_of_not_le hroom] at h
  · rfl

/-- The configuration is the same on both sides, the packet in the air is the first payload of the
PTX, and the PRX remembers it once it has been taken. -/
structure Coupled (crc : Nat → RfBuf → Nat) (cfg : Config) (l : Link) : Prop where
  ptx_cfg : l.ptx.cfg = { cfg with mode := .ptx }
  prx_cfg : l.prx.cfg = { cfg with mode := .prx }
  ptx : Node.Accounted l.ptx
  prx : Node.Accounted l.prx
  transmits : Node.Transmits l.ptx
  arrived : l.arrived = true → ∃ p, l.ptx.txFifo.contents.head? = some p ∧
    Node.expectsAck cfg p = true ∧
    (l.prx.rxPipeInfo p.pipe).crc = crc p.pipe (Node.encode cfg.protocol p) ∧
    (l.prx.rxPipeInfo p.pipe).pid = p.pid
  ack : l.ack ≠ none → l.ptx.state = .ptxRxAck ∧ l.arrived = true

namespace Coupled

theorem sending (h : Coupled crc cfg l) (hbusy : l.ptx.state ≠ .idle) :
    ∃ p, l.ptx.txFifo.contents.head? = some p ∧ l.ptx.txBuf = Node.encode cfg.protocol p ∧
      l.ptx.txAddress = p.pipe ∧ (l.ptx.state = .ptxTx ↔ Node.expectsAck cfg p = false) := by
  obtain ⟨p, ⟨hhead, hbuf, haddress⟩, hack⟩ := h.transmits hbusy
  rw [h.ptx_cfg] at hbuf hack
  exact ⟨p, hhead, hbuf, haddress, hack⟩

theorem encode_pid (hdpl : cfg.protocol = .esbDpl) (p : Payload) :
    (Node.encode cfg.protocol p).b1 / 2 = p.pid := by
  rw [hdpl]
  cases hnoack : p.noack <;> simp [Node.encode, hnoack]
  omega

theorem encode_noack (hdpl : cfg.protocol = .esbDpl) (p : Payload) :
    (Node.encode cfg.protocol p).b1 % 2 = 1 ↔ p.noack = false := by
  rw [hdpl]
  cases hnoack : p.noack <;> simp [Node.encode, hnoack]

theorem isRetransmit (h : Coupled crc cfg l) (hdpl : cfg.protocol = .esbDpl) {p : Payload}
    (hhead : l.ptx.txFifo.contents.head? = some p) (harrived : l.arrived = true) :
    l.prx.isRetransmit p.pipe (crc p.pipe (Node.encode cfg.protocol p))
      (Node.encode cfg.protocol p) = true := by
  obtain ⟨q, hq, -, hcrc, hpid⟩ := h.arrived harrived
  obtain rfl : p = q := Option.some.inj (hhead.symm.trans hq)
  rw [Node.isRetransmit, encode_pid hdpl]
  simp [hcrc, hpid]

theorem init (cfg : Config) (ptxTx ptxRx prxTx prxRx : Nat) :
    Coupled crc cfg (Link.init cfg ptxTx ptxRx prxTx prxRx) := by
  have hprx := Node.Accounted.init { cfg with mode := .prx } prxTx prxRx
  refine ⟨rfl, rfl, Node.Accounted.init _ _ _, ⟨hprx.tx, hprx.rx, rfl, rfl, hprx.valid⟩, ?_, ?_, ?_⟩
  · intro hbusy
    exact absurd rfl hbusy
  · intro harrived
    cases harrived
  · intro hack
    exact absurd rfl hack

theorem ptxWrite (h : Coupled crc cfg l) (payload : Payload) :
    Coupled crc cfg (l.step crc (.ptxWrite payload)) := by
  refine ⟨by simpa [step] using h.ptx_cfg, h.prx_cfg, h.ptx.write payload, h.prx,
    h.transmits.write h.ptx payload, ?_, ?_⟩
  · intro harrived
    obtain ⟨p, hhead, hrest⟩ := h.arrived harrived
    refine ⟨p, ?_, hrest⟩
    rcases Node.after_write_cases h.ptx payload with heq | ⟨-, hcontents, -, -⟩
    · simpa only [step, heq] using hhead
    · simp only [step, hcontents, List.head?_append, hhead, Option.some_or]
  · intro hack
    obtain ⟨hstate, harrived⟩ := h.ack hack
    exact ⟨(Node.after_write_state _ payload (by simp [hstate])).trans hstate, harrived⟩

theorem ptxStart (h : Coupled crc cfg l) : Coupled crc cfg (l.step crc .ptxStart) := by
  have hsame := Node.untouched_start l.ptx
  refine ⟨hsame.cfg.trans h.ptx_cfg, h.prx_cfg, h.ptx.start, h.prx, h.transmits.start h.ptx, ?_, ?_⟩
  · intro harrived
    simpa only [step, hsame.txFifo] using h.arrived harrived
  · intro hack
    obtain ⟨hstate, harrived⟩ := h.ack hack
    refine ⟨?_, harrived⟩
    simp [step, Node.esbStartTx, Node.after, hstate]

theorem ptxRead (h : Coupled crc cfg l) : Coupled crc cfg (l.step crc .ptxRead) := by
  have hsame := Node.untouched_read l.ptx
  refine ⟨hsame.cfg.trans h.ptx_cfg, h.prx_cfg, h.ptx.read, h.prx, h.transmits.read, ?_, ?_⟩
  · intro harrived
    simpa only [step, hsame.txFifo] using h.arrived harrived
  · intro hack
    simpa only [step, Node.after_read_state] using h.ack hack

theorem prxWrite (h : Coupled crc cfg l) (payload : Payload) :
    Coupled crc cfg (l.step crc (.prxWrite payload)) := by
  refine ⟨h.ptx_cfg, by simpa [step] using h.prx_cfg, h.ptx, h.prx.write payload, h.transmits, ?_,
    h.ack⟩
  intro harrived
  simpa only [step, Node.after_write_rxPipeInfo] using h.arrived harrived

theorem prxRead (h : Coupled crc cfg l) : Coupled crc cfg (l.step crc .prxRead) := by
  have hsame := Node.untouched_read l.prx
  refine ⟨h.ptx_cfg, hsame.cfg.trans h.prx_cfg, h.ptx, h.prx.read, h.transmits, ?_, h.ack⟩
  intro harrived
  simpa only [step, hsame.rxPipeInfo] using h.arrived harrived

theorem ackEnd (h : Coupled crc cfg l) : Coupled crc cfg (l.step crc .ackEnd) := by
  rw [step]
  split
  · exact ⟨h.ptx_cfg, h.prx_cfg, h.ptx, ⟨h.prx.tx, h.prx.rx, h.prx.sent, h.prx.kept, h.prx.valid⟩,
      h.transmits, h.arrived, h.ack⟩
  · exact h

theorem accounted_prxAfter (h : Coupled crc cfg l) (reception : Reception) (rssi : Int) :
    Node.Accounted (l.prxAfter crc reception rssi) := by
  unfold prxAfter
  split
  · exact h.prx.onRadioDisabledRx _ _ _ _ rssi
  · exact h.prx

theorem prxAfter_cfg (h : Coupled crc cfg l) (reception : Reception) (rssi : Int) :
    (l.prxAfter crc reception rssi).cfg = { cfg with mode := .prx } := by
  cases htakes : l.takes reception with
  | false => rw [prxAfter_of_not_takes htakes, h.prx_cfg]
  | true => rw [prxAfter_of_takes htakes, Node.acceptPacket_cfg, h.prx_cfg]

theorem packetEnd (h : Coupled crc cfg l) (hdpl : cfg.protocol = .esbDpl) (reception : Reception)
    (rssi : Int) : Coupled crc cfg (l.step crc (.packetEnd reception rssi)) := by
  have hprx := h.accounted_prxAfter reception rssi
  have hcfg := h.prxAfter_cfg reception rssi
  rw [step]
  split
  · next hstate =>
    refine ⟨?_, hcfg, h.ptx.txNoack, hprx, Node.Transmits.txNoack h.ptx, by simp, ?_⟩
    · exact (Node.txNoack_cfg l.ptx).trans h.ptx_cfg
    · intro hack
      simp [(h.ack hack).1] at hstate
  · next hstate =>
    refine ⟨h.ptx_cfg, hcfg, ⟨h.ptx.tx, h.ptx.rx, h.ptx.sent, h.ptx.kept, h.ptx.valid⟩, hprx,
      h.transmits.tx hstate, ?_, ?_⟩
    · intro harrived
      cases htakes : l.takes reception with
      | false =>
        rw [htakes, Bool.or_false] at harrived
        simp only [prxAfter_of_not_takes htakes]
        exact h.arrived harrived
      | true =>
        obtain ⟨p, hhead, hbuf, haddress, hack⟩ := h.sending (by simp [hstate])
        obtain ⟨hcrc, hpid⟩ := Node.acceptPacket_info l.prx l.ptx.txAddress
          (crc l.ptx.txAddress l.ptx.txBuf) l.ptx.txBuf rssi p.pipe
        rw [haddress, hbuf, if_pos rfl] at hcrc hpid
        refine ⟨p, hhead, ?_, ?_, ?_⟩
        · simpa [hstate] using hack
        · simpa only [prxAfter_of_takes htakes, haddress, hbuf] using hcrc
        · simpa only [prxAfter_of_takes htakes, haddress, hbuf, encode_pid hdpl] using hpid
    · intro hack
      refine ⟨rfl, ?_⟩
      by_cases htakes : l.takes reception = true
      · simp [htakes]
      · simp [htakes] at hack
  · exact h

theorem windowEnd (h : Coupled crc cfg l) (reception : Reception) (rssi : Int) :
    Coupled crc cfg (l.step crc (.windowEnd reception rssi)) := by
  rw [step]
  split
  · next hstate =>
    refine ⟨?_, h.prx_cfg, h.ptx.waitForAck _ rssi, h.prx, h.transmits.waitForAck h.ptx hstate _ rssi,
      ?_, by simp⟩
    · exact (Node.waitForAck_cfg l.ptx rssi _).trans h.ptx_cfg
    · intro harrived
      cases hheard : l.heardAck reception with
      | some buf => simp [hheard] at harrived
      | none =>
        rw [hheard, Option.isNone_none, Bool.and_true] at harrived
        simpa only [(Node.untouched_waitForAck l.ptx rssi).txFifo] using h.arrived harrived
  · exact h

end Coupled

end Link

end SdkNrf.Esb
