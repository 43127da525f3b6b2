import SdkNrf.Esb.Node

/-!
# Payloads are accounted for

What has been written has been reported or is in the TX FIFO, and what has been received has been
read or is in the RX FIFO.
-/

namespace SdkNrf.Esb.Node

structure Accounted (n : Node) : Prop where
  tx : n.txFifo.Agrees
  rx : n.rxFifo.Agrees
  sent : n.written = n.succeeded ++ n.txFifo.contents
  kept : n.received = n.read ++ n.rxFifo.contents
  valid : ∀ p ∈ n.written, ¬ BadLength n.cfg p.data.length

namespace Accounted

variable {n : Node}

theorem init (cfg : Config) (txSize rxSize : Nat) : Accounted (esbInit cfg txSize rxSize) :=
  ⟨Ring.Agrees.empty _, Ring.Agrees.empty _, rfl, rfl, by simp [esbInit]⟩

theorem head?_eq (h : Accounted n) : n.txFifo.head? = n.txFifo.contents.head? := Ring.head?_eq h.tx

theorem count_pos_iff : 0 < n.txFifo.count ↔ n.txFifo.contents ≠ [] := by
  rw [← List.length_pos_iff, Ring.length_contents]

theorem contents_eq (h : Accounted n) (hcount : 0 < n.txFifo.count) :
    n.txFifo.contents = n.txFifo.frontSlot :: n.txFifo.drop.contents := by
  rw [Ring.contents_drop h.tx hcount]
  exact (List.cons_head?_tail (Ring.frontSlot_eq h.tx hcount)).symm

theorem stored (h : Accounted n) {payload : Payload} (haccepts : n.Accepts payload) :
    Accounted (n.stored payload) := by
  refine ⟨h.tx.push haccepts.2.1 _, h.rx, ?_, h.kept, ?_⟩
  · simp only [Node.stored, Ring.contents_push h.tx haccepts.2.1, h.sent, List.append_assoc]
  · intro p hp
    rcases List.mem_append.mp hp with hp | hp
    · exact h.valid p hp
    · obtain rfl := List.mem_singleton.mp hp
      exact haccepts.1

theorem startTxTransaction (h : Accounted n) : Accounted n.startTxTransaction :=
  ⟨h.tx, h.rx, h.sent, h.kept, h.valid⟩

theorem write (h : Accounted n) (payload : Payload) :
    Accounted (n.after (n.esbWritePayload payload)) := by
  rcases n.after_write payload with ⟨-, heq⟩ | ⟨haccepts, heq⟩
  · rwa [heq]
  · rw [heq]
    split
    · exact (h.stored haccepts).startTxTransaction
    · exact h.stored haccepts

theorem start (h : Accounted n) : Accounted (n.after n.esbStartTx) := by
  unfold esbStartTx
  split
  · exact h
  · split
    · exact h
    · exact h.startTxTransaction

theorem read (h : Accounted n) : Accounted (n.after (n.esbReadRxPayload.map Prod.fst)) := by
  unfold esbReadRxPayload
  split
  · exact h
  · next hcount =>
    have hpos : 0 < n.rxFifo.count := by omega
    refine ⟨h.tx, h.rx.drop hpos, h.sent, ?_, h.valid⟩
    have hcontents : n.rxFifo.contents = n.rxFifo.frontSlot :: n.rxFifo.drop.contents := by
      rw [Ring.contents_drop h.rx hpos]
      exact (List.cons_head?_tail (Ring.frontSlot_eq h.rx hpos)).symm
    change n.received = (n.read ++ [n.rxFifo.frontSlot]) ++ n.rxFifo.drop.contents
    rw [h.kept, hcontents, List.append_assoc, List.singleton_append]

theorem reported (h : Accounted n) (hcount : 0 < n.txFifo.count) :
    Accounted { n.reportSuccess with txFifo := n.txFifo.drop } := by
  refine ⟨h.tx.drop hcount, h.rx, ?_, h.kept, h.valid⟩
  have hhead : n.txFifo.head? = some n.txFifo.frontSlot := by
    rw [Ring.head?, if_neg (by omega)]
  change n.written = (n.succeeded ++ n.txFifo.head?.toList) ++ n.txFifo.drop.contents
  rw [hhead, Option.toList_some, List.append_assoc, List.singleton_append, ← h.contents_eq hcount,
    h.sent]

theorem removed (h : Accounted n) : Accounted n.reportSuccess.txFifoRemoveLast := by
  unfold txFifoRemoveLast
  split
  · next hempty =>
    have hzero : n.txFifo.count = 0 := hempty
    refine ⟨h.tx, h.rx, ?_, h.kept, h.valid⟩
    simp [reportSuccess, Ring.head?, hzero, h.sent]
  · next hcount => exact h.reported (Nat.pos_of_ne_zero hcount)

theorem rxPush (h : Accounted n) (buf : RfBuf) (pipe pid : Nat) (rssi : Int) :
    Accounted (n.rxFifoPushRfbuf buf pipe pid rssi) := by
  unfold rxFifoPushRfbuf
  split
  · exact h
  · next hroom =>
    split
    · exact h
    · refine ⟨h.tx, h.rx.push (by omega) _, h.sent, ?_, h.valid⟩
      simp only [Ring.contents_push h.rx (Nat.lt_of_not_le hroom), h.kept, List.append_assoc]

theorem txNoack (h : Accounted n) : Accounted n.onRadioDisabledTxNoack := by
  unfold onRadioDisabledTxNoack
  simp only
  split
  · exact ⟨h.removed.tx, h.removed.rx, h.removed.sent, h.removed.kept, h.removed.valid⟩
  · exact h.removed.startTxTransaction

theorem ackReceived (h : Accounted n) (buf : RfBuf) (rssi : Int) :
    Accounted (n.ackReceived buf rssi) := by
  have hattempts : Accounted { n with
      lastTxAttempts := n.cfg.retransmitCount - n.retransmitsRemaining + 1 } :=
    ⟨h.tx, h.rx, h.sent, h.kept, h.valid⟩
  unfold Node.ackReceived
  simp only
  split
  · exact hattempts.removed.rxPush buf _ _ rssi
  · exact hattempts.removed

theorem waitForAck (h : Accounted n) (ack : Option RfBuf) (rssi : Int) :
    Accounted (n.onRadioDisabledTxWaitForAck ack rssi) := by
  cases ack with
  | none =>
    rw [onRadioDisabledTxWaitForAck]
    split <;> exact ⟨h.tx, h.rx, h.sent, h.kept, h.valid⟩
  | some buf =>
    have hack := h.ackReceived buf rssi
    rw [onRadioDisabledTxWaitForAck]
    split
    · exact ⟨hack.tx, hack.rx, hack.sent, hack.kept, hack.valid⟩
    · exact hack.startTxTransaction

theorem rxDpl (h : Accounted n) (pipe b1 : Nat) (retransmitPayload : Bool) :
    Accounted (n.onRadioDisabledRxDpl pipe b1 retransmitPayload) := by
  unfold onRadioDisabledRxDpl
  split
  · next hfront =>
    simp only
    split
    · have hreported := h.reported hfront.1
      exact ⟨hreported.tx, hreported.rx, hreported.sent, hreported.kept, hreported.valid⟩
    · exact ⟨h.tx, h.rx, h.sent, h.kept, h.valid⟩
  · exact ⟨h.tx, h.rx, h.sent, h.kept, h.valid⟩

theorem prepareAck (h : Accounted n) (pipe : Nat) (buf : RfBuf) (retransmitPayload : Bool) :
    Accounted (n.prepareAck pipe buf retransmitPayload) := by
  unfold Node.prepareAck
  split
  · exact h.rxDpl pipe buf.b1 retransmitPayload
  · exact ⟨h.tx, h.rx, h.sent, h.kept, h.valid⟩

theorem sendAck (h : Accounted n) (pipe : Nat) : Accounted (n.sendAck pipe) :=
  ⟨h.tx, h.rx, h.sent, h.kept, h.valid⟩

theorem remember (h : Accounted n) (pipe crc : Nat) (buf : RfBuf) :
    Accounted (n.remember pipe crc buf) :=
  ⟨h.tx, h.rx, h.sent, h.kept, h.valid⟩

theorem acceptPacket (h : Accounted n) (pipe crc : Nat) (buf : RfBuf) (rssi : Int) :
    Accounted (n.acceptPacket pipe crc buf rssi) := by
  have hremember := h.remember pipe crc buf
  have hack : Accounted (if !(n.remember pipe crc buf).cfg.selectiveAutoAck || buf.b1 % 2 = 1 then
      ((n.remember pipe crc buf).prepareAck pipe buf (n.isRetransmit pipe crc buf)).sendAck pipe
      else n.remember pipe crc buf) := by
    split
    · exact (hremember.prepareAck pipe buf _).sendAck pipe
    · exact hremember
  unfold Node.acceptPacket
  simp only
  split
  · exact hack
  · exact hack.rxPush buf pipe _ rssi

theorem onRadioDisabledRx (h : Accounted n) (crcStatus : Bool) (pipe crc : Nat) (buf : RfBuf)
    (rssi : Int) : Accounted (n.onRadioDisabledRx crcStatus pipe crc buf rssi) := by
  unfold Node.onRadioDisabledRx
  split
  · exact h
  · split
    · exact h
    · exact h.acceptPacket pipe crc buf rssi

end Accounted

end SdkNrf.Esb.Node
