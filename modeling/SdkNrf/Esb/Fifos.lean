import SdkNrf.Esb.Node
import SdkNrf.Framework.Reachable

/-!
# The FIFOs are bounded queues

Both rings hold the entries of a queue on which the same operations have been made, along every run
in which `esb_pop_tx` is not called on a FIFO of three slots or more that has an entry: the call
moves the index of the next free slot forwards.
-/

namespace SdkNrf.Esb

inductive FifoOp
  | write (payload : Payload)
  | popTx
  | flushTx
  | txComplete
  | ackPayload (pipe b1 : Nat) (retransmitPayload : Bool)
  | rxPush (buf : RfBuf) (pipe pid : Nat) (rssi : Int)
  | read
  | flushRx

namespace Node

def fifoStep (n : Node) : FifoOp → Node
  | .write payload => n.after (n.esbWritePayload payload)
  | .popTx => n.after n.esbPopTx
  | .flushTx => n.esbFlushTx
  | .txComplete => n.txFifoRemoveLast
  | .ackPayload pipe b1 retransmitPayload => n.onRadioDisabledRxDpl pipe b1 retransmitPayload
  | .rxPush buf pipe pid rssi => n.rxFifoPushRfbuf buf pipe pid rssi
  | .read => n.after (n.esbReadRxPayload.map Prod.fst)
  | .flushRx => n.esbFlushRx

end Node

/-- The queues, with what decides about an operation, and what has been read. -/
structure Queues where
  tx : List Payload
  rx : List Payload
  pids : Nat → Nat
  rxPipeInfo : Nat → PipeInfo
  read : List Payload

namespace Queues

/-- The same operations on queues of at most `txSize` and `rxSize` entries. -/
def step (cfg : Config) (txSize rxSize : Nat) (q : Queues) : FifoOp → Queues
  | .write payload =>
    let pid := (q.pids payload.pipe + 1) % (pidMax + 1)
    if ¬ Node.BadLength cfg payload.data.length ∧ q.tx.length < txSize ∧
        payload.pipe < cfg.pipeCount then { q with
      tx := q.tx ++ [{ payload with pid := pid }]
      pids := Function.update q.pids payload.pipe pid }
    else q
  | .popTx => { q with tx := q.tx.dropLast }
  | .flushTx => { q with tx := [] }
  | .txComplete => { q with tx := q.tx.tail }
  | .ackPayload pipe _ retransmitPayload =>
    let info := q.rxPipeInfo pipe
    if q.tx.head?.map Payload.pipe = some pipe then { q with
      tx := if info.ackPayload && !retransmitPayload then q.tx.tail else q.tx
      rxPipeInfo := Function.update q.rxPipeInfo pipe { info with ackPayload := true } }
    else { q with rxPipeInfo := Function.update q.rxPipeInfo pipe { info with ackPayload := false } }
  | .rxPush buf pipe pid rssi =>
    if q.rx.length < rxSize ∧ ¬ (cfg.protocol = .esbDpl ∧ cfg.maxPayloadLength < buf.b0) then
      { q with rx := q.rx ++ [Node.receivedPayload cfg buf pipe pid rssi] }
    else q
  | .read => { q with rx := q.rx.tail, read := q.read ++ q.rx.head?.toList }
  | .flushRx => { q with rx := [], rxPipeInfo := fun _ => default }

end Queues

namespace Node

def queues (n : Node) : Queues where
  tx := n.txFifo.contents
  rx := n.rxFifo.contents
  pids := n.pids
  rxPipeInfo := n.rxPipeInfo
  read := n.read

/-- `esb_pop_tx` fails, or the FIFO has two slots at most. -/
def PopsRight (n : Node) : FifoOp → Prop
  | .popTx => n.txFifo.count = 0 ∨ n.txFifo.size ≤ 2
  | _ => True

instance (n : Node) (op : FifoOp) : Decidable (PopsRight n op) := by
  cases op <;> unfold PopsRight <;> infer_instance

structure FifoInv (cfg : Config) (txSize rxSize : Nat) (n : Node) : Prop where
  cfg_eq : n.cfg = cfg
  txSize_eq : n.txFifo.size = txSize
  rxSize_eq : n.rxFifo.size = rxSize
  tx : n.txFifo.Agrees
  rx : n.rxFifo.Agrees

variable {cfg : Config} {txSize rxSize : Nat} {n : Node}

theorem pop_agrees {r : Ring Payload} (h : r.Agrees) (hcount : 0 < r.count) (hsize : r.size ≤ 2) :
    Ring.Agrees { r with back := r.next r.back, count := r.count - 1 } ∧
      Ring.contents { r with back := r.next r.back, count := r.count - 1 } =
        r.contents.dropLast := by
  have hpos : 0 < r.size := hcount.trans_le h.count_le
  have hback : r.back < r.size := by
    rw [h.back_eq]
    exact Nat.mod_lt _ hpos
  have hle := h.count_le
  refine ⟨⟨h.front_lt, ?_, (Nat.sub_le r.count 1).trans hle⟩, ?_⟩
  · have hfront := h.front_lt hpos
    have heq := h.back_eq
    change r.next r.back = (r.front + (r.count - 1)) % r.size
    rw [Ring.next_eq hback]
    obtain hone | htwo : r.size = 1 ∨ r.size = 2 := by omega
    · simp [hone, Nat.mod_one]
    · rw [htwo] at heq ⊢
      omega
  · obtain ⟨k, hk⟩ : ∃ k, r.count = k + 1 := ⟨r.count - 1, by omega⟩
    rw [Ring.contents, Ring.contents, hk, List.range_succ, List.map_append, List.map_singleton,
      List.dropLast_concat]
    rfl

namespace FifoInv

theorem write (h : FifoInv cfg txSize rxSize n) (payload : Payload) :
    FifoInv cfg txSize rxSize (n.after (n.esbWritePayload payload)) ∧
      (n.after (n.esbWritePayload payload)).queues =
        n.queues.step cfg txSize rxSize (.write payload) := by
  have haccepts : n.Accepts payload ↔ ¬ BadLength cfg payload.data.length ∧
      n.queues.tx.length < txSize ∧ payload.pipe < cfg.pipeCount := by
    rw [Accepts, h.cfg_eq, h.txSize_eq, queues, Ring.length_contents]
  rcases n.after_write payload with ⟨hrefused, heq⟩ | ⟨htaken, heq⟩
  · rw [heq, Queues.step, if_neg (haccepts.not.mp hrefused)]
    exact ⟨h, rfl⟩
  · have hstored : FifoInv cfg txSize rxSize (n.stored payload) :=
      ⟨h.cfg_eq, by simp [stored, h.txSize_eq], h.rxSize_eq, h.tx.push htaken.2.1 _, h.rx⟩
    have hqueues : (n.stored payload).queues =
        n.queues.step cfg txSize rxSize (.write payload) := by
      rw [Queues.step, if_pos (haccepts.mp htaken)]
      simp only [queues, stored, Ring.contents_push h.tx htaken.2.1]
    rw [heq]
    split
    · exact ⟨⟨hstored.cfg_eq, hstored.txSize_eq, hstored.rxSize_eq, hstored.tx, hstored.rx⟩, hqueues⟩
    · exact ⟨hstored, hqueues⟩

theorem popTx (h : FifoInv cfg txSize rxSize n) (hpops : PopsRight n .popTx) :
    FifoInv cfg txSize rxSize (n.after n.esbPopTx) ∧
      (n.after n.esbPopTx).queues = n.queues.step cfg txSize rxSize .popTx := by
  unfold esbPopTx
  split
  · next hempty =>
    refine ⟨h, ?_⟩
    simp [after, Queues.step, queues, Ring.contents, hempty]
  · next hcount =>
    obtain ⟨hagrees, hcontents⟩ := pop_agrees h.tx (by omega) (hpops.resolve_left hcount)
    refine ⟨⟨h.cfg_eq, h.txSize_eq, h.rxSize_eq, hagrees, h.rx⟩, ?_⟩
    simp only [after, Queues.step, queues, hcontents]

theorem txComplete (h : FifoInv cfg txSize rxSize n) :
    FifoInv cfg txSize rxSize n.txFifoRemoveLast ∧
      n.txFifoRemoveLast.queues = n.queues.step cfg txSize rxSize .txComplete := by
  unfold txFifoRemoveLast
  split
  · next hempty =>
    refine ⟨h, ?_⟩
    simp [Queues.step, queues, Ring.contents, hempty]
  · next hcount =>
    have hpos : 0 < n.txFifo.count := by omega
    refine ⟨⟨h.cfg_eq, h.txSize_eq, h.rxSize_eq, h.tx.drop hpos, h.rx⟩, ?_⟩
    simp only [Queues.step, queues, Ring.contents_drop h.tx hpos]

theorem ackPayload (h : FifoInv cfg txSize rxSize n) (pipe b1 : Nat) (retransmitPayload : Bool) :
    FifoInv cfg txSize rxSize (n.onRadioDisabledRxDpl pipe b1 retransmitPayload) ∧
      (n.onRadioDisabledRxDpl pipe b1 retransmitPayload).queues =
        n.queues.step cfg txSize rxSize (.ackPayload pipe b1 retransmitPayload) := by
  have hfront : n.queues.tx.head?.map Payload.pipe = some pipe ↔
      0 < n.txFifo.count ∧ n.txFifo.frontSlot.pipe = pipe := by
    rw [queues, ← Ring.head?_eq h.tx, Ring.head?]
    split <;> simp <;> omega
  rw [Queues.step, onRadioDisabledRxDpl]
  by_cases hcond : 0 < n.txFifo.count ∧ n.txFifo.frontSlot.pipe = pipe
  · rw [if_pos hcond, if_pos (hfront.mpr hcond)]
    simp only
    split
    · next hnew =>
      refine ⟨⟨h.cfg_eq, h.txSize_eq, h.rxSize_eq, h.tx.drop hcond.1, h.rx⟩, ?_⟩
      simp only [queues, hnew, if_true, Ring.contents_drop h.tx hcond.1, reportSuccess]
    · next hold =>
      refine ⟨⟨h.cfg_eq, h.txSize_eq, h.rxSize_eq, h.tx, h.rx⟩, ?_⟩
      simp only [queues, hold]
      rfl
  · rw [if_neg hcond, if_neg (hfront.not.mpr hcond)]
    exact ⟨⟨h.cfg_eq, h.txSize_eq, h.rxSize_eq, h.tx, h.rx⟩, rfl⟩

theorem rxPush (h : FifoInv cfg txSize rxSize n) (buf : RfBuf) (pipe pid : Nat) (rssi : Int) :
    FifoInv cfg txSize rxSize (n.rxFifoPushRfbuf buf pipe pid rssi) ∧
      (n.rxFifoPushRfbuf buf pipe pid rssi).queues =
        n.queues.step cfg txSize rxSize (.rxPush buf pipe pid rssi) := by
  have hlength : n.queues.rx.length = n.rxFifo.count := Ring.length_contents
  have hsize := h.rxSize_eq
  have hcfg := h.cfg_eq
  subst hcfg
  unfold rxFifoPushRfbuf
  rw [Queues.step, hlength]
  split
  · next hfull =>
    rw [if_neg (by omega)]
    exact ⟨h, rfl⟩
  · next hroom =>
    split
    · next hlong =>
      rw [if_neg fun hok => hok.2 hlong]
      exact ⟨h, rfl⟩
    · next hshort =>
      have hlt : n.rxFifo.count < n.rxFifo.size := by omega
      rw [if_pos ⟨by omega, hshort⟩]
      refine ⟨⟨rfl, h.txSize_eq, by simp [hsize], h.tx, h.rx.push hlt _⟩, ?_⟩
      simp only [queues, Ring.contents_push h.rx hlt]

theorem read (h : FifoInv cfg txSize rxSize n) :
    FifoInv cfg txSize rxSize (n.after (n.esbReadRxPayload.map Prod.fst)) ∧
      (n.after (n.esbReadRxPayload.map Prod.fst)).queues =
        n.queues.step cfg txSize rxSize .read := by
  unfold esbReadRxPayload
  split
  · next hempty =>
    refine ⟨h, ?_⟩
    simp [Except.map, after, Queues.step, queues, Ring.contents, hempty]
  · next hcount =>
    have hpos : 0 < n.rxFifo.count := by omega
    refine ⟨⟨h.cfg_eq, h.txSize_eq, h.rxSize_eq, h.tx, h.rx.drop hpos⟩, ?_⟩
    simp only [Except.map, after, Queues.step, queues, Ring.contents_drop h.rx hpos,
      Ring.frontSlot_eq h.rx hpos, Option.toList_some]

theorem step (h : FifoInv cfg txSize rxSize n) {op : FifoOp} (hpops : PopsRight n op) :
    FifoInv cfg txSize rxSize (n.fifoStep op) ∧
      (n.fifoStep op).queues = n.queues.step cfg txSize rxSize op := by
  cases op with
  | write payload => exact h.write payload
  | popTx => exact h.popTx hpops
  | flushTx =>
    exact ⟨⟨h.cfg_eq, h.txSize_eq, h.rxSize_eq, Ring.Agrees.clear _, h.rx⟩, rfl⟩
  | txComplete => exact h.txComplete
  | ackPayload pipe b1 retransmitPayload => exact h.ackPayload pipe b1 retransmitPayload
  | rxPush buf pipe pid rssi => exact h.rxPush buf pipe pid rssi
  | read => exact h.read
  | flushRx =>
    exact ⟨⟨h.cfg_eq, h.txSize_eq, h.rxSize_eq, h.tx, Ring.Agrees.clear _⟩, rfl⟩

theorem init (cfg : Config) (txSize rxSize : Nat) :
    FifoInv cfg txSize rxSize (esbInit cfg txSize rxSize) :=
  ⟨rfl, Ring.size_empty _, Ring.size_empty _, Ring.Agrees.empty _, Ring.Agrees.empty _⟩

theorem run (h : FifoInv cfg txSize rxSize n) {ops : List FifoOp}
    (hops : Reached.Guarded fifoStep PopsRight n ops) :
    FifoInv cfg txSize rxSize (ops.foldl fifoStep n) ∧
      (ops.foldl fifoStep n).queues = ops.foldl (Queues.step cfg txSize rxSize) n.queues := by
  induction ops generalizing n with
  | nil => exact ⟨h, rfl⟩
  | cons op ops ih =>
    obtain ⟨hinv, hqueues⟩ := h.step hops.1
    rw [List.foldl_cons, List.foldl_cons, ← hqueues]
    exact ih hinv hops.2

end FifoInv

/-- After every sequence of operations whose pops are right, the indices of both rings agree, and
the rings hold the queues on which the same operations have been made. -/
theorem fifos_refine_queues (cfg : Config) (txSize rxSize : Nat) {ops : List FifoOp}
    (hops : Reached.Guarded fifoStep PopsRight (esbInit cfg txSize rxSize) ops) :
    (ops.foldl fifoStep (esbInit cfg txSize rxSize)).txFifo.Agrees ∧
      (ops.foldl fifoStep (esbInit cfg txSize rxSize)).rxFifo.Agrees ∧
      (ops.foldl fifoStep (esbInit cfg txSize rxSize)).queues =
        ops.foldl (Queues.step cfg txSize rxSize) (esbInit cfg txSize rxSize).queues := by
  obtain ⟨hinv, hqueues⟩ := (FifoInv.init cfg txSize rxSize).run hops
  exact ⟨hinv.tx, hinv.rx, hqueues⟩

def dplConfig (mode : Mode) : Config where
  protocol := .esbDpl
  mode := mode
  txMode := .auto
  payloadLength := 32
  selectiveAutoAck := false
  retransmitCount := 3
  maxPayloadLength := 32
  pipeCount := 8

def oneByte (pipe : Nat) (b : UInt8) : Payload := ⟨pipe, 0, false, 0, [b]⟩

def twoSlotsOps : List FifoOp := [.write (oneByte 0 1), .write (oneByte 1 2), .popTx, .txComplete,
  .write (oneByte 0 3), .rxPush ⟨1, 3, [7]⟩ 0 1 (-40), .read]

theorem twoSlots_refine :
    (twoSlotsOps.foldl fifoStep (esbInit (dplConfig .ptx) 2 2)).txFifo.contents =
        [{ oneByte 0 3 with pid := 2 }] ∧
      (twoSlotsOps.foldl fifoStep (esbInit (dplConfig .ptx) 2 2)).txFifo.Agrees := by
  have hops : Reached.Guarded fifoStep PopsRight (esbInit (dplConfig .ptx) 2 2) twoSlotsOps := by
    decide
  exact ⟨by decide, (fifos_refine_queues (dplConfig .ptx) 2 2 hops).1⟩

def popOps : List FifoOp := [.write (oneByte 0 1), .popTx, .write (oneByte 0 2)]

/-- In three slots, the popped payload is back at the front, and the other one is not there. -/
theorem threeSlots_notAgrees :
    (popOps.foldl fifoStep (esbInit (dplConfig .ptx) 3 3)).txFifo.contents =
        [{ oneByte 0 1 with pid := 1 }] ∧
      ¬ (popOps.foldl fifoStep (esbInit (dplConfig .ptx) 3 3)).txFifo.Agrees := by
  refine ⟨by decide, fun h => ?_⟩
  exact absurd h.back_eq (by decide)

end Node

end SdkNrf.Esb
