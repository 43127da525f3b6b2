import SdkNrf.Framework.Ring

/-!
# Enhanced ShockBurst

The module of one device, after `esb_init`: the FIFOs, the packet buffers and what is remembered of each pipe.
-/

namespace SdkNrf.Esb

inductive Protocol
  | esb
  | esbDpl
  deriving DecidableEq, Repr

inductive Mode
  | ptx
  | prx
  deriving DecidableEq, Repr

inductive TxMode
  | auto
  | manual
  | manualStart
  deriving DecidableEq, Repr

/-- `struct esb_config` and the constants of the build, as far as they are read. -/
structure Config where
  protocol : Protocol
  mode : Mode
  txMode : TxMode
  payloadLength : Nat
  selectiveAutoAck : Bool
  retransmitCount : Nat
  maxPayloadLength : Nat
  pipeCount : Nat
  deriving DecidableEq, Repr

/-- `struct esb_payload`; the length is that of the data. -/
structure Payload where
  pipe : Nat
  rssi : Int
  noack : Bool
  pid : Nat
  data : List UInt8
  deriving DecidableEq, Repr, Inhabited

structure RfBuf where
  b0 : Nat
  b1 : Nat
  data : List UInt8
  deriving DecidableEq, Repr, Inhabited

structure PipeInfo where
  crc : Nat
  pid : Nat
  ackPayload : Bool
  deriving DecidableEq, Repr, Inhabited

inductive EsbState
  | idle
  | ptxTx
  | ptxTxAck
  | ptxRxAck
  | prx
  | prxSendAck
  deriving DecidableEq, Repr

structure SentAck where
  pipe : Nat
  data : List UInt8
  front : Option Payload
  deriving DecidableEq, Repr

inductive Error
  | EMSGSIZE
  | ENOMEM
  | EINVAL
  | ENODATA
  | EBUSY
  deriving DecidableEq, Repr

/-- The variables of the module, and what has happened: the payloads that were written, that were
reported with `ESB_EVENT_TX_SUCCESS`, that were pushed to the RX FIFO and that were read, and the
acknowledgements that were sent. -/
structure Node where
  cfg : Config
  state : EsbState
  txFifo : Ring Payload
  rxFifo : Ring Payload
  pids : Nat → Nat
  rxPipeInfo : Nat → PipeInfo
  txBuf : RfBuf
  txAddress : Nat
  retransmitsRemaining : Nat
  lastTxAttempts : Nat
  txFailed : Bool
  written : List Payload
  succeeded : List Payload
  received : List Payload
  read : List Payload
  acks : List SentAck

def pidMax : Nat := 3

namespace Node

def txFifoRemoveLast (n : Node) : Node :=
  if n.txFifo.count = 0 then n else { n with txFifo := n.txFifo.drop }

def receivedLength (cfg : Config) (buf : RfBuf) : Nat :=
  match cfg.protocol, cfg.mode with
  | .esbDpl, _ => buf.b0
  | .esb, .ptx => 0
  | .esb, .prx => cfg.payloadLength

/-- What `rx_fifo_push_rfbuf` stores. -/
def receivedPayload (cfg : Config) (buf : RfBuf) (pipe pid : Nat) (rssi : Int) : Payload where
  pipe := pipe
  rssi := rssi
  noack := buf.b1 % 2 = 0
  pid := pid
  data := buf.data.take (receivedLength cfg buf)

def rxFifoPushRfbuf (n : Node) (buf : RfBuf) (pipe pid : Nat) (rssi : Int) : Node :=
  if n.rxFifo.size ≤ n.rxFifo.count then n
  else if n.cfg.protocol = .esbDpl ∧ n.cfg.maxPayloadLength < buf.b0 then n
  else { n with
    rxFifo := n.rxFifo.push (receivedPayload n.cfg buf pipe pid rssi)
    received := n.received ++ [receivedPayload n.cfg buf pipe pid rssi] }

/-- `INT_TX_SUCCESS_MSK` is set for the payload at the front. -/
def reportSuccess (n : Node) : Node := { n with succeeded := n.succeeded ++ n.txFifo.head?.toList }

def encode (protocol : Protocol) (p : Payload) : RfBuf :=
  match protocol with
  | .esb => ⟨p.pid, 0, p.data⟩
  | .esbDpl => ⟨p.data.length, 2 * p.pid + (if p.noack then 0 else 1), p.data⟩

def expectsAck (cfg : Config) (p : Payload) : Bool :=
  match cfg.protocol with
  | .esb => true
  | .esbDpl => !p.noack || !cfg.selectiveAutoAck

def startTxTransaction (n : Node) : Node :=
  let currentPayload := n.txFifo.frontSlot
  let ack := expectsAck n.cfg currentPayload
  { n with
    lastTxAttempts := 1
    txBuf := encode n.cfg.protocol currentPayload
    txAddress := currentPayload.pipe
    retransmitsRemaining := if ack then n.cfg.retransmitCount else n.retransmitsRemaining
    state := if ack then .ptxTxAck else .ptxTx }

def onRadioDisabledTxNoack (n : Node) : Node :=
  let n := n.reportSuccess.txFifoRemoveLast
  if n.txFifo.count = 0 then { n with state := .idle } else n.startTxTransaction

def onRadioDisabledTx (n : Node) : Node := { n with state := .ptxRxAck }

/-- An acknowledgement has been received: the payload is reported and removed, and the payload of the
acknowledgement is pushed. -/
def ackReceived (n : Node) (buf : RfBuf) (rssi : Int) : Node :=
  let n := { n with lastTxAttempts := n.cfg.retransmitCount - n.retransmitsRemaining + 1 }
  let n := n.reportSuccess.txFifoRemoveLast
  if n.cfg.protocol ≠ .esb ∧ 0 < buf.b0 then n.rxFifoPushRfbuf buf n.txAddress (buf.b1 / 2) rssi
  else n

/-- `on_radio_disabled_tx_wait_for_ack`, with the acknowledgement if one has been received. -/
def onRadioDisabledTxWaitForAck (n : Node) (ack : Option RfBuf) (rssi : Int) : Node :=
  match ack with
  | some buf =>
    let n := n.ackReceived buf rssi
    if n.txFifo.count = 0 ∨ n.cfg.txMode = .manual then { n with state := .idle }
    else n.startTxTransaction
  | none =>
    if n.retransmitsRemaining = 0 then { n with
      retransmitsRemaining := 2 ^ 32 - 1
      lastTxAttempts := n.cfg.retransmitCount + 1
      txFailed := true
      state := .idle }
    else { n with retransmitsRemaining := n.retransmitsRemaining - 1, state := .ptxTxAck }

def onRadioDisabledRxDpl (n : Node) (pipe b1 : Nat) (retransmitPayload : Bool) : Node :=
  if 0 < n.txFifo.count ∧ n.txFifo.frontSlot.pipe = pipe then
    let n := if (n.rxPipeInfo pipe).ackPayload && !retransmitPayload then
      { n.reportSuccess with txFifo := n.txFifo.drop } else n
    let currentPayload := n.txFifo.frontSlot
    { n with
      rxPipeInfo := Function.update n.rxPipeInfo pipe { n.rxPipeInfo pipe with ackPayload := true }
      txBuf := ⟨currentPayload.data.length, b1, currentPayload.data⟩ }
  else { n with
    rxPipeInfo := Function.update n.rxPipeInfo pipe { n.rxPipeInfo pipe with ackPayload := false }
    txBuf := ⟨0, b1, []⟩ }

def isRetransmit (n : Node) (pipe crc : Nat) (buf : RfBuf) : Bool :=
  crc = (n.rxPipeInfo pipe).crc && buf.b1 / 2 = (n.rxPipeInfo pipe).pid

def prepareAck (n : Node) (pipe : Nat) (buf : RfBuf) (retransmitPayload : Bool) : Node :=
  match n.cfg.protocol with
  | .esbDpl => n.onRadioDisabledRxDpl pipe buf.b1 retransmitPayload
  | .esb => { n with txBuf := ⟨buf.b0, 0, []⟩ }

def sendAck (n : Node) (pipe : Nat) : Node := { n with
  state := .prxSendAck
  txAddress := pipe
  acks := n.acks ++ [⟨pipe, n.txBuf.data, n.txFifo.head?⟩] }

def remember (n : Node) (pipe crc : Nat) (buf : RfBuf) : Node := { n with
  rxPipeInfo := Function.update n.rxPipeInfo pipe
    { n.rxPipeInfo pipe with pid := buf.b1 / 2, crc := crc } }

/-- `on_radio_disabled_rx`, behind the checks. -/
def acceptPacket (n : Node) (pipe crc : Nat) (buf : RfBuf) (rssi : Int) : Node :=
  let retransmitPayload := n.isRetransmit pipe crc buf
  let n := n.remember pipe crc buf
  let n := if !n.cfg.selectiveAutoAck || buf.b1 % 2 = 1 then
    (n.prepareAck pipe buf retransmitPayload).sendAck pipe else n
  if retransmitPayload then n else n.rxFifoPushRfbuf buf pipe (buf.b1 / 2) rssi

/-- `on_radio_disabled_rx`: a packet has been received on a pipe. -/
def onRadioDisabledRx (n : Node) (crcStatus : Bool) (pipe crc : Nat) (buf : RfBuf) (rssi : Int) :
    Node :=
  if !crcStatus then n
  else if n.rxFifo.size ≤ n.rxFifo.count then n
  else n.acceptPacket pipe crc buf rssi

def onRadioDisabledRxAck (n : Node) : Node := { n with state := .prx }

/-- A length that `esb_write_payload` refuses. -/
def BadLength (cfg : Config) (length : Nat) : Prop :=
  length = 0 ∨ cfg.maxPayloadLength < length ∨
    (cfg.protocol = .esb ∧ cfg.payloadLength < length)

instance (cfg : Config) (length : Nat) : Decidable (BadLength cfg length) := by
  unfold BadLength
  infer_instance

def stored (n : Node) (payload : Payload) : Node :=
  let pid := (n.pids payload.pipe + 1) % (pidMax + 1)
  { n with
    pids := Function.update n.pids payload.pipe pid
    txFifo := n.txFifo.push { payload with pid := pid }
    written := n.written ++ [{ payload with pid := pid }] }

def esbWritePayload (n : Node) (payload : Payload) : Except Error Node :=
  if BadLength n.cfg payload.data.length then .error .EMSGSIZE
  else if n.txFifo.size ≤ n.txFifo.count then .error .ENOMEM
  else if n.cfg.pipeCount ≤ payload.pipe then .error .EINVAL
  else
    let n := n.stored payload
    .ok (if n.cfg.mode = .ptx ∧ n.cfg.txMode = .auto ∧ n.state = .idle then n.startTxTransaction
      else n)

def esbReadRxPayload (n : Node) : Except Error (Node × Payload) :=
  if n.rxFifo.count = 0 then .error .ENODATA
  else .ok ({ n with rxFifo := n.rxFifo.drop, read := n.read ++ [n.rxFifo.frontSlot] },
    n.rxFifo.frontSlot)

def esbStartTx (n : Node) : Except Error Node :=
  if n.state ≠ .idle then .error .EBUSY
  else if n.txFifo.count = 0 then .error .ENODATA
  else .ok n.startTxTransaction

def esbStartRx (n : Node) : Except Error Node :=
  if n.state ≠ .idle then .error .EBUSY else .ok { n with state := .prx }

def esbFlushTx (n : Node) : Node := { n with txFifo := n.txFifo.clear }

def esbPopTx (n : Node) : Except Error Node :=
  if n.txFifo.count = 0 then .error .ENODATA
  else
    let back := n.txFifo.next n.txFifo.back
    .ok { n with txFifo := { n.txFifo with back := back, count := n.txFifo.count - 1 } }

def esbFlushRx (n : Node) : Node :=
  { n with rxFifo := n.rxFifo.clear, rxPipeInfo := fun _ => default }

def after (n : Node) (result : Except Error Node) : Node :=
  match result with
  | .ok n' => n'
  | .error _ => n

/-- The state after `esb_init` with FIFOs of the given sizes. -/
def esbInit (cfg : Config) (txSize rxSize : Nat) : Node where
  cfg := cfg
  state := .idle
  txFifo := Ring.empty txSize
  rxFifo := Ring.empty rxSize
  pids := fun _ => 0
  rxPipeInfo := fun _ => default
  txBuf := default
  txAddress := 0
  retransmitsRemaining := 0
  lastTxAttempts := 0
  txFailed := false
  written := []
  succeeded := []
  received := []
  read := []
  acks := []

/-- A payload that `esb_write_payload` takes. -/
def Accepts (n : Node) (payload : Payload) : Prop :=
  ¬ BadLength n.cfg payload.data.length ∧ n.txFifo.count < n.txFifo.size ∧
    payload.pipe < n.cfg.pipeCount

theorem after_write (n : Node) (payload : Payload) :
    (¬ n.Accepts payload ∧ n.after (n.esbWritePayload payload) = n) ∨
      (n.Accepts payload ∧ n.after (n.esbWritePayload payload) =
        if n.cfg.mode = .ptx ∧ n.cfg.txMode = .auto ∧ n.state = .idle then
          (n.stored payload).startTxTransaction
        else n.stored payload) := by
  unfold Accepts esbWritePayload
  split
  · next hlength => exact Or.inl ⟨fun h => h.1 hlength, rfl⟩
  · next hlength =>
    split
    · next hfull => exact Or.inl ⟨fun h => by omega, rfl⟩
    · next hroom =>
      split
      · next hpipe => exact Or.inl ⟨fun h => by omega, rfl⟩
      · next hpipe => exact Or.inr ⟨⟨hlength, by omega, by omega⟩, rfl⟩

end Node

end SdkNrf.Esb
