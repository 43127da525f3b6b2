import SdkNrf.Esb.Node

/-!
# A transmitter and a receiver

One PTX and one PRX with the same configuration, and the radio between them.
-/

namespace SdkNrf.Esb

inductive Reception
  | lost
  | corrupted
  | received
  deriving DecidableEq, Repr

/-- The devices, the acknowledgement that answers the current transmission, and whether the PRX has
taken the packet that the PTX is transmitting. -/
structure Link where
  ptx : Node
  prx : Node
  ack : Option RfBuf
  arrived : Bool

inductive LinkEvent
  | ptxWrite (payload : Payload)
  | ptxStart
  | ptxRead
  | prxWrite (payload : Payload)
  | prxRead
  | packetEnd (reception : Reception) (rssi : Int)
  | windowEnd (reception : Reception) (rssi : Int)
  | ackEnd

namespace Link

variable (crc : Nat → RfBuf → Nat)

def hears (l : Link) (reception : Reception) : Bool :=
  reception = .received && l.prx.state = .prx

def takes (l : Link) (reception : Reception) : Bool :=
  l.hears reception && l.prx.rxFifo.count < l.prx.rxFifo.size

def prxAfter (l : Link) (reception : Reception) (rssi : Int) : Node :=
  if reception ≠ .lost ∧ l.prx.state = .prx then
    l.prx.onRadioDisabledRx (reception = .received) l.ptx.txAddress
      (crc l.ptx.txAddress l.ptx.txBuf) l.ptx.txBuf rssi
  else l.prx

def heardAck (l : Link) (reception : Reception) : Option RfBuf :=
  if reception = .received then l.ack else none

def step (l : Link) : LinkEvent → Link
  | .ptxWrite payload => { l with ptx := l.ptx.after (l.ptx.esbWritePayload payload) }
  | .ptxStart => { l with ptx := l.ptx.after l.ptx.esbStartTx }
  | .ptxRead => { l with ptx := l.ptx.after (l.ptx.esbReadRxPayload.map Prod.fst) }
  | .prxWrite payload => { l with prx := l.prx.after (l.prx.esbWritePayload payload) }
  | .prxRead => { l with prx := l.prx.after (l.prx.esbReadRxPayload.map Prod.fst) }
  | .packetEnd reception rssi =>
    match l.ptx.state with
    | .ptxTx => { l with
        ptx := l.ptx.onRadioDisabledTxNoack
        prx := l.prxAfter crc reception rssi
        arrived := false }
    | .ptxTxAck => { l with
        ptx := l.ptx.onRadioDisabledTx
        prx := l.prxAfter crc reception rssi
        ack := if l.takes reception && (l.prxAfter crc reception rssi).state = .prxSendAck then
          some (l.prxAfter crc reception rssi).txBuf else none
        arrived := l.arrived || l.takes reception }
    | _ => l
  | .windowEnd reception rssi =>
    match l.ptx.state with
    | .ptxRxAck => { l with
        ptx := l.ptx.onRadioDisabledTxWaitForAck (l.heardAck reception) rssi
        ack := none
        arrived := l.arrived && (l.heardAck reception).isNone }
    | _ => l
  | .ackEnd => if l.prx.state = .prxSendAck then { l with prx := l.prx.onRadioDisabledRxAck } else l

def init (cfg : Config) (ptxTx ptxRx prxTx prxRx : Nat) : Link where
  ptx := Node.esbInit { cfg with mode := .ptx } ptxTx ptxRx
  prx := (Node.esbInit { cfg with mode := .prx } prxTx prxRx).after
    (Node.esbInit { cfg with mode := .prx } prxTx prxRx).esbStartRx
  ack := none
  arrived := false

end Link

end SdkNrf.Esb
