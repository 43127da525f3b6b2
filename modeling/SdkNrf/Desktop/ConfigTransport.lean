import SdkNrf.Desktop.ConfigForward
import SdkNrf.Framework.Accesses

/-!
# Configuration channel transport

`nrf_desktop/src/util/config_channel_transport.c`, with the two functions for reports of `ConfigForward`.
-/

namespace SdkNrf.Desktop.ConfigTransport

open ConfigForward (ConfigEvent REPORT_SIZE_USER_CONFIG TRANSPORT_HEADER_SIZE EINVAL CONFIG_STATUS_PENDING
  CONFIG_STATUS_TIMEOUT frameLengthCheck dataLenCheck reportDataLen configChannelReportParse
  configChannelReportFill)

def CONFIG_STATUS_POS : Fin REPORT_SIZE_USER_CONFIG := ⟨2, by decide⟩

def CONFIG_STATUS_DISCONNECTED_ERROR : UInt8 := 12

def EBUSY : Int := 16

/-- `sizeof(struct config_event)` where a pointer has 4 bytes; the type of the event is at 4, the size of its
data at 16. -/
def CONFIG_EVENT_SIZE : Nat := 20

/-- The values of `size_t`. -/
def SIZE_MODULUS : Nat := 2 ^ 32

inductive TransportState
  | disabled
  | idle
  | waitRsp
  | rspReady
  deriving DecidableEq, Repr

/-- `struct config_channel_transport`; `timeout` tells whether the work is pending. -/
structure Transport where
  timeout : Bool
  dataLen : Nat
  transportId : UInt16
  data : Fin REPORT_SIZE_USER_CONFIG → UInt8
  state : TransportState

inductive Fault
  | assertion
  | outside
  deriving DecidableEq, Repr

def assert (b : Bool) : List Fault := if b then [] else [.assertion]

def bounds (input output : Nat) (as : List Access) : List Fault :=
  if AllInside input output as then [] else [.outside]

/-- `new_config_event` with the data size `length - TRANSPORT_HEADER_SIZE`, computed in `size_t`. -/
def eventDataSize (length : Nat) : Nat := (length + SIZE_MODULUS - TRANSPORT_HEADER_SIZE) % SIZE_MODULUS

def eventAllocated (length : Nat) : Nat := (CONFIG_EVENT_SIZE + eventDataSize length) % SIZE_MODULUS

def newConfigEvent (length : Nat) : ConfigEvent where
  -- only the data size is set before the report is parsed
  transportId := 0
  eventId := 0
  recipient := 0
  status := 0
  data := List.replicate (eventDataSize length) 0
  number := 0

def newConfigEventFaults (length : Nat) : List Fault :=
  bounds 0 (eventAllocated length) [.write 4 4, .write 16 4]

/-- What `config_channel_report_parse` reads from a report and writes to the data of the event. -/
def parseAccesses (buffer : List UInt8) (length : Nat) : List Access :=
  if frameLengthCheck length ≠ 0 then []
  else if dataLenCheck (reportDataLen buffer) ≠ 0 ∨ length - TRANSPORT_HEADER_SIZE < reportDataLen buffer then
    [.read 0 TRANSPORT_HEADER_SIZE]
  else
    [.read 0 TRANSPORT_HEADER_SIZE, .read TRANSPORT_HEADER_SIZE (reportDataLen buffer),
      .write 0 (reportDataLen buffer)]

/-- What `config_channel_report_fill` writes to a report and reads from the data of the event. -/
def fillAccesses (event : ConfigEvent) : List Access :=
  [.write 0 TRANSPORT_HEADER_SIZE, .read 0 event.data.length, .write TRANSPORT_HEADER_SIZE event.data.length]

def overwrite (bytes : List UInt8) (data : Fin REPORT_SIZE_USER_CONFIG → UInt8) :
    Fin REPORT_SIZE_USER_CONFIG → UInt8 :=
  fun i => bytes.getD i (data i)

/-- `fill_response_pending`. -/
def pendingHeader : List UInt8 := [0, 0, CONFIG_STATUS_PENDING, 0]

/-- `config_channel_transport_init`, with the base that it takes for the transport. -/
def configChannelTransportInit (transportIdBase : UInt8) : Transport where
  timeout := false
  dataLen := 0
  transportId := transportIdBase.toUInt16 <<< 8
  data _ := 0
  state := .idle

/-- `drop_transactions`: responses for submitted requests will be dropped. -/
def dropTransactions (transportId : UInt16) : UInt16 :=
  (if transportId &&& 0xFF = 0xFF then transportId &&& ~~~0xFF else transportId) + 1

structure Fetched where
  transport : Transport
  bytes : List UInt8
  faults : List Fault

structure SetResult where
  transport : Transport
  err : Int
  event : Option ConfigEvent
  faults : List Fault

structure Changed where
  transport : Transport
  faults : List Fault

structure Received where
  transport : Transport
  taken : Bool
  faults : List Fault

namespace Transport

def configChannelTransportGet (t : Transport) (length : Nat) : Fetched where
  transport := if t.state = .rspReady then { t with state := .idle } else t
  bytes := (List.ofFn t.data).take length
  faults := assert (t.state ≠ .disabled) ++
    bounds REPORT_SIZE_USER_CONFIG length [.read 0 length, .write 0 length]

def configChannelTransportSet (t : Transport) (buffer : List UInt8) : SetResult :=
  if t.state = .waitRsp then ⟨t, -EBUSY, none, []⟩
  else
    let parsed := configChannelReportParse buffer buffer.length (newConfigEvent buffer.length)
    let faults := assert (t.state ≠ .disabled) ++ newConfigEventFaults buffer.length ++
      parsed.faults.map (fun _ => Fault.assertion) ++
      bounds buffer.length (eventDataSize buffer.length) (parseAccesses buffer buffer.length)
    if parsed.pos < 0 then ⟨t, -EINVAL, none, faults⟩
    else
      ⟨{ t with
        timeout := true
        data := overwrite pendingHeader t.data
        dataLen := TRANSPORT_HEADER_SIZE
        state := .waitRsp }, 0, some { parsed.event with transportId := t.transportId }, faults⟩

def unhandled (event : ConfigEvent) : ConfigEvent :=
  { event with
    status := CONFIG_STATUS_DISCONNECTED_ERROR
    data := [] }

def configChannelTransportRspReceive (t : Transport) (event : ConfigEvent) (isRequest : Bool) : Received :=
  if event.transportId ≠ t.transportId then ⟨t, false, []⟩
  else
    let event := if isRequest then unhandled event else event
    let t := { t with
      state := .rspReady
      timeout := false }
    match configChannelReportFill (event.data.length + TRANSPORT_HEADER_SIZE) event with
    | .error _ => ⟨t, true, [.assertion]⟩
    | .ok report =>
      ⟨{ t with data := overwrite report t.data }, true,
        bounds event.data.length REPORT_SIZE_USER_CONFIG (fillAccesses event)⟩

def timeoutFn (t : Transport) : Changed where
  transport := { t with
    timeout := false
    data := Function.update t.data CONFIG_STATUS_POS CONFIG_STATUS_TIMEOUT
    transportId := dropTransactions t.transportId
    state := .rspReady }
  faults := assert (t.state = .waitRsp)

def configChannelTransportDisconnect (t : Transport) : Changed where
  transport := { t with
    transportId := if t.state = .waitRsp then dropTransactions t.transportId else t.transportId
    state := .idle
    timeout := false }
  faults := assert (t.state ≠ .disabled)

end Transport

inductive Shown
  | pending
  | timeout
  | response (event : ConfigEvent)
  deriving DecidableEq, Repr

def Shown.frame : Shown → List UInt8
  | .pending => pendingHeader
  | .timeout => [0, 0, CONFIG_STATUS_TIMEOUT, 0]
  | .response event =>
    [event.recipient, event.eventId, event.status, event.data.length.toUInt8] ++ event.data

inductive Event
  | set (buffer : List UInt8)
  | get (length : Nat)
  | answer (event : ConfigEvent) (isRequest : Bool)
  | foreign (event : ConfigEvent) (isRequest : Bool)
  | expired
  | disconnected

structure Session where
  outstanding : Option Nat
  shown : Shown
  requests : Nat
  deriving DecidableEq, Repr

def WellFormed (buffer : List UInt8) : Prop :=
  TRANSPORT_HEADER_SIZE ≤ buffer.length ∧ buffer.length ≤ REPORT_SIZE_USER_CONFIG ∧
    TRANSPORT_HEADER_SIZE + reportDataLen buffer ≤ buffer.length

instance (buffer : List UInt8) : Decidable (WellFormed buffer) := inferInstanceAs (Decidable (_ ∧ _))

def Session.step (t : Session) : Event → Session
  | .set buffer =>
    if t.outstanding = none ∧ WellFormed buffer then ⟨some t.requests, .pending, t.requests + 1⟩ else t
  | .get _ => t
  | .answer event isRequest =>
    if t.outstanding = some event.number then
      { t with
        outstanding := none
        shown := .response (if isRequest then Transport.unhandled event else event) }
    else t
  | .foreign _ _ => t
  | .expired =>
    { t with
      outstanding := none
      shown := .timeout }
  | .disconnected => { t with outstanding := none }

structure InFlight where
  event : ConfigEvent
  drops : Nat
  deriving DecidableEq, Repr

/-- The transport, what it has submitted and dropped, what has gone wrong, and the session that the same
events make. -/
structure State where
  transport : Transport
  inFlight : List InFlight
  requests : Nat
  drops : Nat
  faults : List Fault
  session : Session

def State.step (s : State) (e : Event) : State :=
  let s := { s with session := s.session.step e }
  match e with
  | .set buffer =>
    let result := s.transport.configChannelTransportSet buffer
    match result.event with
    | some event =>
      { s with
        transport := result.transport
        inFlight := s.inFlight ++ [⟨{ event with number := s.requests }, s.drops⟩]
        requests := s.requests + 1
        faults := s.faults ++ result.faults }
    | none =>
      { s with
        transport := result.transport
        faults := s.faults ++ result.faults }
  | .get length =>
    let result := s.transport.configChannelTransportGet length
    { s with
      transport := result.transport
      faults := s.faults ++ result.faults }
  | .answer event isRequest =>
    let result := s.transport.configChannelTransportRspReceive event isRequest
    { s with
      transport := result.transport
      inFlight := s.inFlight.filter fun r => r.event.number ≠ event.number
      faults := s.faults ++ result.faults }
  | .foreign event isRequest =>
    let result := s.transport.configChannelTransportRspReceive event isRequest
    { s with
      transport := result.transport
      faults := s.faults ++ result.faults }
  | .expired =>
    { s with
      transport := s.transport.timeoutFn.transport
      drops := s.drops + 1
      faults := s.faults ++ s.transport.timeoutFn.faults }
  | .disconnected =>
    let result := s.transport.configChannelTransportDisconnect
    { s with
      transport := result.transport
      drops := s.drops + (decide (s.transport.state = .waitRsp)).toNat
      faults := s.faults ++ result.faults }

/-- The state after `config_channel_transport_init`. -/
def State.init (transportIdBase : UInt8) : State where
  transport := configChannelTransportInit transportIdBase
  inFlight := []
  requests := 0
  drops := 0
  faults := []
  session := ⟨none, .pending, 0⟩

end SdkNrf.Desktop.ConfigTransport
