import SdkNrf.Framework.Reachable

/-!
# Forwarding of configuration requests

The configuration channel of `nrf_desktop/src/modules/hid_forward.c`, with `config_channel_report_parse` and
`config_channel_report_fill` of `util/config_channel_transport.c`.
-/

namespace SdkNrf.Desktop.ConfigForward

def CFG_CHAN_MAX_RSP_POLL_CNT : Nat := 50

def CFG_CHAN_UNUSED_PEER_ID : UInt8 := 255

def CFG_CHAN_RECIPIENT_LOCAL : UInt8 := 0

def CFG_CHAN_BASE_ID : Nat := 1

def REPORT_SIZE_USER_CONFIG : Nat := 29

def TRANSPORT_HEADER_SIZE : Nat := 4

def CONFIG_CHANNEL_FETCHED_DATA_MAX_SIZE : Nat := 16

def HWID_LEN : Nat := 8

def EINVAL : Int := 22

def EMSGSIZE : Int := 122

def ENOTSUP : Int := 134

/-! The entries of `enum config_status` that the module uses. -/

def CONFIG_STATUS_PENDING : UInt8 := 0

def CONFIG_STATUS_INDEX_PEERS : UInt8 := 4

def CONFIG_STATUS_GET_PEER : UInt8 := 5

def CONFIG_STATUS_SET : UInt8 := 6

def CONFIG_STATUS_FETCH : UInt8 := 7

def CONFIG_STATUS_SUCCESS : UInt8 := 8

def CONFIG_STATUS_TIMEOUT : UInt8 := 9

def CONFIG_STATUS_REJECT : UInt8 := 10

def CONFIG_STATUS_WRITE_ERROR : UInt8 := 11

/-- `CONFIG_BT_MAX_CONN`, with the assertion of the build. -/
structure Config where
  maxConn : Nat
  maxConn_le : maxConn + CFG_CHAN_BASE_ID ≤ 255

/-- `struct config_event`; `dyndata.size` is the length of the data. A response has the number of its
request. -/
structure ConfigEvent where
  transportId : UInt16
  eventId : UInt8
  recipient : UInt8
  status : UInt8
  data : List UInt8
  number : Nat
  deriving DecidableEq, Repr

/-- What the HIDS client of a peripheral knows: its connection, whether it is ready, and whether it has the
output and the feature report of the configuration channel. -/
structure Hidc where
  conn : Nat
  ready : Bool
  hasOut : Bool
  hasFeature : Bool
  deriving DecidableEq, Repr

inductive Operation
  | write (number : Nat) (report : List UInt8)
  | read (number : Option Nat)
  deriving DecidableEq, Repr

/-- `struct hids_peripheral`, with the GATT operations that have not been completed. -/
structure Peripheral where
  hidc : Option Hidc
  readRsp : Bool
  cfgChanRsp : Option ConfigEvent
  cfgChanId : UInt8
  hwid : List UInt8
  curPollCnt : Nat
  inFlight : List Operation

inductive Fault
  | assertion
  | nullResponse
  | nullReport
  deriving DecidableEq, Repr

/-- The peripherals, and the next one of `handle_config_channel_peers_req`; the requests that the module
has taken, the responses and the reports it has read for requests, and what has gone wrong. -/
structure State where
  peripherals : Nat → Peripheral
  curPer : Nat
  requests : List ConfigEvent
  responses : List ConfigEvent
  reports : List (Nat × List UInt8)
  faults : List Fault

def assert (b : Bool) : List Fault := if b then [] else [.assertion]

def frameLengthCheck (length : Nat) : Int :=
  if length < TRANSPORT_HEADER_SIZE ∨ REPORT_SIZE_USER_CONFIG < length then -EMSGSIZE else 0

def dataLenCheck (length : Nat) : Int :=
  if REPORT_SIZE_USER_CONFIG - TRANSPORT_HEADER_SIZE < length then -EMSGSIZE else 0

structure Parsed where
  event : ConfigEvent
  pos : Int
  faults : List Fault
  deriving DecidableEq, Repr

def reportDataLen (buffer : List UInt8) : Nat := (buffer.getD 3 0).toNat

def reportData (buffer : List UInt8) : List UInt8 :=
  (buffer.drop TRANSPORT_HEADER_SIZE).take (reportDataLen buffer)

def configChannelReportParse (buffer : List UInt8) (length : Nat) (event : ConfigEvent) : Parsed :=
  if frameLengthCheck length ≠ 0 then ⟨event, frameLengthCheck length, []⟩
  else
    let event := { event with
      recipient := buffer.getD 0 0
      eventId := buffer.getD 1 0
      status := buffer.getD 2 0 }
    if dataLenCheck (reportDataLen buffer) ≠ 0 then ⟨event, dataLenCheck (reportDataLen buffer), []⟩
    else if length - TRANSPORT_HEADER_SIZE < reportDataLen buffer then ⟨event, -EMSGSIZE, []⟩
    else
      ⟨{ event with data := reportData buffer }, TRANSPORT_HEADER_SIZE + reportDataLen buffer,
        assert (reportDataLen buffer ≤ event.data.length)⟩

/-- `config_channel_report_fill`, with the bytes of the report that are written. -/
def configChannelReportFill (length : Nat) (event : ConfigEvent) : Except Int (List UInt8) :=
  if frameLengthCheck length ≠ 0 then .error (frameLengthCheck length)
  else if dataLenCheck event.data.length ≠ 0 then .error (dataLenCheck event.data.length)
  else .ok ([event.recipient, event.eventId, event.status, event.data.length.toUInt8] ++ event.data)

structure Outcome where
  peripheral : Peripheral
  responses : List ConfigEvent
  faults : List Fault

def ConfigEvent.generateResponse (event : ConfigEvent) (size : Nat) : ConfigEvent :=
  { event with data := List.replicate size 0 }

def ConfigEvent.nodataResponse (event : ConfigEvent) (status : UInt8) : ConfigEvent :=
  { event.generateResponse 0 with status := status }

namespace Peripheral

def submitForwardErrorRsp (per : Peripheral) (status : UInt8) : Outcome :=
  match per.cfgChanRsp with
  | some rsp =>
    ⟨{ per with cfgChanRsp := none }, [{ rsp with
        status := status
        data := [] }], []⟩
  | none => ⟨per, [], [.nullResponse]⟩

def hidcReadCfg (per : Peripheral) (err : UInt8) (data? : Option (List UInt8)) : Outcome :=
  if err ≠ 0 then per.submitForwardErrorRsp CONFIG_STATUS_WRITE_ERROR
  else
    match per.cfgChanRsp with
    | none => ⟨per, [], [.nullResponse]⟩
    | some rsp =>
      match data? with
      | none => ⟨per, [], [.nullReport]⟩
      | some data =>
        let parsed := configChannelReportParse data REPORT_SIZE_USER_CONFIG rsp
        let pos := if parsed.event.status ≠ CONFIG_STATUS_PENDING ∧
            parsed.event.status ≠ CONFIG_STATUS_TIMEOUT ∧
            parsed.event.recipient ≠ CFG_CHAN_RECIPIENT_LOCAL then -ENOTSUP else parsed.pos
        let event := { parsed.event with recipient := rsp.recipient }
        let faults := parsed.faults ++ assert (rsp.recipient = per.cfgChanId)
        let result : Outcome :=
          if pos < 0 then
            { per with cfgChanRsp := some { event with eventId := rsp.eventId } }.submitForwardErrorRsp
              CONFIG_STATUS_WRITE_ERROR
          else if event.status = CONFIG_STATUS_PENDING then
            let per := { per with
              cfgChanRsp := some { event with eventId := rsp.eventId }
              curPollCnt := (per.curPollCnt + 1) % 256 }
            if CFG_CHAN_MAX_RSP_POLL_CNT ≤ per.curPollCnt then
              per.submitForwardErrorRsp CONFIG_STATUS_WRITE_ERROR
            else ⟨{ per with readRsp := true }, [], []⟩
          else ⟨{ per with cfgChanRsp := none }, [event], []⟩
        { result with faults := faults ++ result.faults }

/-- `read_rsp_fn`, where `bt_gatt_hids_c_rep_read` returns `readErr` for a report that exists. -/
def readRspFn (per : Peripheral) (readErr : Int) : Outcome :=
  let per := { per with readRsp := false }
  let found := per.hidc.any (·.hasFeature)
  let err : Int := if found then readErr else -EINVAL
  let result : Outcome :=
    if err ≠ 0 then per.submitForwardErrorRsp CONFIG_STATUS_WRITE_ERROR
    else ⟨{ per with inFlight := per.inFlight ++ [.read (per.cfgChanRsp.map (·.number))] }, [], []⟩
  { result with faults := assert found ++ result.faults }

def hidcWriteCb (per : Peripheral) (err : UInt8) : Outcome :=
  if err ≠ 0 then per.submitForwardErrorRsp CONFIG_STATUS_WRITE_ERROR
  else
    match per.cfgChanRsp with
    | none => ⟨per, [], [.nullResponse]⟩
    | some rsp =>
      if rsp.status ≠ CONFIG_STATUS_SET then
        ⟨{ per with
          curPollCnt := 0
          readRsp := true }, [], []⟩
      else ⟨{ per with cfgChanRsp := none }, [{ rsp with status := CONFIG_STATUS_SUCCESS }],
          assert (rsp.data.length = 0)⟩

/-- The rest of `handle_config_event` for the recipient of a request, where the report is written with the
result `writeErr`. -/
def forward (per : Peripheral) (event : ConfigEvent) (writeErr : Int) : Outcome :=
  if per.cfgChanRsp.isSome then ⟨per, [event.nodataResponse CONFIG_STATUS_REJECT], []⟩
  else if ¬ per.hidc.any (·.ready) then ⟨per, [event.nodataResponse CONFIG_STATUS_REJECT], []⟩
  else if ¬ per.hidc.any (·.hasOut) ∧ ¬ per.hidc.any (·.hasFeature) then
    ⟨per, [event.nodataResponse CONFIG_STATUS_WRITE_ERROR], []⟩
  else if 255 < event.data.length then ⟨per, [event.nodataResponse CONFIG_STATUS_WRITE_ERROR], []⟩
  else
    -- the recipient is local for the peripheral
    match configChannelReportFill REPORT_SIZE_USER_CONFIG
        { event with recipient := CFG_CHAN_RECIPIENT_LOCAL } with
    | .error _ => ⟨per, [event.nodataResponse CONFIG_STATUS_WRITE_ERROR], []⟩
    | .ok report =>
      if writeErr ≠ 0 then ⟨per, [event.nodataResponse CONFIG_STATUS_WRITE_ERROR], []⟩
      else
        let size := if event.status = CONFIG_STATUS_SET then 0 else CONFIG_CHANNEL_FETCHED_DATA_MAX_SIZE
        ⟨{ per with
          cfgChanRsp := some (event.generateResponse size)
          inFlight := per.inFlight ++ [.write event.number report] }, [], []⟩

/-- The part of `disconnect_peripheral` for the configuration channel. -/
def disconnect (per : Peripheral) : Outcome :=
  let per := { per with
    hidc := none
    readRsp := false
    hwid := List.replicate HWID_LEN 0
    curPollCnt := 0
    cfgChanId := CFG_CHAN_UNUSED_PEER_ID }
  if per.cfgChanRsp.isSome then per.submitForwardErrorRsp CONFIG_STATUS_WRITE_ERROR else ⟨per, [], []⟩

/-- `rep_read_process` of `services/hids_c.c`, which does not pass on the error of a read. There is no
data then. -/
def repReadProcess (per : Peripheral) (err : UInt8) (data : List UInt8) : Outcome :=
  per.hidcReadCfg 0 (if err = 0 then some data else none)

def complete (per : Peripheral) (o : Operation) (err : UInt8) (data : List UInt8) : Outcome :=
  let per := { per with inFlight := per.inFlight.erase o }
  match o with
  | .write _ _ => per.hidcWriteCb err
  | .read _ => per.repReadProcess err data

end Peripheral

namespace State

def apply (s : State) (p : Nat) (o : Outcome) : State :=
  { s with
    peripherals := Function.update s.peripherals p o.peripheral
    responses := s.responses ++ o.responses
    faults := s.faults ++ o.faults }

def findPeripheral (cfg : Config) (s : State) (cfgChanId : UInt8) : Option Nat :=
  if cfgChanId = CFG_CHAN_UNUSED_PEER_ID then none
  else (List.range cfg.maxConn).find? fun p => (s.peripherals p).cfgChanId = cfgChanId

/-- `CONFIG_STATUS_INDEX_PEERS`. -/
def indexPeers (cfg : Config) (s : State) (event : ConfigEvent) : State :=
  { s with
    peripherals := fun p =>
      if p < cfg.maxConn ∧ (s.peripherals p).hidc.isSome then
        { s.peripherals p with cfgChanId := (CFG_CHAN_BASE_ID + p).toUInt8 }
      else s.peripherals p
    curPer := 0
    responses := s.responses ++ [event.nodataResponse CONFIG_STATUS_SUCCESS] }

/-- `CONFIG_STATUS_GET_PEER`; the bytes of the hardware id are not set where there is no further peer. -/
def getPeer (cfg : Config) (s : State) (event : ConfigEvent) : State :=
  let next := (List.range cfg.maxConn).find? fun p =>
    s.curPer ≤ p ∧ (s.peripherals p).cfgChanId ≠ CFG_CHAN_UNUSED_PEER_ID
  let data : List UInt8 := match next with
    | some p => (s.peripherals p).hwid ++ [(s.peripherals p).cfgChanId]
    | none => List.replicate HWID_LEN 0 ++ [CFG_CHAN_UNUSED_PEER_ID]
  { s with
    curPer := match next with
      | some p => p + 1
      | none => cfg.maxConn
    responses := s.responses ++ [{ event with
      status := CONFIG_STATUS_SUCCESS
      data := data }] }

/-- `handle_config_event` for a request. -/
def handleConfigEvent (cfg : Config) (s : State) (event : ConfigEvent) (writeErr : Int) : State :=
  let event := { event with number := s.requests.length }
  let taken := { s with requests := s.requests ++ [event] }
  if event.recipient = CFG_CHAN_RECIPIENT_LOCAL ∧ event.status = CONFIG_STATUS_INDEX_PEERS then
    taken.indexPeers cfg event
  else if event.recipient = CFG_CHAN_RECIPIENT_LOCAL ∧ event.status = CONFIG_STATUS_GET_PEER then
    taken.getPeer cfg event
  else
    match s.findPeripheral cfg event.recipient with
    | some p => taken.apply p ((s.peripherals p).forward event writeErr)
    | none => s

def readFor (s : State) (p : Nat) (o : Operation) (err : UInt8) (data : List UInt8) :
    List (Nat × List UInt8) :=
  match o, (s.peripherals p).cfgChanRsp with
  | .read _, some rsp => if err = 0 then [(rsp.number, data)] else []
  | _, _ => []

def freePeripheral (cfg : Config) (s : State) : Option Nat :=
  (List.range cfg.maxConn).find? fun p => (s.peripherals p).hidc.isNone

/-- `register_peripheral`; nothing is assigned on an error of `bt_gatt_hids_c_handles_assign`. -/
def registerPeripheral (cfg : Config) (s : State) (hidc : Hidc) (hwid : List UInt8) (err : Int) : State :=
  match s.freePeripheral cfg with
  | some p =>
    { s with peripherals := Function.update s.peripherals p { s.peripherals p with
        hwid := hwid
        hidc := if err = 0 then some hidc else none } }
  | none => s

def disconnectMatching (conn : Nat) (s : State) (p : Nat) : State :=
  if (s.peripherals p).hidc.any (·.conn = conn) then s.apply p (s.peripherals p).disconnect else s

end State

inductive Event
  | request (event : ConfigEvent) (writeErr : Int)
  | completed (p : Nat) (o : Operation) (err : UInt8) (data : List UInt8)
  | expired (p : Nat) (readErr : Int)
  | connected (hidc : Hidc) (hwid : List UInt8) (err : Int)
  | ready (p : Nat)
  | disconnected (conn : Nat)

def State.step (cfg : Config) (s : State) : Event → State
  | .request event writeErr => s.handleConfigEvent cfg event writeErr
  | .completed p o err data =>
    { s.apply p ((s.peripherals p).complete o err data) with
      reports := s.reports ++ s.readFor p o err data }
  | .expired p readErr => s.apply p ((s.peripherals p).readRspFn readErr)
  | .connected hidc hwid err => s.registerPeripheral cfg hidc hwid err
  | .ready p =>
    { s with peripherals := Function.update s.peripherals p { s.peripherals p with
        hidc := (s.peripherals p).hidc.map fun hidc => { hidc with ready := true } } }
  | .disconnected conn => (List.range cfg.maxConn).foldl (State.disconnectMatching conn) s

/-- The state after `init`. -/
def State.init : State where
  peripherals _ := ⟨none, false, none, CFG_CHAN_UNUSED_PEER_ID, List.replicate HWID_LEN 0, 0, []⟩
  curPer := 0
  requests := []
  responses := []
  reports := []
  faults := []

end SdkNrf.Desktop.ConfigForward
