import SdkNrf.Framework.Reachable

/-!
# Forwarding of HID reports

The reports of peripherals and the subscribers they are forwarded to, as
`nrf_desktop/src/modules/hid_forward.c` does it on the dongle.
-/

namespace SdkNrf.Desktop.HidForward

def REPORT_ID_COUNT : Nat := 12

/-- `CONFIG_BT_MAX_CONN`, `CONFIG_USB_HID_DEVICE_COUNT` and `MAX_ENQUEUED_ITEMS`. -/
structure Config where
  maxConn : Nat
  deviceCount : Nat
  maxEnqueuedItems : Nat
  maxEnqueuedItems_pos : 0 < maxEnqueuedItems

/-- `struct hid_report_event`: the report id is the first byte of its data. The peripheral it is from and
its number in the order of arrival are recorded with it. -/
structure Report where
  subscriber : Option Nat
  reportId : Nat
  data : List UInt8
  peripheral : Nat
  number : Nat
  deriving DecidableEq, Repr

structure EnqueuedReports where
  list : List Report
  count : Nat
  deriving DecidableEq, Repr

structure Subscriber where
  id : Option Nat
  enabledReportsBm : BitVec 32
  busy : Bool
  lastPeripheralId : Nat
  deriving DecidableEq, Repr

/-- An assigned HIDS client: its connection, the address of its peripheral, and the ids and sizes of its
input reports. -/
structure Hidc where
  conn : Nat
  peripheral : Nat
  inputs : List (Nat × Nat)
  deriving DecidableEq, Repr

structure Peripheral where
  hidc : Option Hidc
  enqueuedReport : Nat → EnqueuedReports
  subId : Nat
  lastReportId : Nat

/-- Why a report is dropped: the queue was full with so many reports; its id was enabled or not, and the
system suspended or not; a subscription of a subscriber was disabled. -/
inductive Cause
  | full (length : Nat)
  | notEnabled (enabled : Bool) (suspended : Bool)
  | cleared (subscriber : Nat)
  deriving DecidableEq, Repr

inductive Entry
  | forwarded (r : Report)
  | dropped (r : Report) (cause : Cause)
  | confirmed (subscriber : Nat)
  | wakeUp
  deriving DecidableEq, Repr

structure Gone where
  peripheral : Nat
  subId : Nat
  inputs : List (Nat × Nat)
  deriving DecidableEq, Repr

/-- The state of the module; how many reports have arrived, what became of them, and which peripherals
have disconnected and have not come back. -/
structure State where
  subscribers : Nat → Subscriber
  peripheralAddress : Nat → Option Nat
  peripherals : Nat → Peripheral
  suspended : Bool
  arrivals : Nat
  log : List Entry
  gone : List Gone

namespace EnqueuedReports

/-- `enqueue_hid_report`; with the report that is dropped, if the queue is full. -/
def enqueueHidReport (maxItems : Nat) (q : EnqueuedReports) (r : Report) :
    EnqueuedReports × Option Report :=
  if q.count < maxItems then (⟨q.list ++ [r], q.count + 1⟩, none)
  else (⟨q.list.tail ++ [r], q.count⟩, q.list.head?)

end EnqueuedReports

def Subscriber.isReportEnabled (sub : Subscriber) (reportId : Nat) : Bool :=
  sub.enabledReportsBm.getLsbD reportId

namespace State

def setSubscriber (s : State) (i : Nat) (sub : Subscriber) : State :=
  { s with subscribers := Function.update s.subscribers i sub }

def setPeripheral (s : State) (i : Nat) (per : Peripheral) : State :=
  { s with peripherals := Function.update s.peripherals i per }

def record (s : State) (e : Entry) : State := { s with log := s.log ++ [e] }

def queue (s : State) (perId reportId : Nat) : EnqueuedReports :=
  (s.peripherals perId).enqueuedReport reportId

def setQueue (s : State) (perId reportId : Nat) (q : EnqueuedReports) : State :=
  s.setPeripheral perId { s.peripherals perId with
    enqueuedReport := Function.update (s.peripherals perId).enqueuedReport reportId q }

/-- `get_subscriber`. -/
def subscriberOf (s : State) (perId : Nat) : Subscriber := s.subscribers (s.peripherals perId).subId

def submit (s : State) (perId : Nat) (r : Report) : State :=
  let s := (s.record (.forwarded r)).setSubscriber (s.peripherals perId).subId
    { s.subscriberOf perId with busy := true }
  s.setPeripheral perId { s.peripherals perId with lastReportId := r.reportId }

def enqueue (cfg : Config) (s : State) (perId : Nat) (r : Report) : State :=
  let q := s.queue perId r.reportId
  let result := q.enqueueHidReport cfg.maxEnqueuedItems r
  let s := s.setQueue perId r.reportId result.1
  match result.2 with
  | some oldest => s.record (.dropped oldest (.full q.list.length))
  | none => s

/-- `forward_hid_report` for a peripheral with the given address. -/
def forwardHidReport (cfg : Config) (s : State) (perId peripheral reportId : Nat) (data : List UInt8) :
    State :=
  if 32 ≤ reportId then s
  else if REPORT_ID_COUNT < reportId then s
  else
    let sub := s.subscriberOf perId
    let q := s.queue perId reportId
    let r : Report := ⟨sub.id, reportId, data, peripheral, s.arrivals⟩
    let s := { s with arrivals := s.arrivals + 1 }
    if sub.isReportEnabled reportId = false ∧ s.suspended = false ∧ q.count = 0 then
      s.record (.dropped r (.notEnabled (sub.isReportEnabled reportId) s.suspended))
    else
      let s :=
        if sub.busy = false ∧ s.suspended = false ∧ q.count = 0 then s.submit perId r
        else s.enqueue cfg perId r
      if s.suspended then s.record .wakeUp else s

/-- The next queue in turn for a subscriber: peripherals behind the last one it got a report of, and the
report ids behind the last one of the peripheral. -/
def nextQueue (cfg : Config) (s : State) (i : Nat) : Option (Nat × Nat) :=
  (List.range cfg.maxConn).findSome? fun k =>
    let perId := ((s.subscribers i).lastPeripheralId + k + 1) % cfg.maxConn
    let per := s.peripherals perId
    if per.subId = i ∧ per.hidc.isSome then
      ((List.range REPORT_ID_COUNT).map fun j => (per.lastReportId + j + 1) % REPORT_ID_COUNT).findSome?
        fun reportId =>
          if (s.subscribers i).isReportEnabled reportId = true ∧ (s.queue perId reportId).list ≠ [] then
            some (perId, reportId)
          else none
    else none

def sendFirst (s : State) (i perId reportId : Nat) : State :=
  match (s.queue perId reportId).list with
  | [] => s
  | r :: rest =>
    let s := (s.setQueue perId reportId ⟨rest, (s.queue perId reportId).count - 1⟩).submit perId r
    s.setSubscriber i { s.subscribers i with lastPeripheralId := perId }

def sendEnqueuedReport (cfg : Config) (s : State) (i : Nat) : State :=
  if (s.subscribers i).busy then s
  else
    match s.nextQueue cfg i with
    | some (perId, reportId) => s.sendFirst i perId reportId
    | none => s

/-- All reports in the queues, in the order in which `clear_state` frees them. -/
def enqueued (cfg : Config) (s : State) : List Report :=
  (List.range cfg.maxConn).flatMap fun perId =>
    (List.range REPORT_ID_COUNT).flatMap fun reportId => (s.queue perId reportId).list

/-- `clear_state`, for a subscription of the given subscriber. -/
def clearState (cfg : Config) (s : State) (subscriber : Nat) : State :=
  { s with
    peripherals := fun perId =>
      if perId < cfg.maxConn then
        { s.peripherals perId with
          enqueuedReport := fun reportId =>
            if reportId < REPORT_ID_COUNT then
              EnqueuedReports.mk [] ((s.queue perId reportId).count - (s.queue perId reportId).list.length)
            else s.queue perId reportId }
      else s.peripherals perId
    log := s.log ++ (s.enqueued cfg).map fun r => .dropped r (.cleared subscriber) }

/-- The subscriber that `register_peripheral` routes an address to. -/
def route (cfg : Config) (s : State) (peripheral : Nat) : Option Nat :=
  if cfg.deviceCount = 1 then some 0
  else (List.range cfg.deviceCount).find? fun i =>
    s.peripheralAddress i = some peripheral ∨ s.peripheralAddress i = none

def freePeripheral (cfg : Config) (s : State) : Option Nat :=
  (List.range cfg.maxConn).find? fun perId => (s.peripherals perId).hidc.isNone

/-- `register_peripheral`; nothing is assigned on an error of `bt_gatt_hids_c_handles_assign`. -/
def registerPeripheral (cfg : Config) (s : State) (hidc : Hidc) (err : Int) : State :=
  match s.route cfg hidc.peripheral, s.freePeripheral cfg with
  | some subId, some perId =>
    let s := if cfg.deviceCount = 1 then s else
      { s with peripheralAddress := Function.update s.peripheralAddress subId (some hidc.peripheral) }
    let s := s.setPeripheral perId { s.peripherals perId with
      subId := subId
      hidc := if err = 0 then some hidc else none }
    if err = 0 then { s with gone := s.gone.filter fun g => g.peripheral ≠ hidc.peripheral } else s
  | _, _ => s

def emptyReport (size : Nat) : List UInt8 := List.replicate size 0

def disconnectPeripheral (cfg : Config) (s : State) (perId : Nat) (hidc : Hidc) : State :=
  let s := hidc.inputs.foldl (fun s input =>
    s.forwardHidReport cfg perId hidc.peripheral input.1 (emptyReport input.2)) s
  let g : Gone := ⟨hidc.peripheral, (s.peripherals perId).subId, hidc.inputs⟩
  let s := { s with gone := s.gone ++ [g] }
  s.setPeripheral perId { s.peripherals perId with hidc := none }

def disconnectMatching (cfg : Config) (conn : Nat) (s : State) (perId : Nat) : State :=
  match (s.peripherals perId).hidc with
  | some hidc => if hidc.conn = conn then s.disconnectPeripheral cfg perId hidc else s
  | none => s

/-- `PEER_STATE_DISCONNECTED`. -/
def peerDisconnected (cfg : Config) (s : State) (conn : Nat) : State :=
  (List.range cfg.maxConn).foldl (disconnectMatching cfg conn) s

def findSubscriber (cfg : Config) (s : State) (subscriber : Nat) : Option Nat :=
  (List.range cfg.deviceCount).find? fun i => (s.subscribers i).id = some subscriber

def attachSubscriber (cfg : Config) (s : State) (subscriber : Nat) : Option Nat :=
  match s.findSubscriber cfg subscriber with
  | some i => some i
  | none => ((List.range cfg.deviceCount).filter fun i => (s.subscribers i).id = none).getLast?

def reportSent (cfg : Config) (s : State) (subscriber : Nat) : State :=
  match s.findSubscriber cfg subscriber with
  | some i =>
    let s := (s.record (.confirmed subscriber)).setSubscriber i { s.subscribers i with busy := false }
    s.sendEnqueuedReport cfg i
  | none => s

/-- `hid_report_subscription_event`. -/
def subscription (cfg : Config) (s : State) (subscriber reportId : Nat) (enabled : Bool) : State :=
  match s.attachSubscriber cfg subscriber with
  | some i =>
    let sub := { s.subscribers i with id := some subscriber }
    if enabled then
      (s.setSubscriber i { sub with
        enabledReportsBm := sub.enabledReportsBm ||| BitVec.twoPow 32 reportId }).sendEnqueuedReport cfg i
    else
      (s.setSubscriber i { sub with
        enabledReportsBm := sub.enabledReportsBm &&& ~~~BitVec.twoPow 32 reportId }).clearState cfg subscriber
  | none => s

end State

inductive Event
  | report (perId reportId : Nat) (data : List UInt8)
  | reportSent (subscriber : Nat)
  | subscription (subscriber reportId : Nat) (enabled : Bool)
  | connected (hidc : Hidc) (err : Int)
  | disconnected (conn : Nat)
  | erased
  | powerDown
  | wakeUp

def State.step (cfg : Config) (s : State) : Event → State
  | .report perId reportId data =>
    match (s.peripherals perId).hidc with
    | some hidc => s.forwardHidReport cfg perId hidc.peripheral reportId data
    | none => s
  | .reportSent subscriber => s.reportSent cfg subscriber
  | .subscription subscriber reportId enabled => s.subscription cfg subscriber reportId enabled
  | .connected hidc err => s.registerPeripheral cfg hidc err
  | .disconnected conn => s.peerDisconnected cfg conn
  | .erased => { s with peripheralAddress := fun _ => none }
  | .powerDown => { s with suspended := true }
  | .wakeUp => { s with suspended := false }

/-- The state after `init`, with the addresses from the settings. -/
def State.init (addresses : Nat → Option Nat) : State where
  subscribers _ := ⟨none, 0, false, 0⟩
  peripheralAddress := addresses
  peripherals _ := ⟨none, fun _ => ⟨[], 0⟩, 0, 0⟩
  suspended := false
  arrivals := 0
  log := []
  gone := []

end SdkNrf.Desktop.HidForward
