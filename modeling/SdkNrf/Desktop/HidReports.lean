import SdkNrf.Desktop.HidEventq
import SdkNrf.Desktop.MouseReports

/-!
# Input reports and their subscribers

What `hid_state.c` keeps for each input report and for each subscriber, and what its event handlers
do with it.
-/

namespace SdkNrf.Desktop.HidReports

open SdkNrf.Desktop.HidState

/-- The input reports of `enum report_id`. -/
inductive ReportId
  | MOUSE
  | KEYBOARD_KEYS
  | SYSTEM_CTRL
  | CONSUMER_CTRL
  | BOOT_MOUSE
  | BOOT_KEYBOARD
  deriving DecidableEq, Repr

def ReportId.code : ReportId → UInt8
  | .MOUSE => 1
  | .KEYBOARD_KEYS => 2
  | .SYSTEM_CTRL => 3
  | .CONSUMER_CTRL => 4
  | .BOOT_MOUSE => 10
  | .BOOT_KEYBOARD => 11

/-- The report with the report data, as `connect` selects it. -/
def ReportId.dataId : ReportId → ReportId
  | .BOOT_MOUSE => .MOUSE
  | .BOOT_KEYBOARD => .KEYBOARD_KEYS
  | r => r

/-- `struct hid_keymap`. -/
structure HidKeymap where
  keyId : UInt16
  usageId : UInt16
  reportId : ReportId
  deriving DecidableEq, Repr

/-- The configuration: the number of subscribers, the input reports in the order of `init`, the keymap, and
the expiration and the size of the event queues. -/
structure Config where
  subscriberCount : Nat
  reports : List ReportId
  hidKeymap : List HidKeymap
  expiration : UInt32
  queueSize : Nat

inductive State
  | DISCONNECTED
  | CONNECTED_IDLE
  | CONNECTED_BUSY
  deriving DecidableEq, Repr

/-- `struct axis_data` of the mouse. -/
structure AxisData where
  x : Int
  y : Int
  wheel : Int
  deriving DecidableEq, Repr

structure ReportData where
  items : Items
  eventq : Eventq
  axes : AxisData
  updateNeeded : Bool
  linkedRs : Option (Nat × ReportId)

structure ReportState where
  state : State
  cnt : Nat
  reportId : Option ReportId
  subscriber : Option Nat
  linkedRd : Option ReportId
  deriving DecidableEq, Repr

structure Subscriber where
  id : Option Nat
  isUsb : Bool
  reportMax : Nat
  reportCnt : Nat
  state : ReportId → ReportState

/-- `struct hid_report_event`. -/
structure HidReportEvent where
  subscriber : Option Nat
  reportId : ReportId
  data : List UInt8
  deriving DecidableEq, Repr

/-- `struct hid_state`, and the reports that are submitted while an event is handled. -/
structure HidState where
  reportData : ReportId → ReportData
  subscriber : Nat → Subscriber
  selected : Option Nat
  submitted : List HidReportEvent

/-- The loop of `eventq_reset`. -/
def resetFrom : Nat → NodeList UInt32 ItemEvent → Option UInt32 → Option (NodeList UInt32 ItemEvent)
  | 0, _, _ => none
  | _ + 1, root, none => some root
  | fuel + 1, root, some event =>
    (root.peekNext event).bind fun tmp =>
      ((root.removeFirst event).bind (·.free event)).bind fun root => resetFrom fuel root tmp

def eventqReset (eventq : Eventq) : Option Eventq :=
  (resetFrom (fuelOf eventq.root) eventq.root eventq.root.root.head?).map fun root =>
    ⟨{ root with root := [] }, 0⟩

def eventqIsFull (queueSize : Nat) (eventq : Eventq) : Bool := queueSize ≤ eventq.len

def eventqIsEmpty (eventq : Eventq) : Option Bool :=
  if eventq.root.root.isEmpty = decide (eventq.len = 0) then some eventq.root.root.isEmpty else none

/-- `eventq_get`: the node and the queue without it. -/
def eventqGet (eventq : Eventq) : Option (Option UInt32 × Eventq) :=
  match eventq.root.root with
  | [] => some (none, eventq)
  | node :: _ => (eventq.root.removeFirst node).map fun root => (some node, ⟨root, eventq.len - 1⟩)

/-- `eventq_append`, with the address that `k_malloc` returns. -/
def eventqAppend (eventq : Eventq) (hidEvent : Option UInt32) (usageId : UInt16) (value : Int16)
    (timestamp : UInt32) : Eventq :=
  match hidEvent with
  | none => eventq
  | some node =>
    ⟨⟨eventq.root.root ++ [node],
      Function.update eventq.root.memory node (some ⟨⟨usageId, value⟩, timestamp⟩)⟩, eventq.len + 1⟩

def clearReportData (rd : ReportData) : Option ReportData :=
  (eventqReset rd.eventq).map fun eventq =>
    { rd with axes := ⟨0, 0, 0⟩, items := clearItems rd.items, eventq := eventq, updateNeeded := false }

/-- The loop of `update_report`: until an item is changed. -/
def updateFrom : Nat → ReportData → Option (ReportData × Bool)
  | 0, _ => none
  | fuel + 1, rd =>
    (eventqIsEmpty rd.eventq).bind fun empty =>
      if empty then some (rd, false)
      else (eventqGet rd.eventq).bind fun (node, eventq) =>
        node.bind fun node =>
          (eventq.root.memory node).bind fun event =>
            (keyValueSet rd.items event.item.usageId event.item.value).bind fun (items, updateNeeded) =>
              (eventq.root.free node).bind fun root =>
                let rd := { rd with
                  items := items
                  eventq := ⟨root, eventq.len⟩
                  updateNeeded := rd.updateNeeded || updateNeeded }
                if updateNeeded then some (rd, true) else updateFrom fuel rd

def updateReport (rd : ReportData) : Option (ReportData × Bool) :=
  (updateFrom (fuelOf rd.eventq.root) rd).map fun (rd, updateNeeded) =>
    (rd, updateNeeded || rd.updateNeeded)

def KEYBOARD_REPORT_LAST_KEY : UInt16 := 0x65

def KEYBOARD_REPORT_FIRST_MODIFIER : UInt16 := 0xE0

def KEYBOARD_REPORT_LAST_MODIFIER : UInt16 := 0xE7

def KEYBOARD_REPORT_KEY_COUNT_MAX : Nat := 6

/-- The loop of `send_report_keyboard`: the modifiers and the keys, from the end of the table. -/
def keysFrom : List Item → UInt8 → List UInt8 → Option (UInt8 × List UInt8)
  | [], modifierBm, keys => some (modifierBm, keys)
  | item :: rest, modifierBm, keys =>
    if KEYBOARD_REPORT_KEY_COUNT_MAX ≤ keys.length ∨ item.usageId = 0 then some (modifierBm, keys)
    else if item.value ≤ 0 then none
    else if item.usageId ≤ KEYBOARD_REPORT_LAST_KEY then
      keysFrom rest modifierBm (keys ++ [item.usageId.toUInt8])
    else if KEYBOARD_REPORT_FIRST_MODIFIER ≤ item.usageId ∧ item.usageId ≤ KEYBOARD_REPORT_LAST_MODIFIER then
      keysFrom rest
        (modifierBm ||| UInt8.ofNat (2 ^ (item.usageId - KEYBOARD_REPORT_FIRST_MODIFIER).toNat)) keys
    else keysFrom rest modifierBm keys

def sendReportKeyboard (reportId : ReportId) (rd : ReportData) : Option (ReportData × List UInt8) :=
  (keysFrom rd.items.item.reverse 0 []).map fun (modifierBm, keys) =>
    ({ rd with updateNeeded := false }, reportId.code :: modifierBm :: 0 ::
      (keys ++ List.replicate (KEYBOARD_REPORT_KEY_COUNT_MAX - keys.length) 0))

def ButtonsFit (item : List Item) : Prop :=
  ∀ it ∈ item, it.usageId ≠ 0 → it.usageId ≤ 8 ∧ 0 < it.value

instance (item : List Item) : Decidable (ButtonsFit item) :=
  inferInstanceAs (Decidable (∀ it ∈ item, it.usageId ≠ 0 → it.usageId ≤ 8 ∧ 0 < it.value))

def ReportData.mouse (rd : ReportData) : HidState.ReportData :=
  ⟨rd.items.item, rd.axes.x, rd.axes.y, rd.axes.wheel, rd.updateNeeded⟩

def sendMouse (send : HidState.ReportData → HidState.ReportData × Report) (rd : ReportData) :
    Option (ReportData × List UInt8) :=
  if ButtonsFit rd.items.item then
    let sent := send rd.mouse
    let data := match sent.2 with
      | .mouse data => data
      | .bootMouse data => data
    some ({ rd with
      axes := ⟨sent.1.x, sent.1.y, sent.1.wheel⟩
      updateNeeded := sent.1.updateNeeded }, data)
  else none

/-- `send_report_ctrl`: the last item of the table. -/
def sendReportCtrl (reportId : ReportId) (rd : ReportData) : Option (ReportData × List UInt8) :=
  rd.items.item.getLast?.map fun item =>
    ({ rd with updateNeeded := false },
      [reportId.code, UInt8.ofNat item.usageId.toNat, UInt8.ofNat (item.usageId.toNat / 256)])

/-- The cases of the `switch` in `report_send`. -/
def sendData (rd : ReportData) : ReportId → Option (ReportData × List UInt8)
  | .KEYBOARD_KEYS => sendReportKeyboard .KEYBOARD_KEYS rd
  | .MOUSE => sendMouse sendReportMouse rd
  | .SYSTEM_CTRL => sendReportCtrl .SYSTEM_CTRL rd
  | .CONSUMER_CTRL => sendReportCtrl .CONSUMER_CTRL rd
  | .BOOT_KEYBOARD => sendReportKeyboard .BOOT_KEYBOARD rd
  | .BOOT_MOUSE => sendMouse sendReportBootMouse rd

def sendReport (subscriber : Option Nat) (rd : ReportData) (reportId : Option ReportId) :
    Option (ReportData × HidReportEvent) :=
  reportId.bind fun r => (sendData rd r).map fun (rd, data) => (rd, ⟨subscriber, r, data⟩)

/-- The loop of `report_send`: the report data and the reports, while neither the report nor the subscriber
has all reports in flight that it may have. -/
def sendFrom (subscriber : Option Nat) (reportId : Option ReportId) (pipelineDepth reportMax : Nat)
    (sendAlways : Bool) : Nat → ReportData → Nat → Nat → Option (ReportData × List HidReportEvent)
  | 0, _, _, _ => none
  | fuel + 1, rd, cnt, reportCnt =>
    if cnt < pipelineDepth ∧ reportCnt < reportMax then
      (updateReport rd).bind fun (rd, updateNeeded) =>
        if updateNeeded || sendAlways then
          (sendReport subscriber rd reportId).bind fun (rd, event) =>
            if cnt < 255 then
              (sendFrom subscriber reportId pipelineDepth reportMax sendAlways fuel rd (cnt + 1)
                (reportCnt + 1)).map fun (rd, rest) => (rd, event :: rest)
            else none
        else some (rd, [])
    else some (rd, [])

/-- What a cleared `struct report_state` is. -/
def clearedState : ReportState := ⟨.DISCONNECTED, 0, none, none, none⟩

/-- What a cleared `struct subscriber` is. -/
def clearedSubscriber : Subscriber := ⟨none, false, 0, 0, fun _ => clearedState⟩

namespace HidState

@[simps subscriber selected submitted]
def setRd (s : HidState) (d : ReportId) (rd : ReportData) : HidState :=
  { s with reportData := Function.update s.reportData d rd }

@[simps reportData selected submitted]
def setSubscriber (s : HidState) (i : Nat) (subscriber : Subscriber) : HidState :=
  { s with subscriber := Function.update s.subscriber i subscriber }

def rs (s : HidState) (i : Nat) (r : ReportId) : ReportState := (s.subscriber i).state r

def setRs (s : HidState) (i : Nat) (r : ReportId) (rs : ReportState) : HidState :=
  s.setSubscriber i { s.subscriber i with state := Function.update (s.subscriber i).state r rs }

@[simps]
def submit (s : HidState) (reports : List HidReportEvent) : HidState :=
  { s with submitted := s.submitted ++ reports }

end HidState

section Code

variable (cfg : Config)

def Config.dataIds : List ReportId := cfg.reports.filter fun r => r.dataId = r

def getSubscriber (s : HidState) (subscriberId : Nat) : Option Nat :=
  (List.range cfg.subscriberCount).find? fun i => (s.subscriber i).id = some subscriberId

def getSubscriberByType (s : HidState) (isUsb : Bool) : Option Nat :=
  (List.range cfg.subscriberCount).find? fun i =>
    (s.subscriber i).id.isSome ∧ (s.subscriber i).isUsb = isUsb

def pipelineDepth (isUsb : Bool) (reportId : Option ReportId) : Nat :=
  if isUsb ∨ reportId = some .CONSUMER_CTRL ∨ reportId = some .SYSTEM_CTRL then 1 else 2

/-- `report_send`: also whether a report is sent. -/
def reportSend (s : HidState) (d : ReportId) (checkState sendAlways : Bool) : Option (HidState × Bool) :=
  match (s.reportData d).linkedRs with
  | none => some (s, false)
  | some (i, r) =>
    if (s.rs i r).subscriber ≠ s.selected then none
    else s.selected.bind fun j =>
      if checkState ∧ (s.rs i r).state = .DISCONNECTED then some (s, false)
      else
        (sendFrom (s.subscriber j).id (s.rs i r).reportId
          (pipelineDepth (s.subscriber j).isUsb (s.rs i r).reportId) (s.subscriber j).reportMax sendAlways 3
          (s.reportData d) (s.rs i r).cnt (s.subscriber j).reportCnt).map fun (rd, reports) =>
            let cnt := (s.rs i r).cnt + reports.length
            let s' := (s.setRd d rd).setSubscriber j
              { s.subscriber j with reportCnt := (s.subscriber j).reportCnt + reports.length }
            ((s'.setRs i r { s.rs i r with
                cnt := cnt
                state := if cnt ≠ 0 then .CONNECTED_BUSY else (s.rs i r).state }).submit reports,
              !reports.isEmpty)

/-- The loop of `report_issued`: the first of these report states with a report to send. -/
def pickFrom (i : Nat) : List ReportId → HidState → Option HidState
  | [], s => some s
  | next :: rest, s =>
    if (s.rs i next).state = .DISCONNECTED then pickFrom i rest s
    else (s.rs i next).linkedRd.bind fun d =>
      if (s.reportData d).linkedRs = some (i, next) ∧ (s.rs i next).cnt = 0 then
        if s.selected = some i then
          (reportSend s d false false).bind fun (s, sent) => if sent then some s else pickFrom i rest s
        else none
      else pickFrom i rest s

/-- Which report states `report_issued` tries, the report's own one last. -/
def candidates (r : ReportId) (subscriberUnblocked : Bool) : List ReportId :=
  if subscriberUnblocked then
    cfg.reports.drop (cfg.reports.idxOf r + 1) ++ cfg.reports.take (cfg.reports.idxOf r + 1)
  else [r]

def reportIssued (s : HidState) (subscriberId : Nat) (r : ReportId) (error : Bool) : Option HidState :=
  match getSubscriber cfg s subscriberId with
  | none => some s
  | some i =>
    let subscriberUnblocked := decide ((s.subscriber i).reportCnt = (s.subscriber i).reportMax)
    let s := s.setSubscriber i
      { s.subscriber i with reportCnt := ((s.subscriber i).reportCnt + 255) % 256 }
    if r ∉ cfg.reports then none
    else if (s.rs i r).state = .DISCONNECTED then pickFrom i (candidates cfg r subscriberUnblocked) s
    else if (s.rs i r).cnt = 0 then none
    else
      let s := s.setRs i r { s.rs i r with
        cnt := (s.rs i r).cnt - 1
        state := if (s.rs i r).cnt - 1 = 0 then .CONNECTED_IDLE else (s.rs i r).state }
      if error then
        (s.rs i r).linkedRd.bind fun d =>
          if (s.reportData d).linkedRs = some (i, r) then (clearReportData (s.reportData d)).map (s.setRd d)
          else pickFrom i (candidates cfg r subscriberUnblocked) s
      else pickFrom i (candidates cfg r subscriberUnblocked) s

/-- `get_report_data`: the assertion on the report. -/
def getReportData (s : HidState) (d : ReportId) : Option ReportData :=
  if d ∈ cfg.dataIds then some (s.reportData d) else none

def connect (s : HidState) (subscriberId : Nat) (r : ReportId) (now : UInt32) : Option HidState :=
  match getSubscriber cfg s subscriberId with
  | none => some s
  | some i =>
    if r ∉ cfg.reports then none
    else
      (getReportData cfg s r.dataId).bind fun rd =>
        let s := s.setRs i r
          { s.rs i r with
            subscriber := some i
            state := .CONNECTED_IDLE
            reportId := some r
            linkedRd := some r.dataId }
        if s.selected = some i then
          (eventqIsEmpty rd.eventq).bind fun empty =>
            (if empty then some rd.eventq else eventqCleanup cfg.expiration rd.eventq now).bind fun eventq =>
              (reportSend (s.setRd r.dataId { rd with
                linkedRs := some (i, r)
                eventq := eventq
                axes := ⟨0, 0, 0⟩ }) r.dataId false true).map Prod.fst
        else some s

def disconnect (s : HidState) (subscriberId : Nat) (r : ReportId) : Option HidState :=
  match getSubscriber cfg s subscriberId with
  | none => some s
  | some i =>
    if r ∉ cfg.reports then none
    else (s.rs i r).linkedRd.bind fun d =>
      (if (s.reportData d).linkedRs = some (i, r) then
        (clearReportData { s.reportData d with linkedRs := none }).map (s.setRd d)
      else some s).map fun s =>
        s.setRs i r { s.rs i r with subscriber := none, state := .DISCONNECTED, cnt := 0, linkedRd := none }

/-- The loop of `connect_subscriber`: no report data has a report state any more. -/
def unlinkAll : List ReportId → HidState → Option HidState
  | [], s => some s
  | d :: rest, s =>
    (clearReportData { s.reportData d with linkedRs := none }).bind fun rd => unlinkAll rest (s.setRd d rd)

def connectSubscriber (s : HidState) (subscriberId : Nat) (isUsb : Bool) (reportMax : Nat) :
    Option HidState :=
  match (List.range cfg.subscriberCount).find? fun i => (s.subscriber i).id = none with
  | none => some s
  | some i =>
    let s := s.setSubscriber i { s.subscriber i with
      id := some subscriberId
      isUsb := isUsb
      reportMax := reportMax
      reportCnt := 0 }
    (if s.selected.isSome ∧ isUsb then
      (unlinkAll cfg.dataIds s).map fun s => { s with selected := none }
    else some s).map fun s => if s.selected = none then { s with selected := some i } else s

/-- The loop of `disconnect_subscriber` over the report states of the subscriber that leaves. -/
def unlinkFrom (i : Nat) : List ReportId → HidState → Option HidState
  | [], s => some s
  | r :: rest, s =>
    match (s.rs i r).linkedRd with
    | none => unlinkFrom i rest s
    | some d =>
      if (s.rs i r).reportId.isSome ∧ (s.reportData d).linkedRs = some (i, r) then
        (clearReportData (s.reportData d)).bind fun rd =>
          unlinkFrom i rest (s.setRd d { rd with linkedRs := none })
      else none

/-- The loop of `disconnect_subscriber` over the report states of the subscriber that is selected next. -/
def routeFrom (j : Nat) : List ReportId → HidState → Option HidState
  | [], s => some s
  | r :: rest, s =>
    match (s.rs j r).linkedRd with
    | none => routeFrom j rest s
    | some d =>
      (reportSend (s.setRd d { s.reportData d with linkedRs := some (j, r) }) d true true).bind
        fun (s, _) => routeFrom j rest s

def disconnectSubscriber (s : HidState) (subscriberId : Nat) : Option HidState :=
  match getSubscriber cfg s subscriberId with
  | none => some s
  | some i =>
    (if s.selected = some i then unlinkFrom i cfg.reports s else some s).bind fun s =>
      let s := s.setSubscriber i clearedSubscriber
      if s.selected = some i then
        let s := { s with selected := (getSubscriberByType cfg s true).or (getSubscriberByType cfg s false) }
        match s.selected with
        | none => some s
        | some j => routeFrom j cfg.reports s
      else some s

/-- The loop of `enqueue` over the queue of a report that is not connected. -/
def makeRoomFrom : Nat → Eventq → Option UInt32 → Option Eventq
  | 0, _, _ => none
  | _ + 1, eventq, none => some eventq
  | fuel + 1, eventq, some i =>
    (eventq.root.memory i).bind fun event =>
      (eventqCleanup cfg.expiration eventq (event.timestamp + cfg.expiration)).bind fun eventq =>
        if eventqIsFull cfg.queueSize eventq then
          (eventq.root.peekNext i).bind (makeRoomFrom fuel eventq)
        else some eventq

def enqueue (rd : ReportData) (usageId : UInt16) (value : Int16) (connected : Bool) (now : UInt32)
    (hidEvent : Option UInt32) : Option ReportData :=
  (eventqCleanup cfg.expiration rd.eventq now).bind fun eventq =>
    (if eventqIsFull cfg.queueSize eventq ∧ connected = false then
      makeRoomFrom cfg (fuelOf eventq.root) eventq eventq.root.root.head?
    else some eventq).bind fun eventq =>
      (if eventqIsFull cfg.queueSize eventq then clearReportData { rd with eventq := eventq }
      else some { rd with eventq := eventq }).map fun rd =>
        { rd with eventq := eventqAppend rd.eventq hidEvent usageId value now }

def isConnected (s : HidState) (rd : ReportData) : Bool :=
  match rd.linkedRs with
  | none => false
  | some (i, r) => (s.rs i r).state ≠ .DISCONNECTED

def updateKey (s : HidState) (map : HidKeymap) (value : Int16) (now : UInt32) (hidEvent : Option UInt32) :
    Option HidState :=
  (getReportData cfg s map.reportId).bind fun rd =>
    (if isConnected s rd then eventqIsEmpty rd.eventq else some false).bind fun direct =>
      if direct then
        (keyValueSet rd.items map.usageId value).bind fun (items, updated) =>
          if updated then
            (reportSend (s.setRd map.reportId { rd with items := items, updateNeeded := true })
              map.reportId false true).map Prod.fst
          else some (s.setRd map.reportId { rd with items := items })
      else
        (enqueue cfg rd map.usageId value (isConnected s rd) now hidEvent).map (s.setRd map.reportId)

def hidKeymapGet (keyId : UInt16) : Option HidKeymap :=
  (searchByKey (fun map : HidKeymap => map.keyId.toNat) cfg.hidKeymap keyId.toNat).bind (cfg.hidKeymap[·]?)

def handleButtonEvent (s : HidState) (keyId : UInt16) (pressed : Bool) (now : UInt32)
    (hidEvent : Option UInt32) : Option HidState :=
  match hidKeymapGet cfg keyId with
  | none => some s
  | some map =>
    if map.usageId = 0 then some s
    else updateKey cfg s map (if pressed then 1 else -1) now hidEvent

def handleAxes (s : HidState) (move : AxisData → AxisData) : Option HidState :=
  if .MOUSE ∈ cfg.reports then
    (reportSend (s.setRd .MOUSE { s.reportData .MOUSE with
      axes := move (s.reportData .MOUSE).axes
      updateNeeded := true }) .MOUSE true true).map Prod.fst
  else some s

def handleMotionEvent (s : HidState) (dx dy : Int) : Option HidState :=
  handleAxes cfg s fun axes => { axes with x := toSigned 16 (axes.x + dx), y := toSigned 16 (axes.y + dy) }

def handleWheelEvent (s : HidState) (wheel : Int) : Option HidState :=
  handleAxes cfg s fun axes => { axes with wheel := toSigned 16 (axes.wheel + wheel) }

/-- The events that the module subscribes to. A button event carries what `k_malloc` would return. -/
inductive Event
  | motion (dx dy : Int)
  | wheel (wheel : Int)
  | button (keyId : UInt16) (pressed : Bool) (hidEvent : Option UInt32)
  | reportSent (subscriber : Nat) (reportId : ReportId) (error : Bool)
  | subscription (subscriber : Nat) (reportId : ReportId) (enabled : Bool)
  | blePeer (id : Nat) (connected : Bool)
  | usbHid (id : Nat) (enabled : Bool)

/-- `event_handler`, at the time `now`. -/
def eventHandler (s : HidState) (now : UInt32) : Event → Option HidState
  | .motion dx dy => handleMotionEvent cfg s dx dy
  | .wheel wheel => handleWheelEvent cfg s wheel
  | .button keyId pressed hidEvent => handleButtonEvent cfg s keyId pressed now hidEvent
  | .reportSent subscriber reportId error => reportIssued cfg s subscriber reportId error
  | .subscription subscriber reportId true => connect cfg s subscriber reportId now
  | .subscription subscriber reportId false => disconnect cfg s subscriber reportId
  | .blePeer id true => connectSubscriber cfg s id false 255
  | .blePeer id false => disconnectSubscriber cfg s id
  | .usbHid id true =>
    if (getSubscriberByType cfg s true).isSome then some s else connectSubscriber cfg s id true 1
  | .usbHid id false => disconnectSubscriber cfg s id

end Code

end SdkNrf.Desktop.HidReports
