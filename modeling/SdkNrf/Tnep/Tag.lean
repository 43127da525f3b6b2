import SdkNrf.Framework.Reachable

/-!
# The TNEP tag device

The state machine of `subsys/nfc/tnep/tag.c` after the initial message has been created.
-/

namespace SdkNrf.Tnep

inductive StateName
  | disabled
  | serviceReady
  | serviceSelected
  deriving DecidableEq, Repr

/-- What `tnep_svc_select_from_msg` returns: a status, or the error of a message that is not parsed. -/
inductive SvcRecordStatus
  | notFound
  | selected
  | deselected
  | parseError
  deriving DecidableEq, Repr

/-- `struct nfc_tnep_tag_service_cb`, called for the service with the given number. -/
inductive Callback
  | selected (service : Nat)
  | deselected (service : Nat)
  | messageReceived (service : Nat)
  | errorDetected (service : Nat) (err : Int)
  deriving DecidableEq, Repr

/-- Calls of `nfc_tnep_tag_tx_msg_app_data`, with or without a message, and of
`nfc_tnep_tag_tx_msg_no_app_data`. -/
inductive Answer
  | appData (msg : Bool)
  | noAppData
  deriving DecidableEq, Repr

inductive Entry
  | called (callback : Callback)
  | accepted (svcActive : Option Nat)
  deriving DecidableEq, Repr

structure NdefRecord where
  type : List UInt8
  payload : List UInt8
  deriving DecidableEq, Repr

/-- The URIs of the services, and `CONFIG_NFC_TNEP_RX_MAX_RECORD_SIZE`. -/
structure Config where
  services : List (List UInt8)
  maxRecordSize : Nat

/-- `current_state`, the members of `struct tnep_tag` that change, and what has happened. -/
structure Tag where
  state : StateName
  svcActive : Option Nat
  appDataExpected : Bool
  log : List Entry
  deriving DecidableEq, Repr

/-- What surrounds an event: the answers of the application in its callbacks, the error of
`tnep_tx_initial_msg_set`, and the memory behind the buffer of a record. -/
structure Surroundings where
  app : Callback → List Answer
  initialErr : Int
  behind : Nat → UInt8

def EINVAL : Int := 22

def EACCES : Int := 13

def ENOTSUP : Int := 134

/-- `nfc_ndef_tnep_rec_type_svc_select`. -/
def recTypeSvcSelect : List UInt8 := [0x54, 0x73]

namespace Tag

def txMsg (t : Tag) : Except Int Tag :=
  if t.state ≠ .serviceSelected then .error (-EACCES)
  else if t.appDataExpected = false then .error (-EACCES)
  else .ok { t with appDataExpected := false, log := t.log ++ [.accepted t.svcActive] }

def txMsgAppData (t : Tag) (msg : Bool) : Except Int Tag :=
  if msg = false then .error (-EINVAL) else t.txMsg

def txMsgNoAppData (t : Tag) : Except Int Tag := t.txMsg

def result (t : Tag) : Answer → Except Int Tag
  | .appData msg => t.txMsgAppData msg
  | .noAppData => t.txMsgNoAppData

def answer (t : Tag) (a : Answer) : Tag :=
  match t.result a with
  | .ok t' => t'
  | .error _ => t

def call (env : Surroundings) (t : Tag) (c : Callback) : Tag :=
  (env.app c).foldl answer { t with log := t.log ++ [.called c] }

/-- `bin_rec`: a payload that is too long is not copied. -/
def binRec (cfg : Config) (env : Surroundings) (payload : List UInt8) (i : Nat) : UInt8 :=
  if i < cfg.maxRecordSize then
    if payload.length ≤ cfg.maxRecordSize then payload.getD i 0 else 0
  else env.behind (i - cfg.maxRecordSize)

def uriOf (cfg : Config) (env : Surroundings) (payload : List UInt8) : List UInt8 :=
  (List.range (binRec cfg env payload 0).toNat).map fun i => binRec cfg env payload (i + 1)

def svcSetActive (cfg : Config) (t : Tag) (uri : List UInt8) : Tag × SvcRecordStatus :=
  match cfg.services.findIdx? (· = uri) with
  | some i => ({ t with svcActive := some i }, .selected)
  | none => ({ t with svcActive := none }, .deselected)

/-- `tnep_svc_select_from_msg`: the first service select record decides. -/
def svcSelectFromMsg (cfg : Config) (env : Surroundings) (t : Tag) (msg : Option (List NdefRecord)) :
    Tag × SvcRecordStatus :=
  match msg with
  | none => (t, .parseError)
  | some records =>
    match records.find? fun r => r.type = recTypeSvcSelect with
    | none => (t, .notFound)
    | some r => t.svcSetActive cfg (uriOf cfg env r.payload)

def errorCheck (env : Surroundings) (t : Tag) (err : Int) : Tag :=
  if err = 0 then t
  else match t.svcActive with
    | some i => t.call env (.errorDetected i err)
    | none => t

def callActive (env : Surroundings) (t : Tag) (c : Nat → Callback) : Tag :=
  match t.svcActive with
  | some i => t.call env (c i)
  | none => t

def serviceReadyRxStatusProcess (env : Surroundings) (t : Tag) : SvcRecordStatus → Tag × Int
  | .selected =>
    (callActive env { t with appDataExpected := true, state := .serviceSelected } .selected, 0)
  | .notFound => (t, env.initialErr)
  | .deselected => (t, env.initialErr)
  | .parseError => (t, -ENOTSUP)

/-- `service_selected_rx_status_process`, with the service that was active before. -/
def serviceSelectedRxStatusProcess (env : Surroundings) (t : Tag) (service : Nat) :
    SvcRecordStatus → Tag × Int
  | .notFound => (callActive env { t with appDataExpected := true } .messageReceived, 0)
  | .selected =>
    let t := t.call env (.deselected service)
    (callActive env { t with appDataExpected := true } .selected, 0)
  | .deselected =>
    let t := t.call env (.deselected service)
    ({ t with appDataExpected := false, state := .serviceReady }, env.initialErr)
  | .parseError => (t, -ENOTSUP)

/-- A new message in `tnep_sm_service_ready`. -/
def serviceReadyRx (cfg : Config) (env : Surroundings) (t : Tag) (msg : Option (List NdefRecord)) :
    Tag :=
  let selection := t.svcSelectFromMsg cfg env msg
  let r := serviceReadyRxStatusProcess env selection.1 selection.2
  errorCheck env r.1 r.2

/-- A new message in `tnep_sm_service_selected`. -/
def serviceSelectedRx (cfg : Config) (env : Surroundings) (t : Tag)
    (msg : Option (List NdefRecord)) : Tag :=
  match t.svcActive with
  | none => t
  | some lastService =>
    let selection := t.svcSelectFromMsg cfg env msg
    let r := serviceSelectedRxStatusProcess env selection.1 lastService selection.2
    errorCheck env r.1 r.2

/-- The tag is selected in `tnep_sm_service_selected`. -/
def serviceSelectedTagSelected (env : Surroundings) (t : Tag) : Tag :=
  match t.svcActive with
  | none => t
  | some _ => errorCheck env { t with state := .serviceReady } env.initialErr

end Tag

/-- Received messages, if they are parsed with their records; the tag being selected; and answers
outside of callbacks. -/
inductive Event
  | msgRxNew (msg : Option (List NdefRecord)) (env : Surroundings)
  | tagSelected (env : Surroundings)
  | answer (a : Answer)

/-- `nfc_tnep_tag_process` for one signal, or an answer. -/
def Tag.step (cfg : Config) (t : Tag) : Event → Tag
  | .msgRxNew msg env =>
    match t.state with
    | .disabled => t
    | .serviceReady => t.serviceReadyRx cfg env msg
    | .serviceSelected => t.serviceSelectedRx cfg env msg
  | .tagSelected env =>
    match t.state with
    | .disabled => t
    | .serviceReady => t.errorCheck env env.initialErr
    | .serviceSelected => t.serviceSelectedTagSelected env
  | .answer a => t.answer a

/-- The state that `nfc_tnep_tag_initial_msg_create` leaves. -/
def Tag.init : Tag := ⟨.serviceReady, none, false, []⟩

end SdkNrf.Tnep
