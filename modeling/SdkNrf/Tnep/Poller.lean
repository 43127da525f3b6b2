import SdkNrf.Framework.Reachable

/-!
# The TNEP poller

The operations of `subsys/nfc/tnep/poller.c` and the results of reading and updating the NDEF file of the tag.
-/

namespace SdkNrf.TnepPoller

inductive State
  | idle
  | selecting
  | deselecting
  | reading
  | updating
  deriving DecidableEq, Repr

/-- `struct nfc_ndef_tnep_rec_svc_param`, as far as the poller reads it here. -/
structure SvcParam where
  communicationMode : UInt8
  maxTimeExt : UInt8
  maxSize : UInt16
  deriving DecidableEq, Repr

/-- `struct nfc_tnep_buf`; `data` says that it is not null. -/
structure Buf where
  data : Bool
  size : Nat
  deriving DecidableEq, Repr

structure NdefRecord where
  typeLength : Nat
  type : Nat → UInt8
  payload : List UInt8

/-- What is called of `struct nfc_tnep_poller_cb`, with the service, the status and the timeout. -/
inductive Call
  | svcSelected (param : Option Nat) (status : Option UInt8) (timeout : Bool)
  | svcReceived (param : Option Nat) (status : Option UInt8) (timeout : Bool)
  | svcSent (param : Option Nat) (status : Option UInt8) (timeout : Bool)
  | svcDeselected
  | error (err : Int)
  deriving DecidableEq, Repr

structure Config where
  param : Nat → SvcParam
  svcSelected : Bool
  svcReceived : Bool
  svcSent : Bool
  svcDeselected : Bool
  error : Bool

inductive InFlight
  | update
  | work
  | read
  deriving DecidableEq, Repr

/-- `struct tnep_poller`, with what it has asked for and the callbacks it has called. -/
structure Poller where
  state : State
  svcToSelect : Option Nat
  activeSvc : Option Nat
  retryCnt : Nat
  inFlight : Option InFlight
  calls : List Call
  deriving DecidableEq, Repr

/-- The results of `tnep_tag_update_prepare`, `ndef_update` and `k_delayed_work_submit`. -/
structure Surroundings where
  prepareErr : Int
  updateErr : Int
  submitErr : Int
  deriving DecidableEq, Repr

def EPERM : Int := 1

def EAGAIN : Int := 11

def ENOMEM : Int := 12

def EINVAL : Int := 22

def ENOTSUP : Int := 134

def NFC_TNEP_COMM_MODE_SINGLE_RESPONSE : UInt8 := 0

namespace Poller

def call (p : Poller) (given : Bool) (c : Call) : Poller :=
  if given then { p with calls := p.calls ++ [c] } else p

/-- `ndef_update` of the NDEF interface. -/
def ndefUpdate (env : Surroundings) (p : Poller) : Poller × Int :=
  if env.updateErr = 0 then ({ p with inFlight := some .update }, 0) else (p, env.updateErr)

def onSvcDelayedOperation (cfg : Config) (env : Surroundings) (p : Poller) : Poller :=
  if env.submitErr = 0 then { p with inFlight := some .work }
  else p.call cfg.error (.error env.submitErr)

/-- `tnep_delay_handler`, with the result of `ndef_read` of the NDEF interface. -/
def tnepDelayHandler (cfg : Config) (p : Poller) (readErr : Int) : Poller :=
  match p.state with
  | .selecting | .reading | .updating =>
    if readErr = 0 then { p with inFlight := some .read } else p.call cfg.error (.error readErr)
  | .idle | .deselecting => p.call cfg.error (.error (-EPERM))

def onNdefReadCb (cfg : Config) (p : Poller) (status : Option UInt8) (timeout : Bool) : Poller × Int :=
  match p.state with
  | .selecting => (p.call cfg.svcSelected (.svcSelected p.activeSvc status timeout), 0)
  | .reading => (p.call cfg.svcReceived (.svcReceived p.activeSvc status timeout), 0)
  | .updating => (p.call cfg.svcSent (.svcSent p.activeSvc status timeout), 0)
  | .idle | .deselecting => (p, -ENOTSUP)

def svcSelect (cfg : Config) (env : Surroundings) (p : Poller) (svcBuf : Option Buf) (svc : Option Nat)
    (maxNdefAreaSize : UInt32) : Poller × Int :=
  match svcBuf, svc with
  | some buf, some svc =>
    if buf.data = false then (p, -EINVAL)
    else if buf.size < 1 then (p, -ENOMEM)
    else
      let p := { p with state := .selecting }
      if some svc = p.activeSvc then (p.onSvcDelayedOperation cfg env, 0)
      else if (cfg.param svc).communicationMode ≠ NFC_TNEP_COMM_MODE_SINGLE_RESPONSE then (p, -ENOTSUP)
      else if maxNdefAreaSize.toNat < (cfg.param svc).maxSize.toNat then (p, -ENOMEM)
      else if env.prepareErr ≠ 0 then (p, env.prepareErr)
      else ndefUpdate env { p with svcToSelect := some svc }
  | _, _ => (p, -EINVAL)

def svcDeselect (env : Surroundings) (p : Poller) : Poller × Int :=
  if p.activeSvc = none then (p, 0)
  else if env.prepareErr ≠ 0 then (p, env.prepareErr)
  else ndefUpdate env { p with state := .deselecting }

def svcRead (cfg : Config) (env : Surroundings) (p : Poller) (svcBuf : Option Buf) : Poller × Int :=
  match svcBuf with
  | some buf =>
    if buf.data = false then (p, -EINVAL)
    else if buf.size < 1 then (p, -ENOMEM)
    else (onSvcDelayedOperation cfg env { p with state := .reading }, 0)
  | none => (p, -EINVAL)

/-- `nfc_tnep_poller_svc_write`; a message is given by the number of its records. -/
def svcWrite (env : Surroundings) (p : Poller) (msg : Option Nat) (respBuf : Option Buf) :
    Poller × Int :=
  match msg, respBuf with
  | some recordCount, some buf =>
    if recordCount < 1 then (p, -ENOMEM)
    else if buf.data = false then (p, -EINVAL)
    else if buf.size < 1 then (p, -ENOMEM)
    else
      let p := { p with state := .updating }
      if env.prepareErr ≠ 0 then (p, env.prepareErr) else ndefUpdate env p
  | _, _ => (p, -EINVAL)

/-- `status_record_check` for the type of a status record. -/
def statusRecordCheck (r : NdefRecord) : Bool :=
  r.typeLength ≠ 0 ∧ r.type 0 = 0x54 ∧ r.type 1 = 0x65

/-- `tnep_data_analyze`: the status, or the error, of the first status record. -/
def tnepDataAnalyze (records : List NdefRecord) : Except Int UInt8 :=
  match records.find? statusRecordCheck with
  | some r =>
    match r.payload with
    | [status] => .ok status
    | _ => .error (-EINVAL)
  | none => .error (-EAGAIN)

/-- `nfc_tnep_poller_on_ndef_read`, for an empty file, or the records or the error of the parser. The
result is `none` where the parameters of the active service are read and there is none. -/
def onNdefRead (cfg : Config) (env : Surroundings) (p : Poller)
    (data : Option (Except Int (List NdefRecord))) : Option (Poller × Int) :=
  match data with
  | none =>
    match p.activeSvc with
    | none => none
    | some svc =>
      if p.retryCnt < (cfg.param svc).maxTimeExt.toNat then
        some (onSvcDelayedOperation cfg env { p with retryCnt := p.retryCnt + 1 }, 0)
      else some (p.onNdefReadCb cfg none true)
  | some parsed =>
    let p := { p with retryCnt := 0 }
    match parsed.bind tnepDataAnalyze with
    | .error err => some (p, err)
    | .ok status => some (p.onNdefReadCb cfg (some status) false)

/-- `nfc_tnep_poller_on_ndef_write`; `none` where the parameters of no service are read. -/
def onNdefWrite (cfg : Config) (env : Surroundings) (p : Poller) : Option (Poller × Int) :=
  match p.state with
  | .selecting =>
    match p.svcToSelect with
    | none => none
    | some svc =>
      some (onSvcDelayedOperation cfg env { p with activeSvc := some svc, svcToSelect := none }, 0)
  | .deselecting =>
    some (({ p with activeSvc := none, state := .idle } : Poller).call cfg.svcDeselected
      .svcDeselected, 0)
  | .updating => some (p.onSvcDelayedOperation cfg env, 0)
  | .idle | .reading => some (p, -ENOTSUP)

end Poller

inductive Kind
  | select
  | read
  | write
  deriving DecidableEq, Repr

/-- The last select, read or write that was successful: what `retry_cnt` was and how many callbacks
had been called when it was started, and how often an empty file has been read since. -/
structure Operation where
  kind : Kind
  startRetry : Nat
  startCalls : Nat
  empties : Nat
  deriving DecidableEq, Repr

inductive Fault
  | nullActiveSvc
  | failureChanged
  deriving DecidableEq, Repr

structure Run where
  poller : Poller
  operation : Option Operation
  faults : List Fault
  deriving DecidableEq, Repr

inductive Event
  | svcSelect (svcBuf : Option Buf) (svc : Option Nat) (maxNdefAreaSize : UInt32) (env : Surroundings)
  | svcDeselect (env : Surroundings)
  | svcRead (svcBuf : Option Buf) (env : Surroundings)
  | svcWrite (msg : Option Nat) (respBuf : Option Buf) (env : Surroundings)
  | delayHandler (readErr : Int)
  | onNdefRead (data : Option (Except Int (List NdefRecord))) (env : Surroundings)
  | onNdefWrite (env : Surroundings)

namespace Run

def started (r : Run) (kind : Option Kind) (result : Poller × Int) : Run where
  poller := result.1
  operation :=
    if result.2 = 0 then kind.map fun k => ⟨k, r.poller.retryCnt, r.poller.calls.length, 0⟩
    else r.operation
  faults :=
    if result.2 = 0 ∨ result.1.state = r.poller.state ∧ result.1.activeSvc = r.poller.activeSvc then
      r.faults
    else r.faults ++ [.failureChanged]

def indicated (r : Run) (result : Option (Poller × Int)) : Run :=
  match result with
  | none => { r with faults := r.faults ++ [.nullActiveSvc] }
  | some result => { r with poller := result.1 }

def counted (r : Run) : Run :=
  { r with operation := r.operation.map fun op => { op with empties := op.empties + 1 } }

def answered (p : Poller) : Poller := { p with inFlight := none }

def step (cfg : Config) (r : Run) : Event → Run
  | .svcSelect svcBuf svc maxNdefAreaSize env =>
    r.started (some .select) (r.poller.svcSelect cfg env svcBuf svc maxNdefAreaSize)
  | .svcDeselect env => r.started none (r.poller.svcDeselect env)
  | .svcRead svcBuf env => r.started (some .read) (r.poller.svcRead cfg env svcBuf)
  | .svcWrite msg respBuf env => r.started (some .write) (r.poller.svcWrite env msg respBuf)
  | .delayHandler readErr => { r with poller := (answered r.poller).tnepDelayHandler cfg readErr }
  | .onNdefRead data env =>
    if data.isNone then r.counted.indicated ((answered r.poller).onNdefRead cfg env data)
    else r.indicated ((answered r.poller).onNdefRead cfg env data)
  | .onNdefWrite env => r.indicated ((answered r.poller).onNdefWrite cfg env)

/-- The state that `nfc_tnep_poller_init` leaves. -/
def init : Run := ⟨⟨.idle, none, none, 0, none, []⟩, none, []⟩

end Run

end SdkNrf.TnepPoller
