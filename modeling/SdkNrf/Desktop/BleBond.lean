import SdkNrf.Framework.Reachable

/-!
# Bonds of a Bluetooth peripheral

The peers of a peripheral, the local identities they are bonded to and the operations of its user on them, as
`nrf_desktop/src/modules/ble_bond.c` keeps them.
-/

namespace SdkNrf.Desktop.BleBond

def BT_ID_DEFAULT : Nat := 0

def CONFIRM_TIMEOUT : Nat := 10000

def ERASE_ADV_TIMEOUT : Nat := 30000

def ON_START_CLICK_UPTIME_MAX : Nat := 6000

def BLE_BOND_OPT_PEER_ERASE : Nat := 0

/-- The options of the module. There is at least one peer besides the temporary and the dongle one, and
an identity more than there are peers; identities fit in a byte. -/
structure Config where
  maxPaired : Nat
  idMax : Nat
  useDefaultId : Bool
  peerControl : Bool
  peerControlButton : Nat
  peerSelect : Bool
  peerErase : Bool
  peerEraseOnStart : Bool
  donglePeerEnable : Bool
  donglePeerSelectorId : Nat
  donglePeerSelectorPos : Nat
  enablePasskey : Bool
  peers : (if donglePeerEnable then 2 else 1) < maxPaired
  identities : maxPaired < idMax
  idMax_le : idMax ≤ 256

namespace Config

variable (cfg : Config)

def tempPeerId : Nat := cfg.maxPaired - 1

def donglePeerId : Nat := if cfg.donglePeerEnable then cfg.tempPeerId - 1 else cfg.tempPeerId

def eraseAdvNewConnTimeoutMs : Nat := if cfg.enablePasskey then 30000 else 5000

end Config

/-- `enum state`. -/
inductive BondState
  | disabled | idle | erasePeer | eraseAdv | selectPeer | dongleConn | dongleConnStandby | standby
  | standbyDisabled
  deriving DecidableEq, Repr

/-- `enum click`. -/
inductive Click
  | none | short | long | double
  deriving DecidableEq, Repr

/-- `enum peer_state`. -/
inductive PeerState
  | disconnected | disconnecting | connected | secured | connFailed
  deriving DecidableEq, Repr

/-- `enum peer_operation`. -/
inductive PeerOperation
  | select | selected | scanRequest | erase | eraseAdv | eraseAdvCancel | erased | cancel
  deriving DecidableEq, Repr

inductive ModuleState
  | ready | off
  deriving DecidableEq, Repr

inductive Entry
  | idReset (id : Nat)
  | unpaired (id : Nat)
  | disconnect (id : Nat)
  | operation (op : PeerOperation) (btAppId btStackId : Nat)
  | moduleState (state : ModuleState)
  deriving DecidableEq, Repr

inductive Fault
  | swapBtStackPeerId | nextPeerId | selectDonglePeer | dongleStackId | selectBlePeers | timeoutHandler
  | selector | powerDown | wakeUp | settingsReady | uninitializedWork
  deriving DecidableEq, Repr

structure Storage where
  peerId : Option (List Nat)
  btLut : Option (List Nat)
  deriving DecidableEq, Repr

/-- The state of the module. The timeout work has the delay it was last submitted with, if it is pending,
and whether it has been initialized. It is recorded whether the settings have been loaded since the last
start, what the module has done, and which assertions have failed. -/
structure State where
  state : BondState
  curPeerId : Nat
  curPeerIdValid : Bool
  tmpPeerId : Nat
  donglePeerSelectedOnInit : Bool
  eraseAdvWasExtended : Bool
  btStackIdLut : List Nat
  btStackIdLutValid : Bool
  timeout : Option Nat
  timeoutInit : Bool
  storage : Storage
  loaded : Bool
  log : List Entry
  faults : List Fault
  deriving DecidableEq, Repr

namespace State

def assert (s : State) (fault : Fault) (p : Prop) [Decidable p] : State :=
  if p then s else { s with faults := s.faults ++ [fault] }

def record (s : State) (e : Entry) : State := { s with log := s.log ++ [e] }

def submitTimeout (s : State) (delay : Nat) : State :=
  { s.assert .uninitializedWork s.timeoutInit with timeout := some delay }

def cancelTimeout (s : State) : State := { s with timeout := none }

variable (cfg : Config)

def getBtStackPeerId (s : State) (id : Nat) : Nat :=
  if s.state = .erasePeer ∨ s.state = .eraseAdv then s.btStackIdLut.getD cfg.tempPeerId 0
  else s.btStackIdLut.getD id 0

def submitOperation (s : State) (op : PeerOperation) (id : Nat) : State :=
  s.record (.operation op id (s.getBtStackPeerId cfg id))

def storeBtStackIdLut (s : State) : State :=
  { s with storage := { s.storage with btLut := some s.btStackIdLut } }

def storePeerId (s : State) : State :=
  { s with storage := { s.storage with peerId := some [s.curPeerId] } }

def leaveDefaultId (s : State) : State :=
  if cfg.useDefaultId ∧ s.btStackIdLut.getD 0 0 = BT_ID_DEFAULT ∧ s.curPeerId = 0 then
    { s.record (.unpaired BT_ID_DEFAULT) with btStackIdLut := s.btStackIdLut.set 0 1 }
  else s

def swapBtStackPeerId (s : State) : State :=
  let s := s.assert .swapBtStackPeerId (s.state = BondState.eraseAdv)
  let s := s.leaveDefaultId cfg
  let temp := s.btStackIdLut.getD cfg.tempPeerId 0
  let lut := s.btStackIdLut.set cfg.tempPeerId (s.btStackIdLut.getD s.curPeerId 0)
  { s with btStackIdLut := lut.set s.curPeerId temp }.storeBtStackIdLut

def cancelOperation (s : State) : State :=
  let op := if s.state = .eraseAdv then .eraseAdvCancel else .cancel
  let s := { s.cancelTimeout with state := .idle }
  s.submitOperation cfg op s.curPeerId

/-- `next_peer_id`, with whether its assertion holds. -/
def nextPeerId (id : Nat) : Nat × Bool :=
  if cfg.donglePeerId ≤ id + 1 then (0, id + 1 = cfg.donglePeerId) else (id + 1, true)

def selectPeer (s : State) (id : Nat) : State :=
  let next := nextPeerId cfg id
  let s := { s.assert .nextPeerId next.2 with tmpPeerId := next.1 }
  s.submitOperation cfg .select s.tmpPeerId

def selectStart (s : State) : State := s.selectPeer cfg s.curPeerId

def selectNext (s : State) : State := s.selectPeer cfg s.tmpPeerId

def selectConfirm (s : State) : State :=
  if s.tmpPeerId ≠ s.curPeerId then
    let s := { s with curPeerId := s.tmpPeerId }.storePeerId
    s.submitOperation cfg .selected s.curPeerId
  else s.submitOperation cfg .cancel s.curPeerId

def eraseStart (s : State) : State := s.submitOperation cfg .erase s.curPeerId

def eraseAdvConfirm (s : State) : State :=
  let s := { s with state := if s.state = BondState.idle then .erasePeer else s.state }
  let s := s.record (.idReset (s.getBtStackPeerId cfg s.curPeerId))
  { s with eraseAdvWasExtended := false }.submitOperation cfg .eraseAdv s.curPeerId

def selectDonglePeer (s : State) : State :=
  let s :=
    if s.state = .idle then { s with state := .dongleConn }
    else { s.assert .selectDonglePeer (s.state = BondState.standby) with state := .dongleConnStandby }
  let s := s.assert .dongleStackId (s.getBtStackPeerId cfg cfg.donglePeerId = cfg.donglePeerId + 1)
  s.submitOperation cfg .selected cfg.donglePeerId

def selectBlePeers (s : State) : State :=
  let s := match s.state with
    | .dongleConn => { s with state := .idle }
    | .dongleConnStandby => { s with state := .standby }
    | _ => s.assert .selectBlePeers (s.state = BondState.standby ∨ s.state = BondState.idle)
  s.submitOperation cfg .selected s.curPeerId

end State

/-- `struct state_switch`; a click on start is one of its own. -/
structure StateSwitch where
  state : BondState
  click : Click
  onStart : Bool
  nextState : BondState
  func : State → State

/-- `state_switch` of a peripheral. -/
def stateSwitch (cfg : Config) : List StateSwitch :=
  (if cfg.peerSelect then
    [⟨.idle, .short, false, .selectPeer, State.selectStart cfg⟩,
      ⟨.selectPeer, .short, false, .selectPeer, State.selectNext cfg⟩,
      ⟨.selectPeer, .double, false, .idle, State.selectConfirm cfg⟩]
  else []) ++
  (if cfg.peerErase then
    [⟨.idle, .long, false, .erasePeer, State.eraseStart cfg⟩,
      ⟨.erasePeer, .double, false, .eraseAdv, State.eraseAdvConfirm cfg⟩]
  else []) ++
  (if cfg.peerEraseOnStart then [⟨.idle, .long, true, .eraseAdv, State.eraseAdvConfirm cfg⟩] else [])

def BondState.operating (state : BondState) : Bool :=
  state = .erasePeer ∨ state = .eraseAdv ∨ state = .selectPeer

namespace State

variable (cfg : Config)

/-- An entry of `state_switch` is carried out. -/
def switch (s : State) (entry : StateSwitch) : State :=
  let s := { entry.func s with state := entry.nextState }
  if s.state ≠ .idle then
    s.submitTimeout (if s.state = .eraseAdv then ERASE_ADV_TIMEOUT else CONFIRM_TIMEOUT)
  else s.cancelTimeout

def handleClick (s : State) (click : Click) (onStart : Bool) : State :=
  let found := (stateSwitch cfg).find? fun entry =>
    click ≠ .none ∧ entry.state = s.state ∧ entry.click = click ∧ entry.onStart = onStart
  match found with
  | some entry => s.switch entry
  | none => if s.state.operating then s.cancelOperation cfg else s

def clickEventHandler (s : State) (keyId : Nat) (click : Click) (uptime : Nat) : State :=
  if keyId ≠ cfg.peerControlButton then s
  else if s.state = .disabled then s
  else s.handleClick cfg click (uptime < ON_START_CLICK_UPTIME_MAX ∧ click = .long)

def timeoutHandler (s : State) : State :=
  (s.assert .timeoutHandler s.state.operating).cancelOperation cfg

def initBtStackIdLut (s : State) : State :=
  let lut := (List.range cfg.maxPaired).map (· + 1)
  { s with btStackIdLut := if cfg.useDefaultId then lut.set 0 BT_ID_DEFAULT else lut }

/-- `settings_set` for the record of the peer id, if there is one. -/
def settingsSetPeerId (s : State) : State :=
  match s.storage.peerId with
  | some [id] => { s with curPeerId := id, curPeerIdValid := true }
  | some _ => { s with curPeerIdValid := false }
  | none => s

/-- `settings_set` for the record of the identities, if there is one. -/
def settingsSetBtLut (s : State) : State :=
  match s.storage.btLut with
  | some lut =>
    if lut.length = cfg.maxPaired then { s with btStackIdLut := lut, btStackIdLutValid := true }
    else { s with btStackIdLutValid := false }
  | none => s

def storageDataIsValid (s : State) : Bool :=
  s.btStackIdLutValid ∧ s.curPeerIdValid ∧ s.curPeerId < cfg.donglePeerId ∧
    ∀ id ∈ s.btStackIdLut, id < cfg.idMax

def storageDataOverwrite (s : State) : State :=
  let s := { s with curPeerId := 0 }.initBtStackIdLut cfg
  let s := s.storePeerId.storeBtStackIdLut.record (.unpaired BT_ID_DEFAULT)
  { s with log := s.log ++ (List.range' 1 (cfg.idMax - 1)).map .idReset }

def init (s : State) : State :=
  let s := { s with state := if s.state = BondState.disabled then .idle else .standby }
  let s := if cfg.peerControl then { s with timeoutInit := true } else s
  let s :=
    if s.storageDataIsValid cfg then s
    else { s.storageDataOverwrite cfg with btStackIdLutValid := true, curPeerIdValid := true }
  if s.donglePeerSelectedOnInit then s.selectDonglePeer cfg else s.selectBlePeers cfg

def settingsReady (s : State) : State :=
  let s := { (s.settingsSetPeerId.settingsSetBtLut cfg) with loaded := true }
  let s := s.assert .settingsReady (s.state = BondState.disabled ∨ s.state = BondState.standbyDisabled)
  let s := (s.init cfg).record (.moduleState .ready)
  if s.state = .standby then s.record (.moduleState .off) else s

/-- `ble_peer_event_handler`; with the identity of the connection and the time that remains until the
timeout. -/
def blePeerEventHandler (s : State) (peerState : PeerState) (identity remaining : Nat) : State :=
  if s.state ≠ .eraseAdv then s
  else match peerState with
    | .connected =>
      if remaining < cfg.eraseAdvNewConnTimeoutMs ∧ s.eraseAdvWasExtended = false then
        { s.submitTimeout cfg.eraseAdvNewConnTimeoutMs with eraseAdvWasExtended := true }
      else s
    | .secured =>
      if identity ≠ s.getBtStackPeerId cfg s.curPeerId then s.record (.disconnect identity)
      else
        let s := { s.swapBtStackPeerId cfg with state := .idle }
        (s.submitOperation cfg .erased s.curPeerId).cancelTimeout
    | _ => s

def selectorEventHandler (s : State) (selectorId position : Nat) : State :=
  if selectorId ≠ cfg.donglePeerSelectorId then s
  else if position = cfg.donglePeerSelectorPos then
    match s.state with
    | .disabled => { s with donglePeerSelectedOnInit := true }
    | .dongleConn | .dongleConnStandby => s
    | .erasePeer | .eraseAdv | .selectPeer => (s.cancelOperation cfg).selectDonglePeer cfg
    | .idle | .standby => s.selectDonglePeer cfg
    | .standbyDisabled => s.assert .selector False
  else
    match s.state with
    | .disabled => { s with donglePeerSelectedOnInit := false }
    | .idle | .standby => s
    | .erasePeer | .eraseAdv | .selectPeer => (s.cancelOperation cfg).selectBlePeers cfg
    | .dongleConn | .dongleConnStandby => s.selectBlePeers cfg
    | .standbyDisabled => s.assert .selector False

/-- `config_set`: the other options only log warnings on a peripheral. -/
def configSet (s : State) (optId : Nat) : State :=
  if s.state ≠ .idle then s
  else if optId = BLE_BOND_OPT_PEER_ERASE then
    { s.eraseAdvConfirm cfg with state := .eraseAdv }.submitTimeout ERASE_ADV_TIMEOUT
  else s

def handlePowerDownEvent (s : State) : State :=
  match s.state with
  | .disabled => { s with state := .standbyDisabled }
  | .erasePeer | .eraseAdv | .selectPeer =>
    { s.cancelOperation cfg with state := .standby }.record (.moduleState .off)
  | .idle => { s with state := .standby }.record (.moduleState .off)
  | .dongleConn => { s with state := .dongleConnStandby }.record (.moduleState .off)
  | .standby | .dongleConnStandby => s
  | .standbyDisabled => s.assert .powerDown False

def handleWakeUpEvent (s : State) : State :=
  match s.state with
  | .standbyDisabled => { s with state := .disabled }
  | .standby => { s with state := .idle }.record (.moduleState .ready)
  | .dongleConnStandby => { s with state := .dongleConn }.record (.moduleState .ready)
  | _ => s.assert .wakeUp False

def boot (storage : Storage) : State :=
  ⟨.disabled, 0, false, 0, false, false, List.replicate cfg.maxPaired 0, false, none, false, storage, false,
    [], []⟩

def reboot (s : State) : State := { boot cfg s.storage with log := s.log, faults := s.faults }

end State

/-- What happens to the module. Of a peer there is the identity of its connection and the time that
remains until the timeout, of a click the uptime. -/
inductive Event
  | settingsReady
  | blePeer (state : PeerState) (identity remaining : Nat)
  | click (keyId : Nat) (click : Click) (uptime : Nat)
  | selector (selectorId position : Nat)
  | configSet (optId : Nat)
  | configFetch (optId : Nat)
  | powerDown
  | wakeUp
  | timeout
  | reboot
  deriving DecidableEq, Repr

/-- `event_handler`: clicks and selectors are subscribed to only if they are configured. -/
def State.step (cfg : Config) (s : State) : Event → State
  | .settingsReady => s.settingsReady cfg
  | .blePeer state identity remaining => s.blePeerEventHandler cfg state identity remaining
  | .click keyId click uptime => if cfg.peerControl then s.clickEventHandler cfg keyId click uptime else s
  | .selector selectorId position =>
    if cfg.donglePeerEnable then s.selectorEventHandler cfg selectorId position else s
  | .configSet optId => s.configSet cfg optId
  | .configFetch _ => s
  | .powerDown => s.handlePowerDownEvent cfg
  | .wakeUp => s.handleWakeUpEvent
  | .timeout => { s with timeout := none }.timeoutHandler cfg
  | .reboot => s.reboot cfg

/-- What the rest of the system guarantees: the settings are loaded once after a start, and the timeout
work runs only while it is pending. -/
def InOrder (s : State) : Event → Prop
  | .settingsReady => s.loaded = false
  | .timeout => s.timeout.isSome
  | _ => True

/-- The branches that fail are not taken: the system is not powered down twice, nor the selector moved,
before the settings are loaded; it is woken up only if it is down; and peers are erased on request only
if the work for it is initialized. -/
def Served (cfg : Config) (s : State) : Event → Prop
  | .selector selectorId _ =>
    cfg.donglePeerEnable → selectorId = cfg.donglePeerSelectorId → s.state ≠ .standbyDisabled
  | .configSet optId => optId = BLE_BOND_OPT_PEER_ERASE → s.state = .idle → cfg.peerControl
  | .powerDown => s.state ≠ .standbyDisabled
  | .wakeUp => s.state = .standbyDisabled ∨ s.state = .standby ∨ s.state = .dongleConnStandby
  | _ => True

instance (s : State) (e : Event) : Decidable (InOrder s e) := by
  cases e <;> unfold InOrder <;> infer_instance

instance (cfg : Config) (s : State) (e : Event) : Decidable (Served cfg s e) := by
  cases e <;> unfold Served <;> infer_instance

def Rejected (cfg : Config) (storage : Storage) : Prop :=
  ((State.boot cfg storage).settingsSetPeerId.settingsSetBtLut cfg).storageDataIsValid cfg = false

namespace State

variable (cfg : Config)

def identity (s : State) : Nat := s.btStackIdLut.getD s.curPeerId 0

def tempIdentity (s : State) : Nat := s.btStackIdLut.getD cfg.tempPeerId 0

def erasing (s : State) : Bool := s.state = .erasePeer ∨ s.state = .eraseAdv

end State

def FreshlyReset (log : List Entry) (peer id : Nat) : Prop :=
  ∃ earlier later, log = earlier ++ [.idReset id, .operation .eraseAdv peer id] ++ later ∧
    ∀ e ∈ later, ∃ other, e = .disconnect other

def Completes (cfg : Config) (s : State) (e : Event) : Prop :=
  s.state = .eraseAdv ∧ ∃ remaining, e = .blePeer .secured (s.tempIdentity cfg) remaining

structure BondRight (cfg : Config) (s : State) : Prop where
  faults : s.faults = []
  pending : s.timeout.isSome = s.state.operating
  length : s.loaded → s.btStackIdLut.length = cfg.maxPaired
  nodup : s.loaded → s.btStackIdLut.Nodup
  lt_idMax : s.loaded → ∀ id ∈ s.btStackIdLut, id < cfg.idMax
  dongle : s.loaded → cfg.donglePeerEnable → s.btStackIdLut[cfg.donglePeerId]? = some (cfg.donglePeerId + 1)
  curPeerId : s.loaded → s.curPeerId < cfg.donglePeerId
  stored : s.loaded → s.storage = ⟨some [s.curPeerId], some s.btStackIdLut⟩
  reset : ∀ id, .idReset id ∈ s.log → BT_ID_DEFAULT < id ∧ id < cfg.idMax

/-- The specification of a step of an erase: it keeps the identity of the current peer, or it completes
the erase and gives it the freshly reset one. -/
structure EraseRight (cfg : Config) (s : State) (e : Event) (s' : State) : Prop where
  kept : ¬ Completes cfg s e → s.erasing ∨ s'.erasing →
    s'.storage = s.storage ∧ (e ≠ .reboot → s'.curPeerId = s.curPeerId ∧ s'.identity = s.identity)
  completed : Completes cfg s e → s'.state = .idle ∧ s'.curPeerId = s.curPeerId ∧
    s'.identity = s.tempIdentity cfg ∧ s'.identity ≠ s.identity ∧
    FreshlyReset s.log s.curPeerId s'.identity ∧
    s'.log.getLast? = some (.operation .erased s.curPeerId s'.identity)

end SdkNrf.Desktop.BleBond
