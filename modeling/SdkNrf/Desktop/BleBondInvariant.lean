import SdkNrf.Desktop.BleBond

/-!
# What every run keeps of the bonds

The table of identities stays injective, with the identity of the dongle in its place, and the settings follow
the memory.
-/

namespace SdkNrf.Desktop.BleBond

variable {cfg : Config}

namespace Config

theorem peerIds (cfg : Config) :
    0 < cfg.donglePeerId ∧ cfg.donglePeerId ≤ cfg.tempPeerId ∧ cfg.tempPeerId + 1 = cfg.maxPaired ∧
      (cfg.donglePeerEnable = true → cfg.donglePeerId < cfg.tempPeerId) := by
  have hpeers := cfg.peers
  unfold donglePeerId tempPeerId
  split_ifs at hpeers ⊢ with hdongle <;> simp [hdongle] <;> omega

theorem idMax_pos (cfg : Config) : 2 < cfg.idMax := by
  have hidentities := cfg.identities
  have hids := cfg.peerIds
  omega

end Config

structure Table (cfg : Config) (lut : List Nat) : Prop where
  length : lut.length = cfg.maxPaired
  nodup : lut.Nodup
  lt_idMax : ∀ id ∈ lut, id < cfg.idMax
  dongle : cfg.donglePeerEnable = true → lut[cfg.donglePeerId]? = some (cfg.donglePeerId + 1)
  default : 0 ∈ lut → cfg.useDefaultId = true ∧ lut[0]? = some 0 ∧ 1 ∉ lut

namespace Table

variable {lut : List Nat} {i j : Nat}

theorem temp_lt (h : Table cfg lut) : cfg.tempPeerId < lut.length := by
  have hids := cfg.peerIds
  have hlength := h.length
  omega

theorem getD_mem (hi : i < lut.length) : lut.getD i 0 ∈ lut := by
  simp [hi]

theorem pos_of_ne_zero (h : Table cfg lut) (hi : i < lut.length) (hpos : i ≠ 0) :
    0 < lut.getD i 0 := by
  apply Nat.pos_of_ne_zero
  intro hzero
  have hget : lut[i]? = some 0 := by simpa [hi] using hzero
  obtain ⟨-, hfirst, -⟩ := h.default (List.mem_of_getElem? hget)
  exact hpos ((List.getElem?_inj hi h.nodup).mp (hget.trans hfirst.symm))

theorem swap (h : Table cfg lut) (hi : i < lut.length) (hj : j < lut.length)
    (hdongle : cfg.donglePeerEnable = true → i ≠ cfg.donglePeerId ∧ j ≠ cfg.donglePeerId)
    (hzero : 0 ∈ lut → i ≠ 0 ∧ j ≠ 0) :
    Table cfg ((lut.set j (lut.getD i 0)).set i (lut.getD j 0)) := by
  have hperm : ((lut.set j (lut.getD i 0)).set i (lut.getD j 0)).Perm lut := by
    simpa [hi, hj] using List.set_set_perm hj hi
  constructor
  case length => simpa using h.length
  case nodup => exact hperm.nodup_iff.mpr h.nodup
  case lt_idMax => exact fun id hid => h.lt_idMax id (hperm.mem_iff.mp hid)
  case dongle =>
    intro henable
    obtain ⟨hi', hj'⟩ := hdongle henable
    rw [List.getElem?_set_ne hi', List.getElem?_set_ne hj']
    exact h.dongle henable
  case default =>
    intro hmem
    have hmem := hperm.mem_iff.mp hmem
    obtain ⟨hi', hj'⟩ := hzero hmem
    rw [List.getElem?_set_ne hi', List.getElem?_set_ne hj', hperm.mem_iff]
    exact h.default hmem

theorem leave (h : Table cfg lut) (hfirst : lut.getD 0 0 = 0) :
    Table cfg (lut.set 0 1) ∧ 0 ∉ lut.set 0 1 := by
  have hids := cfg.peerIds
  cases lut with
  | nil =>
    have hlength := h.length
    simp at hlength
    omega
  | cons id lut =>
    obtain rfl : id = 0 := hfirst
    obtain ⟨hdefault, -, hone⟩ := h.default List.mem_cons_self
    obtain ⟨hzero, hnodup⟩ := List.nodup_cons.mp h.nodup
    have hone := fun hmem => hone (List.mem_cons_of_mem 0 hmem)
    have hzero' : 0 ∉ (0 :: lut).set 0 1 := by simpa using hzero
    refine ⟨⟨by simpa using h.length, List.nodup_cons.mpr ⟨hone, hnodup⟩, ?_, ?_,
      fun hmem => absurd hmem hzero'⟩, hzero'⟩
    · have hmax := cfg.idMax_pos
      intro id hid
      rcases List.mem_cons.mp hid with rfl | hid
      · omega
      · exact h.lt_idMax id (List.mem_cons_of_mem 0 hid)
    · intro henable
      rw [List.getElem?_set_ne (by omega)]
      exact h.dongle henable

end Table

theorem table_cons {first : Nat} (hfirst : first < 2)
    (hdefault : first = 0 → cfg.useDefaultId = true) :
    Table cfg (first :: (List.range cfg.tempPeerId).map (· + 2)) := by
  have hids := cfg.peerIds
  have hidentities := cfg.identities
  have htail : ∀ id ∈ (List.range cfg.tempPeerId).map (· + 2), 2 ≤ id ∧ id < cfg.idMax := by
    intro id hid
    simp at hid
    omega
  constructor
  case length =>
    simp
    omega
  case nodup =>
    rw [List.nodup_cons]
    refine ⟨fun hmem => ?_, List.Nodup.map (fun _ _ h => by simpa using h) List.nodup_range⟩
    have := htail first hmem
    omega
  case lt_idMax =>
    intro id hid
    rcases List.mem_cons.mp hid with rfl | hid
    · omega
    · exact (htail id hid).2
  case dongle =>
    intro henable
    obtain ⟨k, hk⟩ := Nat.exists_eq_add_of_lt hids.1
    have hlt := hids.2.2.2 henable
    rw [hk, Nat.zero_add, List.getElem?_cons_succ, List.getElem?_map, List.getElem?_range (by omega)]
    rfl
  case default =>
    intro hmem
    rcases List.mem_cons.mp hmem with rfl | hmem
    · refine ⟨hdefault rfl, rfl, fun hone => ?_⟩
      rcases List.mem_cons.mp hone with h | h
      · cases h
      · have := htail 1 h
        omega
    · have := htail 0 hmem
      omega

theorem table_init (s : State) : Table cfg (s.initBtStackIdLut cfg).btStackIdLut := by
  have hrange : (List.range cfg.maxPaired).map (· + 1) =
      1 :: (List.range cfg.tempPeerId).map (· + 2) := by
    rw [← cfg.peerIds.2.2.1, List.range_succ_eq_map]
    simp
  unfold State.initBtStackIdLut
  dsimp only
  rw [hrange]
  split
  next hdefault => exact table_cons (by decide) (fun _ => hdefault)
  next hdefault => exact table_cons (by decide) (fun h => by cases h)

@[simp] theorem State.assert_of {s : State} {fault : Fault} {p : Prop} [Decidable p] (h : p) :
    s.assert fault p = s := if_pos h

def ResetsRight (cfg : Config) (entries : List Entry) : Prop :=
  ∀ id, .idReset id ∈ entries → BT_ID_DEFAULT < id ∧ id < cfg.idMax

structure Extends (cfg : Config) (s s' : State) : Prop where
  faults : s'.faults = s.faults
  onInit : s'.donglePeerSelectedOnInit = s.donglePeerSelectedOnInit
  loaded : s'.loaded = s.loaded
  timeoutInit : s'.timeoutInit = s.timeoutInit
  log : ∃ entries, s'.log = s.log ++ entries ∧ ResetsRight cfg entries

structure SameBonds (s s' : State) : Prop where
  curPeerId : s'.curPeerId = s.curPeerId
  lut : s'.btStackIdLut = s.btStackIdLut
  storage : s'.storage = s.storage

namespace Extends

variable {s s' s'' : State}

theorem refl (s : State) : Extends cfg s s :=
  ⟨rfl, rfl, rfl, rfl, [], (List.append_nil _).symm, fun _ h => absurd h List.not_mem_nil⟩

theorem trans (h : Extends cfg s s') (h' : Extends cfg s' s'') : Extends cfg s s'' := by
  obtain ⟨entries, hlog, hresets⟩ := h.log
  obtain ⟨entries', hlog', hresets'⟩ := h'.log
  refine ⟨h'.faults.trans h.faults, h'.onInit.trans h.onInit, h'.loaded.trans h.loaded,
    h'.timeoutInit.trans h.timeoutInit, entries ++ entries', by simp [hlog, hlog'], ?_⟩
  intro id hid
  rcases List.mem_append.mp hid with hid | hid
  · exact hresets id hid
  · exact hresets' id hid

end Extends

namespace SameBonds

variable {s s' s'' : State}

theorem refl (s : State) : SameBonds s s := ⟨rfl, rfl, rfl⟩

theorem trans (h : SameBonds s s') (h' : SameBonds s' s'') : SameBonds s s'' :=
  ⟨h'.curPeerId.trans h.curPeerId, h'.lut.trans h.lut, h'.storage.trans h.storage⟩

theorem identity (h : SameBonds s s') : s'.identity = s.identity := by
  simp only [State.identity, h.lut, h.curPeerId]

end SameBonds

def BondState.resting (state : BondState) : Bool :=
  state = .idle ∨ state = .dongleConn ∨ state = .dongleConnStandby ∨ state = .standby

structure Clean (cfg : Config) (s : State) : Prop where
  faults : s.faults = []
  resets : ResetsRight cfg s.log
  onInit : s.donglePeerSelectedOnInit = true → cfg.donglePeerEnable = true

def StoredRight (cfg : Config) (storage : Storage) : Prop :=
  ∃ id lut, storage = ⟨some [id], some lut⟩ ∧ id < cfg.donglePeerId ∧ Table cfg lut

structure Waiting (cfg : Config) (s : State) : Prop where
  state : s.state = .disabled ∨ s.state = .standbyDisabled
  loaded : s.loaded = false
  timeout : s.timeout = none
  work : s.timeoutInit = false
  fresh : s.curPeerId = 0 ∧ s.curPeerIdValid = false ∧ s.btStackIdLutValid = false ∧
    s.btStackIdLut = List.replicate cfg.maxPaired 0
  storage : Rejected cfg s.storage ∨ StoredRight cfg s.storage

structure Running (cfg : Config) (s : State) : Prop where
  state : s.state.resting = true ∨ s.state.operating = true
  loaded : s.loaded = true
  pending : s.timeout.isSome = s.state.operating
  work : s.timeoutInit = cfg.peerControl
  control : s.state.operating = true → cfg.peerControl = true
  table : Table cfg s.btStackIdLut
  curPeerId : s.curPeerId < cfg.donglePeerId
  stored : s.storage = ⟨some [s.curPeerId], some s.btStackIdLut⟩
  tmpPeerId : s.state = .selectPeer → s.tmpPeerId < cfg.donglePeerId
  reset : s.state = .eraseAdv → FreshlyReset s.log s.curPeerId (s.tempIdentity cfg)

structure BondInv (cfg : Config) (s : State) : Prop where
  clean : Clean cfg s
  phase : Waiting cfg s ∨ Running cfg s

theorem Clean.of_extends {s s' : State} (h : Clean cfg s) (hext : Extends cfg s s') :
    Clean cfg s' := by
  obtain ⟨entries, hlog, hresets⟩ := hext.log
  refine ⟨hext.faults.trans h.faults, fun id hid => ?_, fun hinit => h.onInit (hext.onInit ▸ hinit)⟩
  rw [hlog] at hid
  rcases List.mem_append.mp hid with hid | hid
  · exact h.resets id hid
  · exact hresets id hid

namespace Running

variable {s s' : State}

theorem of_resting (hstate : s'.state.resting = true) (hloaded : s'.loaded = true)
    (htimeout : s'.timeout = none) (hwork : s'.timeoutInit = cfg.peerControl)
    (htable : Table cfg s'.btStackIdLut) (hid : s'.curPeerId < cfg.donglePeerId)
    (hstored : s'.storage = ⟨some [s'.curPeerId], some s'.btStackIdLut⟩) : Running cfg s' := by
  have hoperating : s'.state.operating = false := by
    revert hstate
    cases s'.state <;> decide
  constructor
  case state => exact Or.inl hstate
  case loaded => exact hloaded
  case pending => rw [htimeout, hoperating, Option.isSome_none]
  case work => exact hwork
  case control => exact fun hop => absurd (hop.symm.trans hoperating) (by decide)
  case table => exact htable
  case curPeerId => exact hid
  case stored => exact hstored
  case tmpPeerId =>
    intro hselect
    rw [hselect] at hstate
    cases hstate
  case reset =>
    intro herase
    rw [herase] at hstate
    cases hstate

theorem rest (h : Running cfg s) (hext : Extends cfg s s') (hsame : SameBonds s s')
    (htimeout : s'.timeout = none) (hstate : s'.state.resting = true) : Running cfg s' :=
  of_resting hstate (hext.loaded.trans h.loaded) htimeout
    (hext.timeoutInit.trans h.work) (hsame.lut ▸ h.table)
    (hsame.curPeerId ▸ h.curPeerId) (by rw [hsame.storage, hsame.curPeerId, hsame.lut, h.stored])

theorem timeout_none (h : Running cfg s) (hstate : s.state.resting = true) : s.timeout = none := by
  have hpending := h.pending
  revert hstate hpending
  cases s.state <;> simp [BondState.resting, BondState.operating]

end Running

structure Kept (cfg : Config) (s s' : State) : Prop where
  running : Running cfg s'
  ext : Extends cfg s s'
  same : SameBonds s s'

structure Rested (cfg : Config) (s s' : State) : Prop extends Kept cfg s s' where
  resting : s'.state.resting = true

section Transitions

variable {s s' s'' : State}

theorem Kept.refl (h : Running cfg s) : Kept cfg s s := ⟨h, .refl s, .refl s⟩

theorem Rested.trans (h : Rested cfg s s') (h' : Rested cfg s' s'') : Rested cfg s s'' :=
  ⟨⟨h'.running, h.ext.trans h'.ext, h.same.trans h'.same⟩, h'.resting⟩

theorem Rested.of_running (h : Running cfg s) (hext : Extends cfg s s') (hsame : SameBonds s s')
    (htimeout : s'.timeout = none) (hstate : s'.state.resting = true) : Rested cfg s s' :=
  ⟨⟨h.rest hext hsame htimeout hstate, hext, hsame⟩, hstate⟩

theorem Kept.of_operating (h : Running cfg s) (hext : Extends cfg s s') (hsame : SameBonds s s')
    (hstate : s'.state.operating = true) (htimeout : s'.timeout.isSome = true)
    (hcontrol : cfg.peerControl = true)
    (htmp : s'.state = .selectPeer → s'.tmpPeerId < cfg.donglePeerId)
    (hreset : s'.state = .eraseAdv → FreshlyReset s'.log s'.curPeerId (s'.tempIdentity cfg)) :
    Kept cfg s s' := by
  refine ⟨?_, hext, hsame⟩
  constructor
  case state => exact Or.inr hstate
  case loaded => exact hext.loaded.trans h.loaded
  case pending => rw [htimeout, hstate]
  case work => exact hext.timeoutInit.trans h.work
  case control => exact fun _ => hcontrol
  case table => exact hsame.lut ▸ h.table
  case curPeerId => exact hsame.curPeerId ▸ h.curPeerId
  case stored => rw [hsame.storage, hsame.curPeerId, hsame.lut, h.stored]
  case tmpPeerId => exact htmp
  case reset => exact hreset

end Transitions

/-- The state after `select_dongle_peer`. -/
def BondState.toDongle (state : BondState) : BondState :=
  if state = .idle then .dongleConn else .dongleConnStandby

/-- The state after `select_ble_peers`. -/
def BondState.toBle (state : BondState) : BondState :=
  if state = .dongleConn ∨ state = .idle then .idle else .standby

section Operations

variable {s : State}

theorem resetsRight_operation (op : PeerOperation) (app id : Nat) :
    ResetsRight cfg [.operation op app id] := by
  intro id' h
  simp at h

theorem resetsRight_moduleState (state : ModuleState) : ResetsRight cfg [.moduleState state] := by
  intro id' h
  simp at h

theorem submitTimeout_eq (hwork : s.timeoutInit = true) (delay : Nat) :
    s.submitTimeout delay = { s with timeout := some delay } := by
  simp [State.submitTimeout, hwork]

theorem Running.cancel (h : Running cfg s) : Rested cfg s (s.cancelOperation cfg) :=
  .of_running h ⟨rfl, rfl, rfl, rfl, _, rfl, resetsRight_operation _ _ _⟩ ⟨rfl, rfl, rfl⟩ rfl rfl

theorem Running.dongle_getD (h : Running cfg s) (henable : cfg.donglePeerEnable = true) :
    s.btStackIdLut.getD cfg.donglePeerId 0 = cfg.donglePeerId + 1 := by
  simp [h.table.dongle henable]

theorem Running.selectDonglePeer_eq (h : Running cfg s) (henable : cfg.donglePeerEnable = true)
    (hstate : s.state = .idle ∨ s.state = .standby) :
    s.selectDonglePeer cfg =
      { s with state := s.state.toDongle }.submitOperation cfg .selected cfg.donglePeerId := by
  have hid := h.dongle_getD henable
  rcases hstate with hstate | hstate <;>
    simp [State.selectDonglePeer, hstate, BondState.toDongle, State.getBtStackPeerId,
      -List.getD_eq_getElem?_getD, hid]

theorem Running.dongle (h : Running cfg s) (henable : cfg.donglePeerEnable = true)
    (hstate : s.state = .idle ∨ s.state = .standby) : Rested cfg s (s.selectDonglePeer cfg) := by
  have hresting : s.state.resting = true := by rcases hstate with h | h <;> rw [h] <;> rfl
  have hdongle : s.state.toDongle.resting = true := by
    unfold BondState.toDongle
    split <;> rfl
  rw [h.selectDonglePeer_eq henable hstate]
  exact .of_running h ⟨rfl, rfl, rfl, rfl, _, rfl, resetsRight_operation _ _ _⟩ ⟨rfl, rfl, rfl⟩
    (h.timeout_none hresting) hdongle

theorem selectBlePeers_eq (hstate : s.state.resting = true) :
    s.selectBlePeers cfg =
      { s with state := s.state.toBle }.submitOperation cfg .selected s.curPeerId := by
  rcases s with ⟨state⟩
  cases state <;> first | rfl | cases hstate

theorem Running.ble (h : Running cfg s) (hstate : s.state.resting = true) :
    Rested cfg s (s.selectBlePeers cfg) := by
  have hble : s.state.toBle.resting = true := by
    unfold BondState.toBle
    split <;> rfl
  rw [selectBlePeers_eq hstate]
  exact .of_running h ⟨rfl, rfl, rfl, rfl, _, rfl, resetsRight_operation _ _ _⟩ ⟨rfl, rfl, rfl⟩
    (h.timeout_none hstate) hble

theorem Running.stay (h : Running cfg s) (hstate : s.state.resting = true) : Rested cfg s s :=
  ⟨.refl h, hstate⟩

theorem Running.move (h : Running cfg s) (hstate : s.state.resting = true) {state : BondState}
    (hstate' : state.resting = true) (report : ModuleState) :
    Rested cfg s ({ s with state := state }.record (.moduleState report)) :=
  .of_running h ⟨rfl, rfl, rfl, rfl, _, rfl, resetsRight_moduleState _⟩ ⟨rfl, rfl, rfl⟩
    (h.timeout_none hstate) hstate'

theorem Running.not_waiting (h : Running cfg s) :
    s.state ≠ .disabled ∧ s.state ≠ .standbyDisabled := by
  have hstate := h.state
  constructor <;> intro hs <;> rw [hs] at hstate <;>
    simp [BondState.resting, BondState.operating] at hstate

theorem Running.powerDown (h : Running cfg s) : Rested cfg s (s.handlePowerDownEvent cfg) := by
  have hcancel := h.cancel
  obtain ⟨hdisabled, hstandby⟩ := h.not_waiting
  unfold State.handlePowerDownEvent
  split
  next hs => exact absurd hs hdisabled
  iterate 3 exact hcancel.trans (hcancel.running.move rfl rfl .off)
  next hs => exact h.move (by rw [hs]; rfl) rfl .off
  next hs => exact h.move (by rw [hs]; rfl) rfl .off
  next hs => exact h.stay (by rw [hs]; rfl)
  next hs => exact h.stay (by rw [hs]; rfl)
  next hs => exact absurd hs hstandby

theorem Running.wakeUp (h : Running cfg s) (hserved : Served cfg s .wakeUp) :
    Rested cfg s s.handleWakeUpEvent := by
  obtain ⟨hdisabled, hstandby⟩ := h.not_waiting
  rcases hserved with hs | hs | hs
  · exact absurd hs hstandby
  · simp only [State.handleWakeUpEvent, hs]
    exact h.move (by rw [hs]; rfl) rfl .ready
  · simp only [State.handleWakeUpEvent, hs]
    exact h.move (by rw [hs]; rfl) rfl .ready

theorem Running.selector (h : Running cfg s) (henable : cfg.donglePeerEnable = true)
    (selectorId position : Nat) : Kept cfg s (s.selectorEventHandler cfg selectorId position) := by
  have hcancel := h.cancel
  obtain ⟨hdisabled, hstandby⟩ := h.not_waiting
  unfold State.selectorEventHandler
  split
  · exact .refl h
  · split
    · split
      next hs => exact absurd hs hdisabled
      next => exact .refl h
      next => exact .refl h
      iterate 3 exact (hcancel.trans (hcancel.running.dongle henable (Or.inl rfl))).toKept
      next hs => exact (h.dongle henable (Or.inl hs)).toKept
      next hs => exact (h.dongle henable (Or.inr hs)).toKept
      next hs => exact absurd hs hstandby
    · split
      next hs => exact absurd hs hdisabled
      next => exact .refl h
      next => exact .refl h
      iterate 3 exact (hcancel.trans (hcancel.running.ble rfl)).toKept
      next hs => exact (h.ble (by rw [hs]; rfl)).toKept
      next hs => exact (h.ble (by rw [hs]; rfl)).toKept
      next hs => exact absurd hs hstandby

theorem Running.temp_resets (h : Running cfg s) :
    BT_ID_DEFAULT < s.tempIdentity cfg ∧ s.tempIdentity cfg < cfg.idMax := by
  have hids := cfg.peerIds
  exact ⟨h.table.pos_of_ne_zero h.table.temp_lt (by omega),
    h.table.lt_idMax _ (Table.getD_mem h.table.temp_lt)⟩

theorem eraseAdvConfirm_eq (hstate : s.state = .idle ∨ s.state = .erasePeer) :
    s.eraseAdvConfirm cfg =
      { s with
        state := .erasePeer
        log := s.log ++ [.idReset (s.tempIdentity cfg)] ++
          [.operation .eraseAdv s.curPeerId (s.tempIdentity cfg)]
        eraseAdvWasExtended := false } := by
  rcases s with ⟨state⟩
  rcases hstate with rfl | rfl <;> rfl

theorem Running.eraseAdv (h : Running cfg s) (hstate : s.state = .idle ∨ s.state = .erasePeer)
    (hcontrol : cfg.peerControl = true) (delay : Nat) :
    Kept cfg s ({ s.eraseAdvConfirm cfg with state := .eraseAdv }.submitTimeout delay) := by
  have hwork := h.work.trans hcontrol
  have hresets := h.temp_resets
  rw [eraseAdvConfirm_eq hstate, submitTimeout_eq (by exact hwork)]
  refine .of_operating h ⟨rfl, rfl, rfl, rfl, _, List.append_assoc _ _ _, ?_⟩ ⟨rfl, rfl, rfl⟩ rfl rfl
    hcontrol (fun hs => by cases hs) (fun _ => ⟨s.log, [], ?_, fun _ hmem => absurd hmem List.not_mem_nil⟩)
  · intro id hid
    simp at hid
    exact hid ▸ hresets
  · simp [State.tempIdentity]

theorem Running.config (h : Running cfg s) {optId : Nat} (hserved : Served cfg s (.configSet optId)) :
    Kept cfg s (s.configSet cfg optId) := by
  unfold State.configSet
  split
  · exact .refl h
  next hs =>
    have hs := not_not.mp hs
    split
    next hopt => exact h.eraseAdv (Or.inl hs) (hserved hopt hs) _
    next => exact .refl h

end Operations

theorem mem_stateSwitch {entry : StateSwitch} (h : entry ∈ stateSwitch cfg) :
    entry = ⟨.idle, .short, false, .selectPeer, State.selectStart cfg⟩ ∨
    entry = ⟨.selectPeer, .short, false, .selectPeer, State.selectNext cfg⟩ ∨
    entry = ⟨.selectPeer, .double, false, .idle, State.selectConfirm cfg⟩ ∨
    entry = ⟨.idle, .long, false, .erasePeer, State.eraseStart cfg⟩ ∨
    entry = ⟨.erasePeer, .double, false, .eraseAdv, State.eraseAdvConfirm cfg⟩ ∨
    entry = ⟨.idle, .long, true, .eraseAdv, State.eraseAdvConfirm cfg⟩ := by
  unfold stateSwitch at h
  split_ifs at h <;> simp at h <;> tauto

structure Selected (cfg : Config) (s s' : State) : Prop where
  source : s.state = .selectPeer
  running : Running cfg s'
  ext : Extends cfg s s'
  resting : s'.state.resting = true

section Clicks

variable {s : State}

theorem nextPeerId_lt {id : Nat} (hid : id < cfg.donglePeerId) :
    (State.nextPeerId cfg id).2 = true ∧ (State.nextPeerId cfg id).1 < cfg.donglePeerId := by
  have hids := cfg.peerIds
  unfold State.nextPeerId
  split <;> simp <;> omega

theorem Running.selectPeer (h : Running cfg s) (hcontrol : cfg.peerControl = true) {id : Nat}
    (hid : id < cfg.donglePeerId) (delay : Nat) :
    Kept cfg s ({ s.selectPeer cfg id with state := .selectPeer }.submitTimeout delay) := by
  obtain ⟨hassert, hnext⟩ := nextPeerId_lt hid
  have hwork := h.work.trans hcontrol
  unfold State.selectPeer
  dsimp only
  rw [State.assert_of hassert, submitTimeout_eq (by exact hwork)]
  exact .of_operating h ⟨rfl, rfl, rfl, rfl, _, rfl, resetsRight_operation _ _ _⟩ ⟨rfl, rfl, rfl⟩ rfl rfl
    hcontrol (fun _ => hnext) (fun hs => by cases hs)

theorem Running.eraseStart (h : Running cfg s) (hcontrol : cfg.peerControl = true) (delay : Nat) :
    Kept cfg s ({ s.eraseStart cfg with state := .erasePeer }.submitTimeout delay) := by
  have hwork := h.work.trans hcontrol
  rw [submitTimeout_eq (by exact hwork)]
  exact .of_operating h ⟨rfl, rfl, rfl, rfl, _, rfl, resetsRight_operation _ _ _⟩ ⟨rfl, rfl, rfl⟩ rfl rfl
    hcontrol (fun hs => by cases hs) (fun hs => by cases hs)

theorem Running.selectConfirm (h : Running cfg s) (hstate : s.state = .selectPeer) :
    Selected cfg s { s.selectConfirm cfg with state := .idle }.cancelTimeout := by
  unfold State.selectConfirm
  split
  · have hext : Extends cfg s { ({ s with curPeerId := s.tmpPeerId }.storePeerId.submitOperation cfg
        .selected s.tmpPeerId) with state := .idle }.cancelTimeout :=
      ⟨rfl, rfl, rfl, rfl, _, rfl, resetsRight_operation _ _ _⟩
    have hstored : ({ s.storage with peerId := some [s.tmpPeerId] } : Storage) =
        ⟨some [s.tmpPeerId], some s.btStackIdLut⟩ := by rw [h.stored]
    exact ⟨hstate, .of_resting rfl h.loaded rfl h.work h.table (h.tmpPeerId hstate) hstored, hext, rfl⟩
  · have hrested : Rested cfg s { s.submitOperation cfg .cancel s.curPeerId with
        state := .idle }.cancelTimeout :=
      .of_running h ⟨rfl, rfl, rfl, rfl, _, rfl, resetsRight_operation _ _ _⟩ ⟨rfl, rfl, rfl⟩ rfl rfl
    exact ⟨hstate, hrested.running, hrested.ext, rfl⟩

theorem Running.switch (h : Running cfg s) (hcontrol : cfg.peerControl = true) {entry : StateSwitch}
    (hentry : entry ∈ stateSwitch cfg) (hstate : entry.state = s.state) :
    Kept cfg s (s.switch entry) ∨ Selected cfg s (s.switch entry) := by
  rcases mem_stateSwitch hentry with rfl | rfl | rfl | rfl | rfl | rfl
  · exact Or.inl (h.selectPeer hcontrol h.curPeerId _)
  · exact Or.inl (h.selectPeer hcontrol (h.tmpPeerId hstate.symm) _)
  · exact Or.inr (h.selectConfirm hstate.symm)
  · exact Or.inl (h.eraseStart hcontrol _)
  · exact Or.inl (h.eraseAdv (Or.inr hstate.symm) hcontrol _)
  · exact Or.inl (h.eraseAdv (Or.inl hstate.symm) hcontrol _)

theorem Running.click (h : Running cfg s) (hcontrol : cfg.peerControl = true) (keyId : Nat)
    (click : Click) (uptime : Nat) :
    Kept cfg s (s.clickEventHandler cfg keyId click uptime) ∨
      Selected cfg s (s.clickEventHandler cfg keyId click uptime) := by
  unfold State.clickEventHandler State.handleClick
  split
  · exact Or.inl (.refl h)
  · split
    · exact Or.inl (.refl h)
    · dsimp only
      split
      next entry hfound =>
        have hmatch := List.find?_some hfound
        exact h.switch hcontrol (List.mem_of_find?_eq_some hfound) (by simp at hmatch; exact hmatch.2.1)
      next =>
        split
        · exact Or.inl h.cancel.toKept
        · exact Or.inl (.refl h)

end Clicks

section Erase

variable {s : State}

theorem FreshlyReset.disconnect {log : List Entry} {peer id : Nat} (h : FreshlyReset log peer id)
    (other : Nat) : FreshlyReset (log ++ [.disconnect other]) peer id := by
  obtain ⟨earlier, later, hlog, hlater⟩ := h
  refine ⟨earlier, later ++ [.disconnect other], by simp [hlog], fun e he => ?_⟩
  rcases List.mem_append.mp he with he | he
  · exact hlater e he
  · exact ⟨other, List.mem_singleton.mp he⟩

theorem Running.curPeerId_lt (h : Running cfg s) :
    s.curPeerId < s.btStackIdLut.length ∧ s.curPeerId ≠ cfg.tempPeerId := by
  have hids := cfg.peerIds
  have hlt := h.curPeerId
  have hlength := h.table.length
  omega

theorem Running.identity_ne (h : Running cfg s) : s.tempIdentity cfg ≠ s.identity := by
  obtain ⟨hlt, hne⟩ := h.curPeerId_lt
  have htemp := h.table.temp_lt
  intro heq
  simp only [State.tempIdentity, State.identity] at heq
  rw [List.getD_eq_getElem _ _ htemp, List.getD_eq_getElem _ _ hlt] at heq
  exact hne ((h.table.nodup.getElem_inj_iff).mp heq).symm

theorem Running.leaveDefaultId (h : Running cfg s) :
    Table cfg (s.leaveDefaultId cfg).btStackIdLut ∧
      (0 ∈ (s.leaveDefaultId cfg).btStackIdLut → s.curPeerId ≠ 0) ∧
      (s.leaveDefaultId cfg).btStackIdLut.getD cfg.tempPeerId 0 = s.tempIdentity cfg ∧
      (s.leaveDefaultId cfg).curPeerId = s.curPeerId ∧
      (s.leaveDefaultId cfg).storage = s.storage ∧ Extends cfg s (s.leaveDefaultId cfg) := by
  have hids := cfg.peerIds
  unfold State.leaveDefaultId
  split
  next hdefault =>
    obtain ⟨htable, hzero⟩ := h.table.leave hdefault.2.1
    refine ⟨htable, fun hmem => absurd hmem hzero, ?_, rfl, rfl, rfl, rfl, rfl, rfl, _, rfl, ?_⟩
    · simp only [State.tempIdentity, List.getD_eq_getElem?_getD]
      rw [List.getElem?_set_ne (by omega)]
    · intro id hid
      simp at hid
  next hdefault =>
    refine ⟨h.table, fun hmem hcur => hdefault ?_, rfl, rfl, rfl, .refl s⟩
    obtain ⟨huse, hfirst, -⟩ := h.table.default hmem
    exact ⟨huse, by simp [hfirst, BT_ID_DEFAULT], hcur⟩

structure Erased (cfg : Config) (s s' : State) : Prop where
  running : Running cfg s'
  ext : Extends cfg s s'
  state : s'.state = .idle
  curPeerId : s'.curPeerId = s.curPeerId
  identity : s'.identity = s.tempIdentity cfg
  reported : s'.log.getLast? = some (.operation .erased s.curPeerId (s.tempIdentity cfg))

/-- What `swap_bt_stack_peer_id` does while a peer is erased. -/
theorem Running.swap (h : Running cfg s) (hstate : s.state = .eraseAdv) :
    Extends cfg s (s.swapBtStackPeerId cfg) ∧ Table cfg (s.swapBtStackPeerId cfg).btStackIdLut ∧
      (s.swapBtStackPeerId cfg).curPeerId = s.curPeerId ∧
      (s.swapBtStackPeerId cfg).storage =
        ⟨some [s.curPeerId], some (s.swapBtStackPeerId cfg).btStackIdLut⟩ ∧
      (s.swapBtStackPeerId cfg).btStackIdLut.getD s.curPeerId 0 = s.tempIdentity cfg := by
  obtain ⟨htable, hzero, htemp, hcur, hstorage, hext⟩ := h.leaveDefaultId
  obtain ⟨hlt, hne⟩ := h.curPeerId_lt
  have hids := cfg.peerIds
  have hid := h.curPeerId
  have hlt : s.curPeerId < (s.leaveDefaultId cfg).btStackIdLut.length := by
    rw [htable.length, ← h.table.length]
    exact hlt
  have hswap := htable.swap hlt htable.temp_lt (fun henable => by have := hids.2.2.2 henable; omega)
    (fun hmem => ⟨hzero hmem, by omega⟩)
  unfold State.swapBtStackPeerId
  rw [State.assert_of hstate]
  dsimp only
  rw [hcur]
  refine ⟨hext.trans ⟨rfl, rfl, rfl, rfl, [], (List.append_nil _).symm,
    fun _ hmem => absurd hmem List.not_mem_nil⟩, hswap, rfl, ?_, ?_⟩
  · simp [State.storeBtStackIdLut, hstorage, h.stored]
  · simp only [State.storeBtStackIdLut, List.getD_eq_getElem?_getD]
    rw [List.getElem?_set_self (by simpa using hlt), ← htemp]
    simp

theorem Running.erased (h : Running cfg s) (hstate : s.state = .eraseAdv) (remaining : Nat) :
    Erased cfg s (s.blePeerEventHandler cfg .secured (s.tempIdentity cfg) remaining) := by
  obtain ⟨hext, htable, hcur, hstorage, hidentity⟩ := h.swap hstate
  have hget : s.getBtStackPeerId cfg s.curPeerId = s.tempIdentity cfg := by
    simp [State.getBtStackPeerId, State.tempIdentity, hstate]
  unfold State.blePeerEventHandler
  dsimp only
  rw [if_neg (not_not.mpr hstate), if_neg (not_not.mpr hget.symm)]
  have hext' : Extends cfg s (({ s.swapBtStackPeerId cfg with state := .idle }.submitOperation cfg
      .erased (s.swapBtStackPeerId cfg).curPeerId).cancelTimeout) :=
    hext.trans ⟨rfl, rfl, rfl, rfl, _, rfl, resetsRight_operation _ _ _⟩
  refine ⟨.of_resting rfl (hext'.loaded.trans h.loaded) rfl
    (hext'.timeoutInit.trans h.work) htable (hcur ▸ h.curPeerId)
    (hcur.symm ▸ hstorage), hext', rfl, hcur, ?_, ?_⟩
  · exact (congrArg (fun id => (s.swapBtStackPeerId cfg).btStackIdLut.getD id 0) hcur).trans hidentity
  · simp [State.cancelTimeout, State.submitOperation, State.record, State.getBtStackPeerId, hcur,
      -List.getD_eq_getElem?_getD, hidentity]

theorem Running.blePeer (h : Running cfg s) {peerState : PeerState} {identity : Nat}
    (hother : s.state = .eraseAdv → peerState = .secured → identity ≠ s.tempIdentity cfg)
    (remaining : Nat) : Kept cfg s (s.blePeerEventHandler cfg peerState identity remaining) := by
  unfold State.blePeerEventHandler
  split
  · exact .refl h
  next hstate =>
    have hstate := not_not.mp hstate
    have hop : s.state.operating = true := by rw [hstate]; rfl
    have hreset := h.reset hstate
    split
    · split
      · have hwork := h.work.trans (h.control hop)
        rw [submitTimeout_eq (by exact hwork)]
        exact .of_operating h ⟨rfl, rfl, rfl, rfl, [], (List.append_nil _).symm,
          fun _ hmem => absurd hmem List.not_mem_nil⟩ ⟨rfl, rfl, rfl⟩ hop rfl (h.control hop)
          h.tmpPeerId h.reset
      · exact .refl h
    · have hget : s.getBtStackPeerId cfg s.curPeerId = s.tempIdentity cfg := by
        simp [State.getBtStackPeerId, State.tempIdentity, hstate]
      rw [if_pos (by rw [hget]; exact hother hstate rfl)]
      exact .of_operating h ⟨rfl, rfl, rfl, rfl, _, rfl, fun id hid => by simp at hid⟩ ⟨rfl, rfl, rfl⟩ hop
        (h.pending.trans hop) (h.control hop) h.tmpPeerId (fun _ => hreset.disconnect _)
    · exact .refl h

end Erase

namespace State

variable (cfg : Config) (s : State)

def load : State := { s.settingsSetPeerId.settingsSetBtLut cfg with loaded := true }

def start : State :=
  { s with
    state := if s.state = BondState.disabled then .idle else .standby
    timeoutInit := cfg.peerControl || s.timeoutInit }

/-- The state in which `init` selects the peer. -/
def prepare : State :=
  if (s.start cfg).storageDataIsValid cfg then s.start cfg
  else { (s.start cfg).storageDataOverwrite cfg with btStackIdLutValid := true, curPeerIdValid := true }

theorem init_eq : s.init cfg =
    if (s.prepare cfg).donglePeerSelectedOnInit then (s.prepare cfg).selectDonglePeer cfg
    else (s.prepare cfg).selectBlePeers cfg := by
  have hstart : (if cfg.peerControl = true then
      { s with
        state := if s.state = BondState.disabled then .idle else .standby
        timeoutInit := true }
      else { s with state := if s.state = BondState.disabled then .idle else .standby }) =
      s.start cfg := by
    unfold start
    cases cfg.peerControl <;> rfl
  unfold init prepare
  rw [← hstart]

theorem load_eq : ∃ id idValid lut lutValid, s.load cfg =
    { s with
      curPeerId := id
      curPeerIdValid := idValid
      btStackIdLut := lut
      btStackIdLutValid := lutValid
      loaded := true } := by
  unfold load settingsSetBtLut
  have hpeer : ∃ id idValid, s.settingsSetPeerId =
      { s with curPeerId := id, curPeerIdValid := idValid } := by
    unfold settingsSetPeerId
    split
    · exact ⟨_, _, rfl⟩
    · exact ⟨_, _, rfl⟩
    · exact ⟨_, _, rfl⟩
  obtain ⟨id, idValid, hpeer⟩ := hpeer
  rw [hpeer]
  dsimp only
  split
  · split <;> exact ⟨_, _, _, _, rfl⟩
  · exact ⟨_, _, _, _, rfl⟩

end State

theorem StoredRight.load_eq {s : State} {id : Nat} {lut : List Nat}
    (hstorage : s.storage = ⟨some [id], some lut⟩) (htable : Table cfg lut) :
    s.load cfg =
      { s with
        curPeerId := id
        curPeerIdValid := true
        btStackIdLut := lut
        btStackIdLutValid := true
        loaded := true } := by
  simp [State.load, State.settingsSetPeerId, State.settingsSetBtLut, hstorage, htable.length]

theorem Waiting.load_invalid {s : State} (h : Waiting cfg s) (hrejected : Rejected cfg s.storage) :
    (s.load cfg).storageDataIsValid cfg = false := by
  obtain ⟨hid, hidValid, hlutValid, hlut⟩ := h.fresh
  rw [← hrejected]
  rcases s with ⟨state, id, idValid, tmp, onInit, extended, lut, lutValid, timeout, work, ⟨peer, ids⟩⟩
  subst hid hidValid hlutValid hlut
  rcases peer with - | (- | ⟨id, - | ⟨id', ids'⟩⟩) <;> cases ids with
    | none => rfl
    | some ids =>
      simp only [State.load, State.settingsSetPeerId, State.settingsSetBtLut, State.boot]
      split <;> rfl

theorem start_resting (s : State) : (s.start cfg).state = .idle ∨ (s.start cfg).state = .standby := by
  unfold State.start
  dsimp only
  split
  · exact Or.inl rfl
  · exact Or.inr rfl

theorem Waiting.start_work {s : State} (h : Waiting cfg s) :
    ((s.load cfg).start cfg).timeoutInit = cfg.peerControl := by
  obtain ⟨_, _, _, _, hload⟩ := s.load_eq cfg
  simp [State.start, hload, h.work]

theorem resetsRight_all (cfg : Config) :
    ResetsRight cfg (.unpaired BT_ID_DEFAULT :: (List.range' 1 (cfg.idMax - 1)).map .idReset) := by
  intro id hid
  simp [List.mem_range'_1] at hid
  unfold BT_ID_DEFAULT
  omega

theorem ResetsRight.append {entries entries' : List Entry} (h : ResetsRight cfg entries)
    (h' : ResetsRight cfg entries') : ResetsRight cfg (entries ++ entries') := by
  intro id hid
  rcases List.mem_append.mp hid with hid | hid
  · exact h id hid
  · exact h' id hid

theorem Waiting.prepare {s : State} (h : Waiting cfg s) (hclean : Clean cfg s) :
    Clean cfg ((s.load cfg).prepare cfg) ∧ Running cfg ((s.load cfg).prepare cfg) ∧
      (((s.load cfg).prepare cfg).state = .idle ∨ ((s.load cfg).prepare cfg).state = .standby) := by
  have hstate : ((s.load cfg).start cfg).state = .idle ∨ ((s.load cfg).start cfg).state = .standby :=
    start_resting _
  have hresting : ((s.load cfg).start cfg).state.resting = true := by
    rcases hstate with h | h <;> rw [h] <;> rfl
  have hwork := h.start_work
  unfold State.prepare
  rcases h.storage with hrejected | ⟨id, lut, hstorage, hid, htable⟩
  · have hinvalid : ((s.load cfg).start cfg).storageDataIsValid cfg = false :=
      h.load_invalid hrejected
    rw [if_neg (by simp [hinvalid])]
    obtain ⟨id, idValid, lut, lutValid, hload⟩ := s.load_eq cfg
    rw [hload] at hstate hresting hwork ⊢
    refine ⟨⟨hclean.faults, ?_, hclean.onInit⟩,
      .of_resting hresting rfl h.timeout hwork (table_init s) cfg.peerIds.1 rfl, hstate⟩
    have hall := ResetsRight.append hclean.resets (resetsRight_all cfg)
    rwa [List.append_cons] at hall
  · have hvalid : ((s.load cfg).start cfg).storageDataIsValid cfg = true := by
      rw [StoredRight.load_eq hstorage htable]
      simpa [State.start, State.storageDataIsValid, hid] using htable.lt_idMax
    rw [if_pos hvalid]
    rw [StoredRight.load_eq hstorage htable] at hstate hresting hwork ⊢
    exact ⟨⟨hclean.faults, hclean.resets, hclean.onInit⟩,
      .of_resting hresting rfl h.timeout hwork htable hid hstorage, hstate⟩

theorem Rested.report {s s' : State} (h : Rested cfg s s') (report : ModuleState) :
    Rested cfg s (s'.record (.moduleState report)) :=
  h.trans (.of_running h.running ⟨rfl, rfl, rfl, rfl, _, rfl, resetsRight_moduleState _⟩
    ⟨rfl, rfl, rfl⟩ (h.running.timeout_none h.resting) h.resting)

theorem Waiting.settingsReady {s : State} (h : Waiting cfg s) (hclean : Clean cfg s) :
    Clean cfg (s.settingsReady cfg) ∧ Running cfg (s.settingsReady cfg) ∧
      (s.settingsReady cfg).state.resting = true := by
  obtain ⟨hclean', hrunning, hstate⟩ := h.prepare hclean
  have hresting : ((s.load cfg).prepare cfg).state.resting = true := by
    rcases hstate with h | h <;> rw [h] <;> rfl
  have hinit : Rested cfg ((s.load cfg).prepare cfg) ((s.load cfg).init cfg) := by
    rw [State.init_eq]
    split
    next honInit => exact hrunning.dongle (hclean'.onInit honInit) hstate
    next => exact hrunning.ble hresting
  have hwaits : (s.load cfg).state = .disabled ∨ (s.load cfg).state = .standbyDisabled := by
    obtain ⟨_, _, _, _, hload⟩ := s.load_eq cfg
    rw [hload]
    exact h.state
  have hready : Rested cfg ((s.load cfg).prepare cfg) (s.settingsReady cfg) := by
    have hload : s.settingsReady cfg =
        if (((s.load cfg).init cfg).record (.moduleState .ready)).state = .standby then
          (((s.load cfg).init cfg).record (.moduleState .ready)).record (.moduleState .off)
        else ((s.load cfg).init cfg).record (.moduleState .ready) := by
      have hassert : (s.load cfg).assert .settingsReady ((s.load cfg).state = BondState.disabled ∨
          (s.load cfg).state = BondState.standbyDisabled) = s.load cfg := State.assert_of hwaits
      rw [← hassert]
      rfl
    rw [hload]
    split
    · exact (hinit.report .ready).report .off
    · exact hinit.report .ready
  exact ⟨hclean'.of_extends hready.ext, hready.running, hready.resting⟩

theorem Waiting.stay {s s' : State} (h : Waiting cfg s)
    (hstate : s'.state = .disabled ∨ s'.state = .standbyDisabled) (hloaded : s'.loaded = s.loaded)
    (htimeout : s'.timeout = s.timeout) (hwork : s'.timeoutInit = s.timeoutInit)
    (hid : s'.curPeerId = s.curPeerId)
    (hidValid : s'.curPeerIdValid = s.curPeerIdValid) (hlut : s'.btStackIdLut = s.btStackIdLut)
    (hlutValid : s'.btStackIdLutValid = s.btStackIdLutValid) (hstorage : s'.storage = s.storage) :
    Waiting cfg s' :=
  ⟨hstate, hloaded.trans h.loaded, htimeout.trans h.timeout, hwork.trans h.work,
    by rw [hid, hidValid, hlut, hlutValid]; exact h.fresh, hstorage ▸ h.storage⟩

theorem Waiting.click {s : State} (h : Waiting cfg s) (keyId : Nat) (click : Click) (uptime : Nat) :
    s.clickEventHandler cfg keyId click uptime = s := by
  unfold State.clickEventHandler State.handleClick
  split
  · rfl
  · split
    · rfl
    next hdisabled =>
      have hstate := h.state.resolve_left hdisabled
      dsimp only
      split
      next entry hfound =>
        have hmatch := List.find?_some hfound
        simp only [hstate, decide_eq_true_eq] at hmatch
        have hne : entry.state ≠ .standbyDisabled := by
          rcases mem_stateSwitch (List.mem_of_find?_eq_some hfound) with rfl | rfl | rfl | rfl | rfl | rfl <;>
            simp
        exact absurd hmatch.2.1 hne
      next => rw [if_neg (by simp [hstate, BondState.operating])]

structure Awaited (cfg : Config) (s' : State) : Prop where
  clean : Clean cfg s'
  phase : Waiting cfg s' ∨ Running cfg s' ∧ s'.state.resting = true

theorem Waiting.selector {s : State} (h : Waiting cfg s) (hclean : Clean cfg s)
    (henable : cfg.donglePeerEnable = true) {selectorId position : Nat}
    (hserved : Served cfg s (.selector selectorId position)) :
    Awaited cfg (s.selectorEventHandler cfg selectorId position) := by
  unfold State.selectorEventHandler
  split
  · exact ⟨hclean, Or.inl h⟩
  next hid =>
    have hstate := h.state.resolve_right (hserved henable (not_not.mp hid))
    rw [hstate]
    split
    · exact ⟨⟨hclean.faults, hclean.resets, fun _ => henable⟩,
        Or.inl (h.stay (Or.inl rfl) rfl rfl rfl rfl rfl rfl rfl rfl)⟩
    · exact ⟨⟨hclean.faults, hclean.resets, fun hinit => by cases hinit⟩,
        Or.inl (h.stay (Or.inl rfl) rfl rfl rfl rfl rfl rfl rfl rfl)⟩

theorem Waiting.step {s : State} (h : Waiting cfg s) (hclean : Clean cfg s) {e : Event}
    (horder : InOrder s e) (hserved : Served cfg s e) : Awaited cfg (s.step cfg e) := by
  have hinv : Awaited cfg s := ⟨hclean, Or.inl h⟩
  cases e with
  | settingsReady =>
    obtain ⟨hclean', hrunning⟩ := h.settingsReady hclean
    exact ⟨hclean', Or.inr hrunning⟩
  | blePeer peerState identity remaining =>
    have hstate : s.state ≠ .eraseAdv := by rcases h.state with hs | hs <;> simp [hs]
    simp only [State.step, State.blePeerEventHandler, if_pos hstate]
    exact hinv
  | click keyId click uptime =>
    simp only [State.step]
    rw [h.click, ite_self]
    exact hinv
  | selector selectorId position =>
    simp only [State.step]
    split
    next henable => exact h.selector hclean henable hserved
    next => exact hinv
  | configSet optId =>
    have hstate : s.state ≠ .idle := by rcases h.state with hs | hs <;> simp [hs]
    simp only [State.step, State.configSet, if_pos hstate]
    exact hinv
  | configFetch optId => exact hinv
  | powerDown =>
    have hstate := h.state.resolve_right hserved
    simp only [State.step, State.handlePowerDownEvent, hstate]
    exact ⟨⟨hclean.faults, hclean.resets, hclean.onInit⟩,
      Or.inl (h.stay (Or.inr rfl) rfl rfl rfl rfl rfl rfl rfl rfl)⟩
  | wakeUp =>
    have hstate : s.state = .standbyDisabled := by
      rcases h.state with hs | hs
      · rw [Served, hs] at hserved
        simp at hserved
      · exact hs
    simp only [State.step, State.handleWakeUpEvent, hstate]
    exact ⟨⟨hclean.faults, hclean.resets, hclean.onInit⟩,
      Or.inl (h.stay (Or.inl rfl) rfl rfl rfl rfl rfl rfl rfl rfl)⟩
  | timeout =>
    rw [InOrder, h.timeout] at horder
    cases horder
  | reboot =>
    exact ⟨⟨hclean.faults, hclean.resets, fun hinit => by cases hinit⟩,
      Or.inl ⟨Or.inl rfl, rfl, rfl, rfl, ⟨rfl, rfl, rfl, rfl⟩, h.storage⟩⟩

inductive Effect (cfg : Config) (s : State) (e : Event) : State → Prop
  | kept {s' : State} (hother : ¬ Completes cfg s e) (h : Kept cfg s s') : Effect cfg s e s'
  | selected {s' : State} (hother : ¬ Completes cfg s e) (h : Selected cfg s s') : Effect cfg s e s'
  | erased {s' : State} (hcompletes : Completes cfg s e) (h : Erased cfg s s') : Effect cfg s e s'
  | rebooted (hreboot : e = .reboot) : Effect cfg s e (s.reboot cfg)

theorem not_completes {s : State} {e : Event}
    (h : ∀ identity remaining, e ≠ .blePeer .secured identity remaining) : ¬ Completes cfg s e :=
  fun hcompletes => h _ _ hcompletes.2.choose_spec

theorem Running.step {s : State} (h : Running cfg s) {e : Event} (horder : InOrder s e)
    (hserved : Served cfg s e) : Effect cfg s e (s.step cfg e) := by
  cases e with
  | settingsReady => exact absurd (h.loaded.symm.trans horder) (by decide)
  | blePeer peerState identity remaining =>
    by_cases hcompletes : Completes cfg s (.blePeer peerState identity remaining)
    · obtain ⟨hstate, _, heq⟩ := hcompletes
      cases heq
      exact .erased ⟨hstate, _, rfl⟩ (h.erased hstate remaining)
    · refine .kept hcompletes (h.blePeer (fun hstate hsecured hid => hcompletes ?_) remaining)
      exact ⟨hstate, remaining, by rw [hsecured, hid]⟩
  | click keyId click uptime =>
    have hother : ¬ Completes cfg s (.click keyId click uptime) := not_completes (fun _ _ => by simp)
    simp only [State.step]
    split
    next hcontrol =>
      rcases h.click hcontrol keyId click uptime with hkept | hselected
      · exact .kept hother hkept
      · exact .selected hother hselected
    next => exact .kept hother (.refl h)
  | selector selectorId position =>
    have hother : ¬ Completes cfg s (.selector selectorId position) :=
      not_completes (fun _ _ => by simp)
    simp only [State.step]
    split
    next henable => exact .kept hother (h.selector henable _ _)
    next => exact .kept hother (.refl h)
  | configSet optId => exact .kept (not_completes (fun _ _ => by simp)) (h.config hserved)
  | configFetch optId => exact .kept (not_completes (fun _ _ => by simp)) (.refl h)
  | powerDown => exact .kept (not_completes (fun _ _ => by simp)) h.powerDown.toKept
  | wakeUp => exact .kept (not_completes (fun _ _ => by simp)) (h.wakeUp hserved).toKept
  | timeout =>
    have hoperating : s.state.operating = true := h.pending.symm.trans horder
    have htimeout : s.step cfg .timeout = s.cancelOperation cfg := by
      simp only [State.step, State.timeoutHandler]
      rw [State.assert_of (by exact hoperating)]
      rfl
    rw [htimeout]
    exact .kept (not_completes (fun _ _ => by simp)) h.cancel.toKept
  | reboot => exact .rebooted rfl

theorem Running.reboot {s : State} (h : Running cfg s) : Waiting cfg (s.reboot cfg) :=
  ⟨Or.inl rfl, rfl, rfl, rfl, ⟨rfl, rfl, rfl, rfl⟩, Or.inr ⟨_, _, h.stored, h.curPeerId, h.table⟩⟩

theorem bondInv_boot {storage : Storage} (hrejected : Rejected cfg storage) :
    BondInv cfg (State.boot cfg storage) :=
  ⟨⟨rfl, fun _ h => absurd h List.not_mem_nil, fun hinit => by cases hinit⟩,
    Or.inl ⟨Or.inl rfl, rfl, rfl, rfl, ⟨rfl, rfl, rfl, rfl⟩, Or.inl hrejected⟩⟩

theorem BondInv.step {s : State} (h : BondInv cfg s) {e : Event} (horder : InOrder s e)
    (hserved : Served cfg s e) : BondInv cfg (s.step cfg e) := by
  rcases h.phase with hwaiting | hrunning
  · have hawaited := hwaiting.step h.clean horder hserved
    exact ⟨hawaited.clean, hawaited.phase.imp_right And.left⟩
  · have heffect := hrunning.step horder hserved
    generalize s.step cfg e = s' at heffect ⊢
    cases heffect with
    | kept _ hkept => exact ⟨h.clean.of_extends hkept.ext, Or.inr hkept.running⟩
    | selected _ hselected => exact ⟨h.clean.of_extends hselected.ext, Or.inr hselected.running⟩
    | erased _ herased => exact ⟨h.clean.of_extends herased.ext, Or.inr herased.running⟩
    | rebooted hreboot =>
      exact ⟨⟨h.clean.faults, h.clean.resets, fun hinit => by cases hinit⟩, Or.inl hrunning.reboot⟩

theorem BondInv.right {s : State} (h : BondInv cfg s) : BondRight cfg s := by
  rcases h.phase with hwaiting | hrunning
  · have hloaded : ∀ {p : Prop}, s.loaded = true → p := fun hloaded =>
      absurd (hwaiting.loaded.symm.trans hloaded) (by decide)
    have hpending : s.timeout.isSome = s.state.operating := by
      rw [hwaiting.timeout]
      rcases hwaiting.state with hs | hs <;> rw [hs] <;> rfl
    exact ⟨h.clean.faults, hpending, hloaded, hloaded, hloaded, hloaded, hloaded, hloaded,
      h.clean.resets⟩
  · exact ⟨h.clean.faults, hrunning.pending, fun _ => hrunning.table.length,
      fun _ => hrunning.table.nodup, fun _ => hrunning.table.lt_idMax, fun _ => hrunning.table.dongle,
      fun _ => hrunning.curPeerId, fun _ => hrunning.stored, h.clean.resets⟩

theorem not_erasing_of_resting {s : State} (h : s.state.resting = true) : s.erasing = false := by
  revert h
  unfold State.erasing
  cases s.state <;> decide

theorem Waiting.not_erasing {s : State} (h : Waiting cfg s) : s.erasing = false := by
  unfold State.erasing
  rcases h.state with hs | hs <;> rw [hs] <;> rfl

theorem BondInv.erase {s : State} (h : BondInv cfg s) {e : Event} (horder : InOrder s e)
    (hserved : Served cfg s e) : EraseRight cfg s e (s.step cfg e) := by
  rcases h.phase with hwaiting | hrunning
  · have hnext : (s.step cfg e).erasing = false := by
      rcases (hwaiting.step h.clean horder hserved).phase with h' | h'
      · exact h'.not_erasing
      · exact not_erasing_of_resting h'.2
    refine ⟨fun _ herasing => ?_, fun hcompletes => ?_⟩
    · simp [hwaiting.not_erasing, hnext] at herasing
    · rcases hwaiting.state with hs | hs <;> exact absurd (hs.symm.trans hcompletes.1) (by decide)
  · have heffect := hrunning.step horder hserved
    generalize s.step cfg e = s' at heffect
    cases heffect with
    | kept hother hkept =>
      exact ⟨fun _ _ => ⟨hkept.same.storage, fun _ => ⟨hkept.same.curPeerId, hkept.same.identity⟩⟩,
        fun hcompletes => absurd hcompletes hother⟩
    | selected hother hselected =>
      refine ⟨fun _ herasing => ?_, fun hcompletes => absurd hcompletes hother⟩
      have hs : s.erasing = false := by
        unfold State.erasing
        rw [hselected.source]
        rfl
      simp [hs, not_erasing_of_resting hselected.resting] at herasing
    | erased hcompletes herased =>
      refine ⟨fun hother => absurd hcompletes hother, fun _ => ?_⟩
      have hreset := hrunning.reset hcompletes.1
      refine ⟨herased.state, herased.curPeerId, herased.identity, ?_, ?_, ?_⟩
      · rw [herased.identity]
        exact hrunning.identity_ne
      · rw [herased.identity]
        exact hreset
      · rw [herased.identity]
        exact herased.reported
    | rebooted hreboot =>
      refine ⟨fun _ _ => ⟨rfl, fun hother => absurd hreboot hother⟩, fun hcompletes => ?_⟩
      obtain ⟨-, _, heq⟩ := hcompletes
      exact absurd (hreboot.symm.trans heq) (by simp)

theorem State.faults_assert (s : State) (fault : Fault) {p : Prop} [Decidable p] (h : ¬ p) :
    (s.assert fault p).faults ≠ [] := by
  simp [State.assert, h]

theorem Running.config_faults {s : State} (h : Running cfg s) (hstate : s.state = .idle)
    (hcontrol : cfg.peerControl = false) :
    (s.step cfg (.configSet BLE_BOND_OPT_PEER_ERASE)).faults ≠ [] := by
  have hwork : s.timeoutInit = false := h.work.trans hcontrol
  simp only [State.step]
  unfold State.configSet
  rw [if_neg (not_not.mpr hstate), if_pos rfl, eraseAdvConfirm_eq (Or.inl hstate)]
  exact State.faults_assert _ _ (by simp [hwork])

theorem BondInv.served_of_faults {s : State} (h : BondInv cfg s) {e : Event}
    (hfaults : (s.step cfg e).faults = []) : Served cfg s e := by
  cases e with
  | selector selectorId position =>
    intro henable hid hstate
    apply State.faults_assert s .selector id
    simpa [State.step, henable, State.selectorEventHandler, hid, hstate] using hfaults
  | configSet optId =>
    rintro rfl hstate
    rcases h.phase with hwaiting | hrunning
    · exact absurd hstate (by rcases hwaiting.state with hs | hs <;> simp [hs])
    · by_contra hcontrol
      exact hrunning.config_faults hstate (eq_false_of_ne_true hcontrol) hfaults
  | powerDown =>
    intro hstate
    apply State.faults_assert s .powerDown id
    simpa [State.step, State.handlePowerDownEvent, hstate] using hfaults
  | wakeUp =>
    by_contra hserved
    apply State.faults_assert s .wakeUp id
    simp only [Served, not_or] at hserved
    obtain ⟨hdisabled, hstandby, hdongle⟩ := hserved
    simp only [State.step, State.handleWakeUpEvent] at hfaults
    exact hfaults
  | _ => exact trivial

/-- In every run that meets the condition the bonds and every step of an erase are right, and the
assertions hold in the next step exactly when the condition does. -/
theorem bonds_right (cfg : Config) {storage : Storage} (hrejected : Rejected cfg storage) {s : State}
    (hs : Reached (State.step cfg) (fun s e => InOrder s e ∧ Served cfg s e) (State.boot cfg storage) s) :
    BondRight cfg s ∧
      ∀ e, InOrder s e → ((s.step cfg e).faults = [] ↔ Served cfg s e) ∧
        (Served cfg s e → EraseRight cfg s e (s.step cfg e)) := by
  have hinv : BondInv cfg s := hs.invariant (bondInv_boot hrejected)
    (fun _ _ hinv hguard => hinv.step hguard.1 hguard.2)
  refine ⟨hinv.right, fun e horder => ⟨⟨hinv.served_of_faults, fun hserved => ?_⟩, hinv.erase horder⟩⟩
  exact (hinv.step horder hserved).clean.faults

theorem mouse_sizes : (if true = true then 2 else 1) < 3 ∧ 3 < 4 ∧ 4 ≤ 256 := by decide

def mouseConfig : Config where
  maxPaired := 3
  idMax := 4
  useDefaultId := true
  peerControl := true
  peerControlButton := 7
  peerSelect := true
  peerErase := true
  peerEraseOnStart := true
  donglePeerEnable := true
  donglePeerSelectorId := 0
  donglePeerSelectorPos := 1
  enablePasskey := false
  peers := mouse_sizes.1
  identities := mouse_sizes.2.1
  idMax_le := mouse_sizes.2.2

def eraseRun : List Event :=
  [.settingsReady, .click 7 .long 8000, .click 7 .double 9000, .blePeer .connected 3 29000]

theorem eraseRun_right :
    BondRight mouseConfig (eraseRun.foldl (State.step mouseConfig) (State.boot mouseConfig ⟨none, none⟩)) ∧
      EraseRight mouseConfig
        (eraseRun.foldl (State.step mouseConfig) (State.boot mouseConfig ⟨none, none⟩))
        (.blePeer .secured 3 0)
        ((eraseRun.foldl (State.step mouseConfig) (State.boot mouseConfig ⟨none, none⟩)).step mouseConfig
          (.blePeer .secured 3 0)) := by
  have hguarded : Reached.Guarded (State.step mouseConfig)
      (fun s e => InOrder s e ∧ Served mouseConfig s e) (State.boot mouseConfig ⟨none, none⟩) eraseRun := by
    decide
  have hrejected : Rejected mouseConfig ⟨none, none⟩ := rfl
  have hright := bonds_right mouseConfig hrejected (Reached.run .start hguarded)
  exact ⟨hright.1, (hright.2 (.blePeer .secured 3 0) trivial).2 trivial⟩

/-- Powered down twice before the settings are loaded, the module runs into its assertion. -/
theorem powerDown_twice : ¬ ∀ (cfg : Config) (storage : Storage), Rejected cfg storage → ∀ s,
    Reached (State.step cfg) InOrder (State.boot cfg storage) s → BondRight cfg s := by
  intro h
  have hguarded : Reached.Guarded (State.step mouseConfig) InOrder
      (State.boot mouseConfig ⟨none, none⟩) [.powerDown, .powerDown] := by decide
  have hfaults := (h mouseConfig ⟨none, none⟩ rfl _ (Reached.run .start hguarded)).faults
  exact absurd hfaults (by decide)

end SdkNrf.Desktop.BleBond
