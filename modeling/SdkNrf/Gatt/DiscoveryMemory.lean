import SdkNrf.Gatt.Discovery

/-!
# The lock and the memory of the discovery manager

The calls and callbacks of `subsys/bluetooth/gatt_dm.c` with the chunks that they allocate.
-/

namespace SdkNrf.GattMemory

open Gatt (Uuid Attr Value DiscoverType Iter ESRCH ENOMEM EINVAL EALREADY)

inductive Mark
  | accepted
  | completed
  | notFound
  | error
  | released
  deriving DecidableEq, Repr

/-- `struct bt_gatt_dm`, with the connection whose discovery is going on, the chunks that are allocated, the
number of the next one, the writes through a null pointer, and what the application has seen. -/
structure Dm where
  conn : Nat
  callback : Bool
  uuid : Option Uuid
  startHandle : Nat
  endHandle : Nat
  type : DiscoverType
  attrs : List Attr
  locked : Bool
  releasePending : Bool
  chunkList : List Nat
  curChunkLen : Nat
  discovering : Option Nat
  allocated : List Nat
  fresh : Nat
  nullWrites : Nat
  marks : List Mark
  deriving DecidableEq, Repr

/-- The results of `k_malloc` in `attr_store` and in `uuid_store`, if they call it, and that of
`bt_gatt_discover`. -/
structure Results where
  attrMalloc : Bool
  uuidMalloc : Bool
  discoverErr : Int
  deriving DecidableEq, Repr

def EFAULT : Int := 14

def chunkDataSize : Nat := 120

/-- `sizeof(struct bt_gatt_service_val)`, and `sizeof(struct bt_gatt_chrc)`. -/
def valueSize : Nat := 8

def getUuidSize : Uuid → Nat
  | .u16 _ => 4
  | .u32 _ => 8
  | .u128 _ => 17

def refusedUuid : Option Uuid → Bool
  | some (.u32 _) => true
  | _ => false

namespace Dm

def mark (dm : Dm) (m : Mark) : Dm := { dm with marks := dm.marks ++ [m] }

/-- `user_data_alloc`, and whether it returns memory. -/
def userDataAlloc (dm : Dm) (malloc : Bool) (len : Nat) : Dm × Bool :=
  let len := (len + 3) / 4 * 4
  if dm.chunkList = [] ∨ chunkDataSize < dm.curChunkLen + len then
    if malloc = false then (dm, false)
    else ({ dm with
      chunkList := dm.chunkList ++ [dm.fresh]
      allocated := dm.allocated ++ [dm.fresh]
      fresh := dm.fresh + 1
      curChunkLen := len }, true)
  else ({ dm with curChunkLen := dm.curChunkLen + len }, true)

/-- `svc_attr_memory_release`: each chunk of the list is freed. -/
def svcAttrMemoryRelease (dm : Dm) : Dm :=
  { dm with attrs := [], allocated := dm.allocated.diff dm.chunkList, chunkList := [], curChunkLen := 0 }

/-- `attr_store`, and whether the attribute is stored. -/
def attrStore (maxAttrs : Nat) (dm : Dm) (malloc : Bool) (attr : Attr) (additionalLen : Nat) : Dm × Bool :=
  if maxAttrs ≤ dm.attrs.length then (dm, false)
  else
    let (dm, stored) := dm.userDataAlloc malloc (additionalLen + getUuidSize attr.uuid)
    if stored then ({ dm with attrs := dm.attrs ++ [attr.bare] }, true) else (dm, false)

/-- `uuid_store`, and whether it returns memory: the UUID is copied in any case. -/
def uuidStore (dm : Dm) (malloc : Bool) (uuid : Uuid) : Dm × Bool :=
  let (dm, stored) := dm.userDataAlloc malloc (getUuidSize uuid)
  if stored then (dm, true) else ({ dm with nullWrites := dm.nullWrites + 1 }, false)

def discoveryComplete (dm : Dm) : Dm := { dm with releasePending := true }.mark .completed

def discoveryCompleteNotFound (dm : Dm) : Dm :=
  { dm.svcAttrMemoryRelease with locked := false }.mark .notFound

def discoveryCompleteError (dm : Dm) : Dm := { dm.svcAttrMemoryRelease with locked := false }.mark .error

/-- `bt_gatt_discover` with the parameters of the instance. -/
def gattDiscover (dm : Dm) : Dm := { dm with discovering := some dm.conn }

/-- `discovery_process_service`. What is not the attribute of a service fails an assertion. -/
def discoveryProcessService (maxAttrs : Nat) (r : Results) (dm : Dm) : Option Attr → Dm × Iter
  | none => (dm.discoveryCompleteNotFound, .stop)
  | some attr =>
    match attr.value with
    | .service uuid endHandle =>
      let (dm, stored) := dm.attrStore maxAttrs r.attrMalloc attr valueSize
      if attr.uuid.same .primary = false ∧ attr.uuid.same .secondary = false then (dm, .stop)
      else if stored = false then (dm.discoveryCompleteError, .stop)
      else
        let (dm, stored) := dm.uuidStore r.uuidMalloc uuid
        if stored = false then (dm.discoveryCompleteError, .stop)
        else if attr.handle = endHandle then (dm, .cont)
        else
          let dm := { dm with uuid := none, type := .attribute, startHandle := attr.handle + 1, endHandle }
          if r.discoverErr ≠ 0 then (dm.discoveryCompleteError, .stop) else (dm.gattDiscover, .stop)
    | _ => (dm, .stop)

def discoveryProcessAttribute (maxAttrs : Nat) (r : Results) (dm : Dm) : Option Attr → Dm × Iter
  | none =>
    match dm.attrs with
    | first :: _ :: _ =>
      let dm := { dm with startHandle := first.handle + 1, type := .characteristic }
      if r.discoverErr ≠ 0 then (dm.discoveryCompleteError, .stop) else (dm.gattDiscover, .stop)
    | _ => (dm.discoveryComplete, .stop)
  | some attr =>
    let (dm, stored) := dm.attrStore maxAttrs r.attrMalloc attr (if attr.isChrc then valueSize else 0)
    if stored = false then (dm.discoveryCompleteError, .stop) else (dm, .cont)

/-- `discovery_process_characteristic`. What is not the attribute of a characteristic fails an assertion, or
there is no room for its value. -/
def discoveryProcessCharacteristic (r : Results) (dm : Dm) : Option Attr → Dm × Iter
  | none => (dm.discoveryComplete, .stop)
  | some attr =>
    match attr.value with
    | .chrc c =>
      match Gatt.Dm.attrFindByHandle dm.attrs attr.handle with
      | none => (dm.discoveryCompleteError, .stop)
      | some i =>
        if attr.isChrc = false ∨ (dm.attrs.getD i attr).isChrc = false then (dm, .stop)
        else
          let (dm, stored) := dm.uuidStore r.uuidMalloc c.uuid
          if stored = false then (dm.discoveryCompleteError, .stop) else (dm, .cont)
    | _ => (dm, .stop)

/-- `discovery_callback` for a connection. -/
def discoveryCallback (maxAttrs : Nat) (r : Results) (dm : Dm) (conn : Nat) (attr : Option Attr) :
    Dm × Iter :=
  if conn ≠ dm.conn then (dm.discoveryCompleteError, .stop)
  else
    match dm.type with
    | .primary => dm.discoveryProcessService maxAttrs r attr
    | .attribute => dm.discoveryProcessAttribute maxAttrs r attr
    | .characteristic => dm.discoveryProcessCharacteristic r attr

/-- The stack reports an attribute of a discovery, or its end. The discovery goes on if the callback says so,
or with a new one that is started in the callback. -/
def report (maxAttrs : Nat) (r : Results) (dm : Dm) (attr : Option Attr) : Dm :=
  match dm.discovering with
  | none => dm
  | some conn =>
    let (dm, iter) := discoveryCallback maxAttrs r { dm with discovering := none } conn attr
    if iter = .cont then { dm with discovering := some conn } else dm

/-- `bt_gatt_dm_start`; `cb` says that the callbacks are not null. -/
def start (r : Results) (dm : Dm) (conn : Nat) (svcUuid : Option Uuid) (cb : Bool) : Dm × Int :=
  if refusedUuid svcUuid then (dm, -EINVAL)
  else if cb = false then (dm, -EINVAL)
  else if dm.locked then (dm, -EALREADY)
  else
    let dm := { dm with
      locked := true
      conn
      callback := true
      attrs := []
      chunkList := []
      curChunkLen := 0 }
    let dm :=
      match svcUuid with
      | some uuid =>
        let (dm, stored) := dm.uuidStore r.uuidMalloc uuid
        { dm with uuid := if stored then some uuid else none }
      | none => { dm with uuid := none }
    let dm := { dm with startHandle := 0x0001, endHandle := 0xffff, type := .primary }
    if r.discoverErr ≠ 0 then ({ dm with locked := false }, r.discoverErr)
    else ((dm.mark .accepted).gattDiscover, 0)

def dmContinue (r : Results) (dm : Dm) : Dm × Int :=
  if dm.callback = false then (dm, -EINVAL)
  else if dm.uuid.isSome then (dm, -EINVAL)
  else if dm.locked then (dm, -EALREADY)
  else
    let dm := { dm with locked := true }
    if dm.endHandle = 0xffff then ((dm.mark .accepted).discoveryCompleteNotFound, 0)
    else
      let dm := { dm with startHandle := dm.endHandle + 1, endHandle := 0xffff, type := .primary }
      if r.discoverErr ≠ 0 then ({ dm with locked := false }, r.discoverErr)
      else ((dm.mark .accepted).gattDiscover, 0)

def dataRelease (dm : Dm) : Dm × Int :=
  if dm.releasePending = false then (dm, -EALREADY)
  else ({ ({ dm with releasePending := false } : Dm).svcAttrMemoryRelease with
    locked := false }.mark .released, 0)

def init : Dm where
  conn := 0
  callback := false
  uuid := none
  startHandle := 0
  endHandle := 0
  type := .primary
  attrs := []
  locked := false
  releasePending := false
  chunkList := []
  curChunkLen := 0
  discovering := none
  allocated := []
  fresh := 0
  nullWrites := 0
  marks := []

end Dm

inductive Event
  | start (conn : Nat) (svcUuid : Option Uuid) (cb : Bool) (r : Results)
  | dmContinue (r : Results)
  | dataRelease
  | report (attr : Option Attr) (r : Results)
  deriving DecidableEq, Repr

def Dm.step (maxAttrs : Nat) (dm : Dm) : Event → Dm
  | .start conn svcUuid cb r => (dm.start r conn svcUuid cb).1
  | .dmContinue r => (dm.dmContinue r).1
  | .dataRelease => dm.dataRelease.1
  | .report attr r => dm.report maxAttrs r attr

def OfService (attr : Attr) : Prop :=
  (attr.uuid.same .primary = true ∨ attr.uuid.same .secondary = true) ∧
    ∃ uuid endHandle, attr.value = .service uuid endHandle

def OfCharacteristic (attrs : List Attr) (attr : Attr) : Prop :=
  attr.isChrc = true ∧ (∃ c, attr.value = .chrc c) ∧
    ∀ i, Gatt.Dm.attrFindByHandle attrs attr.handle = some i → (attrs.getD i attr).isChrc = true

/-- What the stack keeps to: services are reported as services, and characteristics as
characteristics. -/
def Proper (dm : Dm) : Event → Prop
  | .report (some attr) _ =>
    match dm.type with
    | .primary => OfService attr
    | .attribute => True
    | .characteristic => OfCharacteristic dm.attrs attr
  | _ => True

/-- Memory for a UUID is there when it is asked for, and a discovery for a UUID can be started. -/
def Served : Event → Prop
  | .start _ svcUuid _ r => svcUuid.isSome → r.uuidMalloc = true ∧ r.discoverErr = 0
  | .dmContinue _ => True
  | .dataRelease => True
  | .report _ r => r.uuidMalloc = true

inductive Mode
  | idle
  | running
  | done
  deriving DecidableEq, Repr

def Mode.advance : Mode → Mark → Option Mode
  | .idle, .accepted => some .running
  | .running, .completed => some .done
  | .running, .notFound => some .idle
  | .running, .error => some .idle
  | .done, .released => some .idle
  | _, _ => none

/-- The mode after all that has been seen: each accepted start or continue has had one callback, or
is running. -/
def replay (marks : List Mark) : Option Mode := marks.foldlM Mode.advance .idle

/-- The lock, the discovery of the stack and the pending release are what has been seen; the chunks
on the list are those that are allocated, and there are none without the lock; nothing was written
through a null pointer. -/
structure Disciplined (dm : Dm) : Prop where
  mode : ∃ mode, replay dm.marks = some mode ∧ (dm.locked = true ↔ mode ≠ .idle) ∧
    (dm.discovering.isSome ↔ mode = .running) ∧ (dm.releasePending = true ↔ mode = .done)
  listed : dm.allocated = dm.chunkList
  empty : dm.locked = false → dm.chunkList = []
  noNullWrite : dm.nullWrites = 0

structure Inv (dm : Dm) : Prop extends Disciplined dm where
  conn : ∀ conn, dm.discovering = some conn → conn = dm.conn

structure Busy (dm : Dm) : Prop where
  locked : dm.locked = true
  pending : dm.releasePending = false
  replay : replay dm.marks = some .running
  listed : dm.allocated = dm.chunkList
  noNullWrite : dm.nullWrites = 0
  discovering : dm.discovering = none

theorem replay_append (marks : List Mark) (m : Mark) :
    replay (marks ++ [m]) = (replay marks).bind (·.advance m) := by
  rw [replay, List.foldlM_append, replay]
  cases marks.foldlM Mode.advance .idle with
  | none => rfl
  | some mode => simp

section Memory

variable {dm dm' : Dm} {malloc : Bool} {len maxAttrs additionalLen : Nat} {attr : Attr} {uuid : Uuid}

structure Grown (dm dm' : Dm) : Prop where
  conn : dm'.conn = dm.conn
  locked : dm'.locked = dm.locked
  pending : dm'.releasePending = dm.releasePending
  discovering : dm'.discovering = dm.discovering
  marks : dm'.marks = dm.marks
  listed : dm.allocated = dm.chunkList → dm'.allocated = dm'.chunkList
  nullWrites : dm'.nullWrites = dm.nullWrites

theorem Grown.refl (dm : Dm) : Grown dm dm := ⟨rfl, rfl, rfl, rfl, rfl, id, rfl⟩

theorem Grown.busy (h : Grown dm dm') (hbusy : Busy dm) : Busy dm' where
  locked := h.locked.trans hbusy.locked
  pending := h.pending.trans hbusy.pending
  replay := by rw [h.marks, hbusy.replay]
  listed := h.listed hbusy.listed
  noNullWrite := h.nullWrites.trans hbusy.noNullWrite
  discovering := h.discovering.trans hbusy.discovering

theorem userDataAlloc_grown (dm : Dm) (malloc : Bool) (len : Nat) :
    Grown dm (dm.userDataAlloc malloc len).1 := by
  rw [Dm.userDataAlloc]
  split
  · split
    · exact Grown.refl dm
    · refine ⟨rfl, rfl, rfl, rfl, rfl, fun h => ?_, rfl⟩
      dsimp only
      rw [h]
  · exact ⟨rfl, rfl, rfl, rfl, rfl, id, rfl⟩

theorem userDataAlloc_true (dm : Dm) (len : Nat) : (dm.userDataAlloc true len).2 = true := by
  rw [Dm.userDataAlloc]
  split
  · rfl
  · rfl

theorem attrStore_grown (maxAttrs : Nat) (dm : Dm) (malloc : Bool) (attr : Attr) (additionalLen : Nat) :
    Grown dm (dm.attrStore maxAttrs malloc attr additionalLen).1 := by
  have halloc := userDataAlloc_grown dm malloc (additionalLen + getUuidSize attr.uuid)
  rw [Dm.attrStore]
  split
  · exact Grown.refl dm
  · dsimp only
    split
    · exact ⟨halloc.conn, halloc.locked, halloc.pending, halloc.discovering, halloc.marks, halloc.listed,
        halloc.nullWrites⟩
    · exact halloc

theorem uuidStore_true (dm : Dm) (uuid : Uuid) :
    (dm.uuidStore true uuid).2 = true ∧ Grown dm (dm.uuidStore true uuid).1 := by
  rw [Dm.uuidStore]
  dsimp only
  rw [if_pos (userDataAlloc_true dm (getUuidSize uuid))]
  exact ⟨rfl, userDataAlloc_grown dm true (getUuidSize uuid)⟩

theorem diff_self (l : List Nat) : l.diff l = [] := by
  induction l with
  | nil => rfl
  | cons a l ih => rw [List.diff_cons, List.erase_cons_head, ih]

theorem release_allocated (h : dm.allocated = dm.chunkList) : dm.svcAttrMemoryRelease.allocated = [] := by
  rw [Dm.svcAttrMemoryRelease, h]
  exact diff_self dm.chunkList

end Memory

section Callbacks

variable {dm : Dm} {maxAttrs : Nat} {r : Results} {attr : Option Attr}

/-- The memory is released, and what is seen ends the discovery. -/
theorem Busy.closed (h : Busy dm) {m : Mark} (hm : Mode.running.advance m = some .idle) :
    Inv ({ dm.svcAttrMemoryRelease with locked := false }.mark m) where
  mode := by
    refine ⟨.idle, ?_, by simp [Dm.mark], ?_, ?_⟩
    · rw [Dm.mark, replay_append]
      exact (congrArg (Option.bind · _) h.replay).trans hm
    · simp [Dm.mark, Dm.svcAttrMemoryRelease, h.discovering]
    · simp [Dm.mark, Dm.svcAttrMemoryRelease, h.pending]
  listed := release_allocated h.listed
  empty := fun _ => rfl
  noNullWrite := h.noNullWrite
  conn := fun conn hconn => by
    have hnone : dm.discovering = some conn := hconn
    rw [h.discovering] at hnone
    cases hnone

theorem Busy.notFound (h : Busy dm) : Inv dm.discoveryCompleteNotFound := h.closed rfl

theorem Busy.error (h : Busy dm) : Inv dm.discoveryCompleteError := h.closed rfl

theorem Busy.complete (h : Busy dm) : Inv dm.discoveryComplete where
  mode := by
    refine ⟨.done, ?_, by simp [Dm.discoveryComplete, Dm.mark, h.locked], ?_,
      by simp [Dm.discoveryComplete, Dm.mark]⟩
    · rw [Dm.discoveryComplete, Dm.mark, replay_append]
      exact congrArg (Option.bind · _) h.replay
    · simp [Dm.discoveryComplete, Dm.mark, h.discovering]
  listed := h.listed
  empty := fun hlocked => by
    rw [show dm.discoveryComplete.locked = dm.locked from rfl, h.locked] at hlocked
    cases hlocked
  noNullWrite := h.noNullWrite
  conn := fun conn hconn => by
    have hnone : dm.discovering = some conn := hconn
    rw [h.discovering] at hnone
    cases hnone

theorem Busy.goOn (h : Busy dm) {conn : Nat} (hconn : conn = dm.conn) :
    Inv { dm with discovering := some conn } where
  mode := ⟨.running, h.replay, by simp [h.locked], by simp, by simp [h.pending]⟩
  listed := h.listed
  empty := fun hlocked => by
    rw [show ({ dm with discovering := some conn } : Dm).locked = dm.locked from rfl, h.locked] at hlocked
    cases hlocked
  noNullWrite := h.noNullWrite
  conn := fun other hother => (Option.some_inj.mp hother).symm.trans hconn

theorem Busy.withParams (h : Busy dm) (uuid : Option Uuid) (startHandle endHandle : Nat)
    (type : DiscoverType) :
    Busy { dm with uuid, startHandle, endHandle, type } :=
  ⟨h.locked, h.pending, h.replay, h.listed, h.noNullWrite, h.discovering⟩

def Returns (dm : Dm) (res : Dm × Iter) : Prop :=
  (res.2 = .cont ∧ Busy res.1 ∧ res.1.conn = dm.conn) ∨ (res.2 = .stop ∧ Inv res.1)

theorem service_returns (h : Busy dm) (hserved : r.uuidMalloc = true)
    (hproper : ∀ a, attr = some a → OfService a) :
    Returns dm (dm.discoveryProcessService maxAttrs r attr) := by
  cases attr with
  | none => exact .inr ⟨rfl, h.notFound⟩
  | some a =>
    obtain ⟨hkind, uuid, endHandle, hvalue⟩ := hproper a rfl
    have hstore := attrStore_grown maxAttrs dm r.attrMalloc a valueSize
    rw [Dm.discoveryProcessService, hvalue]
    dsimp only
    rw [hserved]
    obtain ⟨htrue, huuid⟩ := uuidStore_true (dm.attrStore maxAttrs r.attrMalloc a valueSize).1 uuid
    rw [htrue, if_neg (by rcases hkind with hk | hk <;> simp [hk])]
    split
    · exact .inr ⟨rfl, (hstore.busy h).error⟩
    · rw [if_neg (by decide)]
      have hbusy := huuid.busy (hstore.busy h)
      split
      · exact .inl ⟨rfl, hbusy, huuid.conn.trans hstore.conn⟩
      · have hparams := hbusy.withParams none (a.handle + 1) endHandle .attribute
        split
        · exact .inr ⟨rfl, hparams.error⟩
        · exact .inr ⟨rfl, hparams.goOn rfl⟩

theorem attribute_returns (h : Busy dm) : Returns dm (dm.discoveryProcessAttribute maxAttrs r attr) := by
  cases attr with
  | none =>
    rw [Dm.discoveryProcessAttribute]
    split
    next first _ _ _ =>
      have hparams := h.withParams dm.uuid (first.handle + 1) dm.endHandle .characteristic
      dsimp only
      split
      · exact .inr ⟨rfl, hparams.error⟩
      · exact .inr ⟨rfl, hparams.goOn rfl⟩
    · exact .inr ⟨rfl, h.complete⟩
  | some a =>
    rw [Dm.discoveryProcessAttribute]
    generalize (if a.isChrc then valueSize else 0) = len
    have hstore := attrStore_grown maxAttrs dm r.attrMalloc a len
    dsimp only
    split
    · exact .inr ⟨rfl, (hstore.busy h).error⟩
    · exact .inl ⟨rfl, hstore.busy h, hstore.conn⟩

theorem characteristic_returns (h : Busy dm) (hserved : r.uuidMalloc = true)
    (hproper : ∀ a, attr = some a → OfCharacteristic dm.attrs a) :
    Returns dm (dm.discoveryProcessCharacteristic r attr) := by
  cases attr with
  | none => exact .inr ⟨rfl, h.complete⟩
  | some a =>
    obtain ⟨hchrc, ⟨c, hvalue⟩, hknown⟩ := hproper a rfl
    obtain ⟨htrue, huuid⟩ := uuidStore_true dm c.uuid
    rw [Dm.discoveryProcessCharacteristic, hvalue]
    dsimp only
    split
    · exact .inr ⟨rfl, h.error⟩
    next i hfind =>
      rw [hchrc, hknown i hfind, if_neg (by decide), hserved, htrue]
      exact .inl ⟨rfl, huuid.busy h, huuid.conn⟩

theorem callback_returns (maxAttrs : Nat) (h : Busy dm) (hserved : r.uuidMalloc = true)
    (hproper : Proper dm (.report attr r)) (conn : Nat) (hconn : conn = dm.conn) :
    Returns dm (dm.discoveryCallback maxAttrs r conn attr) := by
  rw [Dm.discoveryCallback, if_neg (not_not.mpr hconn)]
  match htype : dm.type with
  | .primary =>
    apply service_returns h hserved
    rintro a rfl
    simpa only [Proper, htype] using hproper
  | .attribute => exact attribute_returns h
  | .characteristic =>
    apply characteristic_returns h hserved
    rintro a rfl
    simpa only [Proper, htype] using hproper

end Callbacks

section Steps

variable {dm : Dm} {maxAttrs : Nat} {r : Results}

theorem Inv.busy (h : Inv dm) {conn : Nat} (hdiscovering : dm.discovering = some conn) :
    Busy { dm with discovering := none } := by
  obtain ⟨mode, hreplay, hlocked, hrunning, hpending⟩ := h.mode
  obtain rfl := hrunning.mp (by rw [hdiscovering]; rfl)
  refine ⟨hlocked.mpr (by decide), ?_, hreplay, h.listed, h.noNullWrite, rfl⟩
  exact Bool.eq_false_iff.mpr fun hp => absurd (hpending.mp hp) (by decide)

theorem report_inv (h : Inv dm) (attr : Option Attr) (hserved : r.uuidMalloc = true)
    (hproper : Proper dm (.report attr r)) : Inv (dm.report maxAttrs r attr) := by
  rw [Dm.report]
  cases hdiscovering : dm.discovering with
  | none => exact h
  | some conn =>
    have hconn := h.conn conn hdiscovering
    dsimp only
    rcases callback_returns maxAttrs (h.busy hdiscovering) hserved hproper conn hconn with
      ⟨hcont, hbusy, hsame⟩ | ⟨hstop, hinv⟩
    · rw [if_pos hcont]
      exact hbusy.goOn (hconn.trans hsame.symm)
    · rw [if_neg (by rw [hstop]; decide)]
      exact hinv

theorem Inv.idle (h : Inv dm) (hlocked : dm.locked = false) :
    replay dm.marks = some .idle ∧ dm.discovering = none ∧ dm.releasePending = false ∧ dm.chunkList = [] ∧
      dm.allocated = [] := by
  obtain ⟨mode, hreplay, hlock, hrunning, hpending⟩ := h.mode
  have hidle : mode = .idle := by
    by_contra hne
    rw [hlock.mpr hne] at hlocked
    cases hlocked
  subst hidle
  refine ⟨hreplay, ?_, ?_, h.empty hlocked, by rw [h.listed, h.empty hlocked]⟩
  · rw [← Option.not_isSome_iff_eq_none, hrunning]
    decide
  · exact Bool.eq_false_iff.mpr fun hp => absurd (hpending.mp hp) (by decide)

theorem busy_of_accepted (hlocked : dm.locked = true) (hpending : dm.releasePending = false)
    (hreplay : replay dm.marks = some .idle) (hlisted : dm.allocated = dm.chunkList)
    (hnull : dm.nullWrites = 0) (hdiscovering : dm.discovering = none) : Busy (dm.mark .accepted) where
  locked := hlocked
  pending := hpending
  replay := by
    rw [Dm.mark, replay_append]
    exact congrArg (Option.bind · _) hreplay
  listed := hlisted
  noNullWrite := hnull
  discovering := hdiscovering

theorem inv_of_idle (hreplay : replay dm.marks = some .idle) (hlocked : dm.locked = false)
    (hnone : dm.discovering = none) (hpending : dm.releasePending = false) (hlist : dm.chunkList = [])
    (halloc : dm.allocated = []) (hnull : dm.nullWrites = 0) : Inv dm where
  mode := ⟨.idle, hreplay, by simp [hlocked], by simp [hnone], by simp [hpending]⟩
  listed := halloc.trans hlist.symm
  empty := fun _ => hlist
  noNullWrite := hnull
  conn := fun conn hconn => by
    rw [hnone] at hconn
    cases hconn

theorem dmContinue_inv (h : Inv dm) : Inv (dm.dmContinue r).1 := by
  rw [Dm.dmContinue]
  split
  · exact h
  split
  · exact h
  split
  · exact h
  next hfree =>
    rw [Bool.not_eq_true] at hfree
    obtain ⟨hreplay, hnone, hpending, hlist, halloc⟩ := h.idle hfree
    have hlisted : dm.allocated = dm.chunkList := h.listed
    dsimp only
    split
    · apply Busy.notFound
      exact busy_of_accepted rfl hpending hreplay hlisted h.noNullWrite hnone
    · split
      · exact inv_of_idle hreplay rfl hnone hpending hlist halloc h.noNullWrite
      · apply Busy.goOn _ rfl
        exact busy_of_accepted rfl hpending hreplay hlisted h.noNullWrite hnone

theorem dataRelease_inv (h : Inv dm) : Inv dm.dataRelease.1 := by
  rw [Dm.dataRelease]
  split
  · exact h
  next hpending =>
    obtain ⟨mode, hreplay, hlocked, hrunning, hdone⟩ := h.mode
    obtain rfl := hdone.mp (by simpa using hpending)
    refine inv_of_idle ?_ rfl ?_ rfl rfl (release_allocated h.listed) h.noNullWrite
    · rw [Dm.mark, replay_append]
      exact congrArg (Option.bind · _) hreplay
    · change dm.discovering = none
      rw [← Option.not_isSome_iff_eq_none, hrunning]
      decide

theorem start_inv (h : Inv dm) (conn : Nat) (svcUuid : Option Uuid) (cb : Bool)
    (hserved : svcUuid.isSome → r.uuidMalloc = true ∧ r.discoverErr = 0) :
    Inv (dm.start r conn svcUuid cb).1 := by
  rw [Dm.start]
  split
  · exact h
  split
  · exact h
  split
  · exact h
  next hfree =>
    rw [Bool.not_eq_true] at hfree
    obtain ⟨hreplay, hnone, hpending, -, halloc⟩ := h.idle hfree
    cases svcUuid with
    | none =>
      dsimp only
      split
      · exact inv_of_idle hreplay rfl hnone hpending rfl halloc h.noNullWrite
      · apply Busy.goOn _ rfl
        exact busy_of_accepted rfl hpending hreplay halloc h.noNullWrite hnone
    | some uuid =>
      obtain ⟨hmalloc, herr⟩ := hserved rfl
      obtain ⟨htrue, hgrown⟩ := uuidStore_true
        { dm with locked := true, conn, callback := true, attrs := [], chunkList := [], curChunkLen := 0 } uuid
      dsimp only
      rw [hmalloc, if_neg (not_not.mpr herr)]
      apply Busy.goOn _ rfl
      refine busy_of_accepted hgrown.locked (hgrown.pending.trans hpending) ?_ (hgrown.listed halloc)
        (hgrown.nullWrites.trans h.noNullWrite) (hgrown.discovering.trans hnone)
      exact (congrArg replay hgrown.marks).trans hreplay

theorem inv_init : Inv Dm.init := inv_of_idle rfl rfl rfl rfl rfl rfl rfl

theorem step_inv (h : Inv dm) (e : Event) (hguard : Proper dm e ∧ Served e) : Inv (dm.step maxAttrs e) := by
  cases e with
  | start conn svcUuid cb r => exact start_inv h conn svcUuid cb hguard.2
  | dmContinue r => exact dmContinue_inv h
  | dataRelease => exact dataRelease_inv h
  | report attr r => exact report_inv h attr hguard.2 hguard.1

end Steps

/-- In every state that is reached the lock, the callbacks and the chunks are in order, as long as memory for
UUIDs is there and a discovery for a UUID can be started. -/
theorem reached_disciplined (maxAttrs : Nat) {dm : Dm}
    (h : Reached (Dm.step maxAttrs) (fun dm e => Proper dm e ∧ Served e) Dm.init dm) : Disciplined dm :=
  (h.invariant inv_init fun _ e hinv hguard => step_inv hinv e hguard).toDisciplined

section Battery

def failedStart : Event := .start 1 (some (.u16 0x180f)) true ⟨true, true, -ENOMEM⟩

/-- The chunk for the UUID stays although the instance is not locked any more. -/
theorem failedStart_keepsChunk : ¬ Disciplined (Dm.init.step 10 failedStart) := by
  intro h
  exact absurd (h.empty (by decide)) (by decide)

/-- The next start forgets it. -/
example : ((Dm.init.step 10 failedStart).step 10 (.start 1 none true ⟨true, true, 0⟩)).chunkList = [] ∧
    ((Dm.init.step 10 failedStart).step 10 (.start 1 none true ⟨true, true, 0⟩)).allocated = [0] := by decide

theorem search_disciplined : Disciplined
    (Dm.init.step 10 (.start 1 (some (.u16 0x180f)) true ⟨true, true, 0⟩)) :=
  reached_disciplined 10 (.next .start _ ⟨trivial, fun _ => ⟨rfl, rfl⟩⟩)

end Battery

end SdkNrf.GattMemory
