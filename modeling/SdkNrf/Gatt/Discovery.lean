import SdkNrf.Framework.BinarySearch
import SdkNrf.Framework.Reachable

/-!
# The GATT discovery manager

The attributes of a peer, what `bt_gatt_discover` reports of them, and the callbacks of
`subsys/bluetooth/gatt_dm.c`.
-/

namespace SdkNrf.Gatt

inductive Uuid
  | u16 (val : UInt16)
  | u32 (val : UInt32)
  | u128 (val : BitVec 128)
  deriving DecidableEq, Repr

namespace Uuid

def base : BitVec 128 := 0x0000000000001000800000805F9B34FB#128

def to128 : Uuid → BitVec 128
  | .u16 val => base + (BitVec.ofNat 128 val.toNat <<< 96)
  | .u32 val => base + (BitVec.ofNat 128 val.toNat <<< 96)
  | .u128 val => val

/-- `bt_uuid_cmp` finds no difference. -/
def same (a b : Uuid) : Bool := a.to128 = b.to128

def primary : Uuid := .u16 0x2800

def secondary : Uuid := .u16 0x2801

def chrc : Uuid := .u16 0x2803

end Uuid

/-- `struct bt_gatt_chrc`. -/
structure Chrc where
  uuid : Uuid
  valueHandle : UInt16
  properties : UInt8
  deriving DecidableEq, Repr

inductive Value
  | none
  | service (uuid : Uuid) (endHandle : Nat)
  | chrc (c : Chrc)
  deriving DecidableEq, Repr

/-- `struct bt_gatt_attr` of a report, and `struct bt_gatt_dm_attr`. -/
structure Attr where
  handle : Nat
  perm : UInt8
  uuid : Uuid
  value : Value
  deriving DecidableEq, Repr

def Attr.bare (a : Attr) : Attr := { a with value := .none }

def Attr.isChrc (a : Attr) : Bool := a.uuid.same .chrc

structure Service where
  primary : Bool
  handle : Nat
  endHandle : Nat
  perm : UInt8
  uuid : Uuid
  attrs : List Attr
  handle_le : handle ≤ endHandle
  inside : ∀ a ∈ attrs, handle < a.handle ∧ a.handle ≤ endHandle
  ascending : attrs.Pairwise fun a b => a.handle < b.handle
  values : ∀ a ∈ attrs, if a.isChrc then ∃ c, a.value = .chrc c else a.value = .none

def Service.declaration (s : Service) : Attr :=
  ⟨s.handle, s.perm, if s.primary then .primary else .secondary, .service s.uuid s.endHandle⟩

def Service.layout (s : Service) : List Attr := s.declaration :: s.attrs

/-- The services of a peer, in disjoint ascending ranges of handles. -/
structure Database where
  services : List Service
  ascending : services.Pairwise fun s t => s.endHandle < t.handle
  bounded : ∀ s ∈ services, 0 < s.handle ∧ s.endHandle ≤ 0xffff

inductive DiscoverType
  | primary
  | attribute
  | characteristic
  deriving DecidableEq, Repr

def wanted (uuid : Option Uuid) (s : Service) : Bool := uuid.all s.uuid.same

/-- What `bt_gatt_discover` reports, in order. -/
def Database.reports (db : Database) (type : DiscoverType) (uuid : Option Uuid)
    (startHandle endHandle : Nat) : List Attr :=
  match type with
  | .primary => (db.services.filter fun s =>
      s.primary && wanted uuid s && decide (startHandle ≤ s.handle ∧ s.handle ≤ endHandle)).map
        Service.declaration
  | .attribute => ((db.services.flatMap Service.layout).filter fun a =>
      startHandle ≤ a.handle ∧ a.handle ≤ endHandle).map Attr.bare
  | .characteristic => (db.services.flatMap Service.layout).filter fun a =>
      a.isChrc && decide (startHandle ≤ a.handle ∧ a.handle ≤ endHandle)

inductive Outcome
  | completed (attrs : List Attr)
  | serviceNotFound
  | errorFound (err : Int)
  | fault
  deriving DecidableEq, Repr

/-- `struct bt_gatt_dm`, with what is still to be reported before the null attribute, and what the
application has been told. -/
structure Dm where
  uuid : Option Uuid
  startHandle : Nat
  endHandle : Nat
  type : DiscoverType
  attrs : List Attr
  locked : Bool
  releasePending : Bool
  reports : Option (List Attr)
  log : List Outcome
  deriving DecidableEq, Repr

inductive Iter
  | stop
  | cont
  deriving DecidableEq, Repr

def ESRCH : Int := 3

def ENOMEM : Int := 12

def EINVAL : Int := 22

def EALREADY : Int := 120

namespace Dm

/-- `bt_gatt_discover` with the parameters of the instance. -/
def gattDiscover (db : Database) (dm : Dm) : Dm :=
  { dm with reports := some (db.reports dm.type dm.uuid dm.startHandle dm.endHandle) }

def svcAttrMemoryRelease (dm : Dm) : Dm := { dm with attrs := [] }

/-- `attr_store`: the value of the attribute is set later. -/
def attrStore (maxAttrs : Nat) (dm : Dm) (attr : Attr) : Option Dm :=
  if maxAttrs ≤ dm.attrs.length then none else some { dm with attrs := dm.attrs ++ [attr.bare] }

/-- The value in front of the UUID of attribute number `i`. -/
def setValue (dm : Dm) (i : Nat) (v : Value) : Dm :=
  { dm with attrs := dm.attrs.modify i fun a => { a with value := v } }

def attrFindByHandle (attrs : List Attr) (handle : Nat) : Option Nat :=
  searchByKey Attr.handle attrs handle

def discoveryComplete (dm : Dm) : Dm :=
  { dm with releasePending := true, log := dm.log ++ [.completed dm.attrs] }

def discoveryCompleteNotFound (dm : Dm) : Dm :=
  { dm.svcAttrMemoryRelease with locked := false, log := dm.log ++ [.serviceNotFound] }

def discoveryCompleteError (dm : Dm) (err : Int) : Dm :=
  { dm.svcAttrMemoryRelease with locked := false, log := dm.log ++ [.errorFound err] }

def fault (dm : Dm) : Dm := { dm with log := dm.log ++ [.fault] }

def discoveryProcessService (db : Database) (maxAttrs : Nat) (discoverErr : Int) (dm : Dm) :
    Option Attr → Dm × Iter
  | none => (dm.discoveryCompleteNotFound, .stop)
  | some attr =>
    match attr.value with
    | .service uuid endHandle =>
      match dm.attrStore maxAttrs attr with
      | none => (dm.discoveryCompleteError (-ENOMEM), .stop)
      | some dm =>
        if attr.uuid.same .primary = false ∧ attr.uuid.same .secondary = false then (dm.fault, .stop)
        else
          let dm := dm.setValue (dm.attrs.length - 1) (.service uuid endHandle)
          if attr.handle = endHandle then (dm, .cont)
          else
            let dm := { dm with
              uuid := none
              type := .attribute
              startHandle := attr.handle + 1
              endHandle := endHandle }
            if discoverErr ≠ 0 then (dm.discoveryCompleteError (-ENOMEM), .stop)
            else (dm.gattDiscover db, .stop)
    | _ => (dm.fault, .stop)

def discoveryProcessAttribute (db : Database) (maxAttrs : Nat) (discoverErr : Int) (dm : Dm) :
    Option Attr → Dm × Iter
  | none =>
    match dm.attrs with
    | first :: _ :: _ =>
      let dm := { dm with startHandle := first.handle + 1, type := .characteristic }
      if discoverErr ≠ 0 then (dm.discoveryCompleteError discoverErr, .stop)
      else (dm.gattDiscover db, .stop)
    | _ => (dm.discoveryComplete, .stop)
  | some attr =>
    match dm.attrStore maxAttrs attr with
    | none => (dm.discoveryCompleteError (-ENOMEM), .stop)
    | some dm => (dm, .cont)

def discoveryProcessCharacteristic (dm : Dm) : Option Attr → Dm × Iter
  | none => (dm.discoveryComplete, .stop)
  | some attr =>
    if attr.isChrc = false then (dm.fault, .stop)
    else
      match attrFindByHandle dm.attrs attr.handle with
      | none => (dm.discoveryCompleteError (-ESRCH), .stop)
      | some i =>
        -- There is room for the value only in front of a characteristic's UUID.
        if (dm.attrs.getD i attr).isChrc then (dm.setValue i attr.value, .cont) else (dm.fault, .stop)

def discoveryCallback (db : Database) (maxAttrs : Nat) (discoverErr : Int) (dm : Dm)
    (attr : Option Attr) : Dm × Iter :=
  match dm.type with
  | .primary => dm.discoveryProcessService db maxAttrs discoverErr attr
  | .attribute => dm.discoveryProcessAttribute db maxAttrs discoverErr attr
  | .characteristic => dm.discoveryProcessCharacteristic attr

def report (db : Database) (maxAttrs : Nat) (discoverErr : Int) (dm : Dm) : Dm :=
  match dm.reports with
  | none => dm
  | some [] => (discoveryCallback db maxAttrs discoverErr { dm with reports := none } none).1
  | some (attr :: rest) =>
    let r := discoveryCallback db maxAttrs discoverErr { dm with reports := none } (some attr)
    if r.2 = .cont then { r.1 with reports := some rest } else r.1

/-- `bt_gatt_dm_start` of an instance that is not locked. -/
def start (db : Database) (discoverErr : Int) (svcUuid : Option Uuid) : Except Int Dm :=
  match svcUuid with
  | some (.u32 _) => .error (-EINVAL)
  | _ =>
    let dm : Dm := ⟨svcUuid, 0x0001, 0xffff, .primary, [], true, false, none, []⟩
    if discoverErr ≠ 0 then .error discoverErr else .ok (dm.gattDiscover db)

/-- `bt_gatt_dm_continue` after a start. -/
def dmContinue (db : Database) (discoverErr : Int) (dm : Dm) : Dm × Int :=
  if dm.uuid.isSome then (dm, -EINVAL)
  else if dm.locked then (dm, -EALREADY)
  else if dm.endHandle = 0xffff then (discoveryCompleteNotFound { dm with locked := true }, 0)
  else
    let dm := { dm with
      locked := true
      startHandle := dm.endHandle + 1
      endHandle := 0xffff
      type := .primary }
    if discoverErr ≠ 0 then ({ dm with locked := false }, discoverErr) else (dm.gattDiscover db, 0)

def dataRelease (dm : Dm) : Dm × Int :=
  if dm.releasePending then
    ({ dm.svcAttrMemoryRelease with releasePending := false, locked := false }, 0)
  else (dm, -EALREADY)

end Dm

/-- Reports, with the result of a call of `bt_gatt_discover` in the callback, and calls of the
application. -/
inductive Event
  | report (discoverErr : Int)
  | dataRelease
  | dmContinue (discoverErr : Int)
  deriving DecidableEq, Repr

def Dm.step (db : Database) (maxAttrs : Nat) (dm : Dm) : Event → Dm
  | .report discoverErr => dm.report db maxAttrs discoverErr
  | .dataRelease => dm.dataRelease.1
  | .dmContinue discoverErr => (dm.dmContinue db discoverErr).1

end SdkNrf.Gatt
