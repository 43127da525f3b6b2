import Mathlib

/-!
# Power level and lightness servers

The Generic Power Level server (`gen_plvl_srv.c`) and the Light Lightness server (`lightness_srv.c`) keep the
same state and change it in the same way.
-/

namespace SdkNrf.Mesh

inductive LightRepr
  | actual
  | linear
  deriving DecidableEq, Repr

/-- `lightness_sqrt32`: the square root by binary search from the highest bit. -/
def lightnessSqrt32 (val : Nat) : Nat :=
  if val = 0 then 0
  else (List.range 16).reverse.foldl (fun factor i =>
    if val < (factor ||| 2 ^ i) * (factor ||| 2 ^ i) then factor else factor ||| 2 ^ i) 0

def linearToActual (linear : UInt16) : UInt16 := .ofNat (lightnessSqrt32 (65535 * linear.toNat))

def actualToLinear (actual : UInt16) : UInt16 :=
  .ofNat ((actual.toNat * actual.toNat + 65534) / 65535)

/-- `repr_to_light`; `user` is the configured representation. -/
def reprToLight (user repr : LightRepr) (val : UInt16) : UInt16 :=
  match user, repr with
  | .linear, .actual => actualToLinear val
  | .actual, .linear => linearToActual val
  | _, _ => val

def lightToRepr (user repr : LightRepr) (light : UInt16) : UInt16 :=
  match user, repr with
  | .linear, .actual => linearToActual light
  | .actual, .linear => actualToLinear light
  | _, _ => light

structure LevelRange where
  min : UInt16
  max : UInt16
  deriving DecidableEq, Repr

/-- `struct bt_mesh_model_transition`, in milliseconds. -/
structure Transition where
  time : Nat
  delay : Nat
  deriving DecidableEq, Repr

/-- The level that is handed to `power_set` or `light_set`; without a transition the default one
is used. -/
structure LevelSet where
  lvl : UInt16
  transition : Option Transition
  deriving DecidableEq, Repr

structure LevelSettings where
  range : LevelRange
  defaultLevel : UInt16
  last : UInt16
  isOn : Bool
  deriving DecidableEq, Repr

structure LevelSrv extends LevelSettings where
  stored : Option LevelSettings
  deriving DecidableEq, Repr

def LevelSrv.reset : LevelSrv where
  range := ⟨0, 0xFFFF⟩
  defaultLevel := 0
  last := 0xFFFF
  isOn := false
  stored := none

structure LevelModel where
  /-- From the representation of a message to the configured one. -/
  toLevel : LightRepr → UInt16 → UInt16
  /-- From the configured representation to the one of the generic level. -/
  ofLevel : UInt16 → UInt16
  /-- The time to the edge of the range as the move uses it; zero when it is not positive. -/
  edgeTime : Nat → Nat

/-- The Generic Power Level server; the time to the edge is an `int32_t`. -/
def plvlModel : LevelModel where
  toLevel := fun _ val => val
  ofLevel := fun lvl => lvl
  edgeTime := fun t => if t % 2 ^ 32 < 2 ^ 31 then t % 2 ^ 32 else 0

/-- The Light Lightness server; the time to the edge is a `uint32_t`. -/
def lightnessModel (user : LightRepr) : LevelModel where
  toLevel := reprToLight user
  ofLevel := lightToRepr user .actual
  edgeTime := fun t => t % 2 ^ 32

def LevelSrv.storeState (srv : LevelSrv) : LevelSrv :=
  { srv with stored := some srv.toLevelSettings }

def LevelRange.clamp (range : LevelRange) (lvl : UInt16) : UInt16 :=
  if range.max < lvl then range.max else if lvl < range.min then range.min else lvl

/-- `change_lvl`, with what is handed to the application. -/
def LevelSrv.changeLvl (srv : LevelSrv) (set : LevelSet) : LevelSrv × LevelSet :=
  let lvl := if set.lvl ≠ 0 then srv.range.clamp set.lvl else 0
  let last := if set.lvl ≠ 0 then lvl else srv.last
  let stateChange := srv.isOn == decide (set.lvl = 0) || srv.last != last
  let srv := { srv with last, isOn := decide (0 < lvl) }
  (if stateChange then srv.storeState else srv, { set with lvl })

section Messages

variable (M : LevelModel) (srv : LevelSrv)

/-- `plvl_set` and `lightness_set`, for a new transaction. -/
def levelSet (repr : LightRepr) (val : UInt16) (transition : Transition) : LevelSrv × LevelSet :=
  srv.changeLvl ⟨M.toLevel repr val, some transition⟩

/-- The generic level `lvl`, a signed 16-bit value, as an unsigned one. -/
def lvlToPower (lvl : Int) : UInt16 := .ofInt (lvl + 32768)

/-- `lvl_set`; nothing happens when the transaction is not new. -/
def lvlSet (lvl : Int) (newTransaction : Bool) (transition : Option Transition) :
    LevelSrv × Option LevelSet :=
  if newTransaction then
    let r := srv.changeLvl ⟨M.toLevel .actual (lvlToPower lvl), transition⟩
    (r.1, some r.2)
  else (srv, none)

/-- The value that a delta is added to: the current level in a new transaction, the start of the
previous delta otherwise. -/
def deltaStart (newTransaction : Bool) (current : UInt16) : UInt16 :=
  if newTransaction then current else srv.last

def deltaTarget (delta : Int) (newTransaction : Bool) (current : UInt16) : UInt16 :=
  M.toLevel .actual (.ofInt ((M.ofLevel (deltaStart srv newTransaction current)).toNat + delta))

/-- `lvl_delta_set`. Afterwards `last` is the start value, so that the delta can be corrected. -/
def lvlDeltaSet (delta : Int) (newTransaction : Bool) (transition : Option Transition)
    (current : UInt16) : LevelSrv × LevelSet :=
  let r := srv.changeLvl ⟨deltaTarget M srv delta newTransaction current, transition⟩
  ({ r.1 with last := deltaStart srv newTransaction current }, r.2)

def moveTarget (delta : Int) (current : UInt16) : UInt16 :=
  if 0 < delta then srv.range.max else if delta < 0 then srv.range.min else current

/-- `lvl_move_set`: the transition time is what the move needs to the edge of the range. -/
def lvlMoveSet (delta : Int) (transition : Option Transition) (current : UInt16) :
    LevelSrv × LevelSet :=
  let target := moveTarget srv delta current
  let moved : Transition :=
    match transition with
    | none => ⟨0, 0⟩
    | some t =>
      if delta = 0 then ⟨0, 0⟩
      else
        let distance := ((target.toNat : Int) - current.toNat).natAbs
        let time := M.edgeTime (distance * t.time / delta.natAbs)
        if 0 < time then ⟨time, t.delay⟩ else ⟨0, 0⟩
  srv.changeLvl ⟨target, some moved⟩

def onoffSet (onOff : Bool) (transition : Option Transition) : LevelSrv × LevelSet :=
  srv.changeLvl ⟨if onOff then (if srv.defaultLevel ≠ 0 then srv.defaultLevel else srv.last) else 0,
    transition⟩

def setDefault (val : UInt16) : LevelSrv :=
  let new := M.toLevel .actual val
  if new ≠ srv.defaultLevel then { srv with defaultLevel := new }.storeState else srv

def setRange (minVal maxVal : UInt16) : LevelSrv :=
  let new : LevelRange := ⟨M.toLevel .actual minVal, M.toLevel .actual maxVal⟩
  if new.min = 0 ∨ new.max = 0 ∨ new.max < new.min then srv
  else if new ≠ srv.range then { srv with range := new }.storeState else srv

end Messages

inductive LevelMsg
  | set (repr : LightRepr) (val : UInt16) (transition : Transition)
  | lvlSet (lvl : Int) (newTransaction : Bool) (transition : Option Transition)
  | deltaSet (delta : Int) (newTransaction : Bool) (transition : Option Transition)
      (current : UInt16)
  | moveSet (delta : Int) (transition : Option Transition) (current : UInt16)
  | onOff (onOff : Bool) (transition : Option Transition)
  | setDefault (val : UInt16)
  | setRange (minVal maxVal : UInt16)
  deriving DecidableEq, Repr

/-- Process one message: the new state, and the level that is handed to the application. -/
def LevelSrv.step (M : LevelModel) (srv : LevelSrv) : LevelMsg → LevelSrv × Option LevelSet
  | .set repr val transition =>
    let r := levelSet M srv repr val transition
    (r.1, some r.2)
  | .lvlSet lvl newTransaction transition => lvlSet M srv lvl newTransaction transition
  | .deltaSet delta newTransaction transition current =>
    let r := lvlDeltaSet M srv delta newTransaction transition current
    (r.1, some r.2)
  | .moveSet delta transition current =>
    let r := lvlMoveSet M srv delta transition current
    (r.1, some r.2)
  | .onOff onOff transition =>
    let r := onoffSet srv onOff transition
    (r.1, some r.2)
  | .setDefault val => (Mesh.setDefault M srv val, none)
  | .setRange minVal maxVal => (Mesh.setRange M srv minVal maxVal, none)

def LevelSrv.run (M : LevelModel) (srv : LevelSrv) (msgs : List LevelMsg) : LevelSrv :=
  msgs.foldl (fun srv msg => (srv.step M msg).1) srv

def LevelSrv.handed (M : LevelModel) : LevelSrv → List LevelMsg → List UInt16
  | _, [] => []
  | srv, msg :: msgs =>
    ((srv.step M msg).2.map LevelSet.lvl).toList ++ LevelSrv.handed M (srv.step M msg).1 msgs

end SdkNrf.Mesh
