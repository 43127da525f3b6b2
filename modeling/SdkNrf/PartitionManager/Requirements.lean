import SdkNrf.Framework.Dict

/-!
# Partition requirements

The data model of `scripts/partition_manager.py`: the requirement dictionaries read from the
`pm.yml` files and the exceptions the solver can raise.
-/

namespace SdkNrf.PartitionManager

/-- Partition names. The strings `start` and `end` are references, not partitions. -/
abbrev Name := String

inductive RefItem
  | name (n : Name)
  | oneOf (choices : List Name)
  deriving DecidableEq, Repr

/-- References after `convert_str_to_list`: a list, or a `one_of` dict in place of the list. -/
inductive Refs
  | list (items : List RefItem)
  | oneOf (choices : List Name)
  deriving DecidableEq, Repr

inductive YamlRefs
  | str (n : Name)
  | list (items : List RefItem)
  | oneOf (choices : List Name)
  deriving DecidableEq, Repr

inductive Direction
  | before
  | after
  deriving DecidableEq, Repr

inductive PlacementKey
  | before
  | after
  | align
  deriving DecidableEq, Repr

/-- An `align` dict. -/
abbrev Align := Dict String Int

inductive PlacementEntry (R : Type)
  | before (refs : R)
  | after (refs : R)
  | align (align : Align)
  deriving DecidableEq

namespace PlacementEntry

variable {R S ε : Type}

def key : PlacementEntry R → PlacementKey
  | before _ => .before
  | after _ => .after
  | align _ => .align

def mapM (f : R → Except ε S) : PlacementEntry R → Except ε (PlacementEntry S)
  | before r => return before (← f r)
  | after r => return after (← f r)
  | align a => return align a

theorem mapM_key {f : R → Except ε S} {e : PlacementEntry R} {e' : PlacementEntry S}
    (h : e.mapM f = .ok e') : e'.key = e.key := by
  cases e with
  | before r =>
    cases hr : f r with
    | error => simp [mapM, hr, bind, Except.bind] at h
    | ok s =>
      simp only [mapM, hr, bind, Except.bind, pure, Except.pure, Except.ok.injEq] at h
      subst h
      rfl
  | after r =>
    cases hr : f r with
    | error => simp [mapM, hr, bind, Except.bind] at h
    | ok s =>
      simp only [mapM, hr, bind, Except.bind, pure, Except.pure, Except.ok.injEq] at h
      subst h
      rfl
  | align a =>
    simp only [mapM, pure, Except.pure, Except.ok.injEq] at h
    subst h
    rfl

def mapEntriesM (f : R → Except ε S) :
    List (PlacementEntry R) → Except ε (List (PlacementEntry S))
  | [] => .ok []
  | e :: es => do
    let e ← e.mapM f
    let es ← mapEntriesM f es
    return e :: es

theorem mapEntriesM_keys {f : R → Except ε S} {es : List (PlacementEntry R)}
    {es' : List (PlacementEntry S)} (h : mapEntriesM f es = .ok es') :
    es'.map key = es.map key := by
  induction es generalizing es' with
  | nil =>
    simp only [mapEntriesM, Except.ok.injEq] at h
    subst h
    rfl
  | cons e es ih =>
    cases he : e.mapM f with
    | error => simp [mapEntriesM, he, bind, Except.bind] at h
    | ok e' =>
      cases hes : mapEntriesM f es with
      | error => simp [mapEntriesM, he, hes, bind, Except.bind] at h
      | ok rest =>
        simp only [mapEntriesM, he, hes, bind, Except.bind, pure, Except.pure,
          Except.ok.injEq] at h
        subst h
        rw [List.map_cons, List.map_cons, mapM_key he, ih hes]

end PlacementEntry

/-- A `placement` dict. The order of its keys matters: `resolve_ambiguous_requirements`
compares placements through their printed form. -/
structure Placement (R : Type) where
  entries : List (PlacementEntry R)
  nodupKeys : (entries.map PlacementEntry.key).Nodup

namespace Placement

variable {R S ε : Type}

instance [DecidableEq R] : DecidableEq (Placement R) := fun p q =>
  decidable_of_iff (p.entries = q.entries)
    ⟨fun h => by cases p; cases q; simp_all, congrArg Placement.entries⟩

/-- The references stored under `before` or `after`. -/
def refs? (p : Placement R) : Direction → Option R
  | .before => p.entries.findSome? fun
    | .before r => some r
    | _ => none
  | .after => p.entries.findSome? fun
    | .after r => some r
    | _ => none

def align? (p : Placement R) : Option Align :=
  p.entries.findSome? fun
    | .align a => some a
    | _ => none

def mapM (f : R → Except ε S) (p : Placement R) : Except ε (Placement S) :=
  match h : PlacementEntry.mapEntriesM f p.entries with
  | .error e => .error e
  | .ok es => .ok ⟨es, by rw [PlacementEntry.mapEntriesM_keys h]; exact p.nodupKeys⟩

/-- Rewrite the entries one by one, dropping those that become `none`; keys never change. -/
def filterMap (f : PlacementEntry R → Option (PlacementEntry R))
    (hf : ∀ e e', f e = some e' → e'.key = e.key) (p : Placement R) : Placement R where
  entries := p.entries.filterMap f
  nodupKeys := by
    refine p.nodupKeys.sublist ?_
    induction p.entries with
    | nil => exact List.Sublist.slnil
    | cons e es ih =>
      cases he : f e with
      | none =>
        rw [List.filterMap_cons_none he]
        exact ih.cons _
      | some e' =>
        rw [List.filterMap_cons_some he, List.map_cons, List.map_cons, hf e e' he]
        exact ih.cons_cons _

/-- The placement `{'before': [name]}`. -/
def beforeOnly (n : Name) : Placement (List Name) := ⟨[.before [n]], List.nodup_singleton _⟩

end Placement

/-- The properties of one partition. `sharers` and `origSpan` are written by the solver. -/
structure Req (R : Type) where
  size : Option Int := none
  address : Option Int := none
  placement : Option (Placement R) := none
  span : Option R := none
  inside : Option R := none
  shareSize : Option R := none
  region : Option String := none
  device : Option String := none
  sharers : Option Nat := none
  origSpan : Option (List Name) := none
  deriving DecidableEq

abbrev Reqs (R : Type) := Dict Name (Req R)

inductive PartitionError
  | oneOfEmpty (partitions choices : List Name)
  | emptyPlacement (partition : Name)
  | emptyContainer (partition : Name)
  | spanNotConsecutive (sub : Name) (span solution : List Name)
  | partNotPlaced (part : Name)
  | invalidAddress (partition : Name) (address : Int)
  | endAfterLastValidAddress
  | alignmentUnfulfilled
  | dynamicPartitionInFront
  | invalidMoveSize
  | nonWordAlignedSize (partition : Name)
  | sizeBelowZero (partition : Name)
  | invalidAlignment (align : Align)
  | noCompatibleParent (container : Name)
  | incorrectAmountOfGaps
  | reservedRegionName (region : Name)
  | staticNotPacked
  deriving DecidableEq

/-- How a run can end without a value. `running` is no exception of the program: it says that
the bound on the number of loop rounds was used up while a loop was still going. -/
inductive Exc
  | partitionError (e : PartitionError)
  | keyError (key : String)
  | valueError
  | indexError
  | stopIteration
  | zeroDivisionError
  | recursionError
  | running
  deriving DecidableEq

abbrev Py := Except Exc

end SdkNrf.PartitionManager
