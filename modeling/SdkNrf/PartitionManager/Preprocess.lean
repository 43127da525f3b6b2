import SdkNrf.PartitionManager.Requirements

/-!
# Preparing the requirements

The functions that `resolve` runs before it orders anything: single names become lists,
partitions of size zero disappear together with the partitions that share their size, `one_of`
dicts are replaced by their first existing choice, and references to partitions that do not
exist are dropped.
-/

namespace SdkNrf.PartitionManager

/-- `convert_str_to_list`, on one value. -/
def convertStrToList : YamlRefs → Refs
  | .str n => .list [.name n]
  | .list items => .list items
  | .oneOf choices => .oneOf choices

namespace PlacementEntry

variable {R S : Type}

def map (f : R → S) : PlacementEntry R → PlacementEntry S
  | before r => before (f r)
  | after r => after (f r)
  | align a => align a

@[simp] theorem map_key (f : R → S) (e : PlacementEntry R) : (e.map f).key = e.key := by
  cases e <;> rfl

end PlacementEntry

def Placement.map {R S : Type} (f : R → S) (p : Placement R) : Placement S where
  entries := p.entries.map (PlacementEntry.map f)
  nodupKeys := by
    rw [List.map_map, show PlacementEntry.key ∘ PlacementEntry.map f = PlacementEntry.key from
      funext fun e => PlacementEntry.map_key f e]
    exact p.nodupKeys

def Req.map {R S : Type} (f : R → S) (v : Req R) : Req S where
  size := v.size
  address := v.address
  placement := v.placement.map (Placement.map f)
  span := v.span.map f
  inside := v.inside.map f
  shareSize := v.shareSize.map f
  region := v.region
  device := v.device
  sharers := v.sharers
  origSpan := v.origSpan

/-- What `remove_item_not_in_list` keeps: the existing partitions and the dynamic partition. -/
def keeps (existing : List Name) (dp n : Name) : Bool := decide (n ∈ existing) || decide (n = dp)

def removeItemNotInList (l existing : List Name) (dp : Name) : List Name :=
  l.filter (keeps existing dp)

/-- `remove_item_not_in_list` on a value that still holds `one_of` dicts. A dict in a list is
never equal to a partition name, so it goes. -/
def Refs.removeItemNotInList (existing : List Name) (dp : Name) : Refs → Refs
  | .list items => .list (items.filter fun
    | .name n => keeps existing dp n
    | .oneOf _ => false)
  | .oneOf choices => .oneOf (PartitionManager.removeItemNotInList choices existing dp)

def Refs.isEmpty : Refs → Bool
  | .list items => items.isEmpty
  | .oneOf choices => choices.isEmpty

/-- The requirements and the list `to_delete` shared by all nested calls. -/
structure ZeroState where
  reqs : Reqs Refs
  toDelete : List Name

/-- Keys of `reqs` whose size is not zero, an absent size included. -/
def nonZeroPartitions (reqs : Reqs Refs) (keys : List Name) : List Name :=
  keys.filter fun p => (reqs.get? p).bind Req.size ≠ some 0

/-- One call of `remove_all_zero_sized_partitions` over the partitions `keys`. A nested call runs
over fewer partitions, so `keys.length` bounds the depth. -/
def removeZeroSized (dp : Name) : Nat → List Name → ZeroState → ZeroState
  | 0, _, st => st
  | depth + 1, keys, st =>
    -- Append `k` to `to_delete` and call again with what is left.
    let deleteAndRerun (k : Name) (st : ZeroState) : ZeroState :=
      let st := { st with toDelete := st.toDelete ++ [k] }
      removeZeroSized dp depth (keys.filter (· ∉ st.toDelete)) st
    keys.foldl (fun st k =>
      let st := if (st.reqs.get? k).bind Req.size = some 0 then deleteAndRerun k st else st
      match (st.reqs.get? k).bind Req.shareSize with
      | none => st
      | some refs =>
        let refs := refs.removeItemNotInList (nonZeroPartitions st.reqs keys) dp
        if refs.isEmpty then
          let st := { st with reqs := st.reqs.modify k fun v => { v with shareSize := none } }
          if (st.reqs.get? k).bind Req.size = none then deleteAndRerun k st else st
        else { st with reqs := st.reqs.modify k fun v => { v with shareSize := some refs } }) st

def removeAllZeroSizedPartitions (reqs : Reqs Refs) (dp : Name) : Reqs Refs :=
  let st := removeZeroSized dp (reqs.keys.length + 1) reqs.keys ⟨reqs, []⟩
  st.reqs.filter fun k _ => k ∉ st.toDelete

/-- The first choice of a `one_of` dict that exists. -/
def firstExisting (partitions choices : List Name) : Py Name :=
  match choices.find? (· ∈ partitions) with
  | some n => .ok n
  | none => .error (.partitionError (.oneOfEmpty partitions choices))

def RefItem.resolve (partitions : List Name) : RefItem → Py Name
  | .name n => .ok n
  | .oneOf choices => firstExisting partitions choices

def RefItem.resolveAll (partitions : List Name) : List RefItem → Py (List Name)
  | [] => .ok []
  | i :: is => do
    let n ← i.resolve partitions
    let ns ← resolveAll partitions is
    return n :: ns

/-- `resolve_one_of`, on one value. -/
def resolveOneOf (partitions : List Name) : Refs → Py (List Name)
  | .list items => RefItem.resolveAll partitions items
  | .oneOf choices => return [← firstExisting partitions choices]

def mapOption {α β : Type} (f : α → Py β) : Option α → Py (Option β)
  | none => .ok none
  | some a => return some (← f a)

def Req.resolveOneOf (partitions : List Name) (v : Req Refs) : Py (Req (List Name)) := do
  let placement ← mapOption (Placement.mapM (PartitionManager.resolveOneOf partitions)) v.placement
  let span ← mapOption (PartitionManager.resolveOneOf partitions) v.span
  let inside ← mapOption (PartitionManager.resolveOneOf partitions) v.inside
  let shareSize ← mapOption (PartitionManager.resolveOneOf partitions) v.shareSize
  return { size := v.size, address := v.address, placement, span, inside, shareSize,
           region := v.region, device := v.device, sharers := v.sharers, origSpan := v.origSpan }

/-- Drop the references of a `before` or `after` list that do not exist, and the keyword itself
once nothing is left of its list. -/
def PlacementEntry.removeMissing (existing : List Name) (dp : Name) :
    PlacementEntry (List Name) → Option (PlacementEntry (List Name))
  | .before l =>
    let l := removeItemNotInList l existing dp
    if l.isEmpty then none else some (.before l)
  | .after l =>
    let l := removeItemNotInList l existing dp
    if l.isEmpty then none else some (.after l)
  | .align a => some (.align a)

theorem PlacementEntry.removeMissing_key {existing : List Name} {dp : Name}
    (e e' : PlacementEntry (List Name)) (h : e.removeMissing existing dp = some e') :
    e'.key = e.key := by
  cases e with
  | before l =>
    simp only [removeMissing] at h
    split at h
    · cases h
    · cases h
      rfl
  | after l =>
    simp only [removeMissing] at h
    split at h
    · cases h
    · cases h
      rfl
  | align a =>
    cases h
    rfl

/-- The last loop of `remove_irrelevant_requirements`, on one partition. -/
def Req.removeMissing (keys : List Name) (dp : Name) (v : Req (List Name)) : Req (List Name) :=
  { v with
    placement := v.placement.map (Placement.filterMap
      (PlacementEntry.removeMissing (keys ++ ["start", "end"]) dp) PlacementEntry.removeMissing_key)
    span := v.span.map fun l => removeItemNotInList l keys dp
    inside := (v.inside.map fun l => removeItemNotInList l keys dp).filter (! ·.isEmpty) }

/-- The first partition whose `placement` is an empty dict. -/
def emptyPlacement? (reqs : Reqs Refs) : Option Name :=
  reqs.keys.find? fun k => ((reqs.get? k).bind Req.placement).any (·.entries.isEmpty)

def removeIrrelevantRequirements (reqs : Reqs Refs) (dp : Name) : Py (Reqs (List Name)) := do
  let reqs := removeAllZeroSizedPartitions reqs dp
  if let some k := emptyPlacement? reqs then
    throw (.partitionError (.emptyPlacement k))
  let reqs ← reqs.mapValuesM (Req.resolveOneOf (reqs.keys ++ ["end", "start"]))
  return reqs.mapValues (Req.removeMissing reqs.keys dp)

end SdkNrf.PartitionManager
