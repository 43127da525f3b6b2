import SdkNrf.Framework.SetOrder
import SdkNrf.PartitionManager.Preprocess

/-!
# Ordering the partitions

`resolve` computes the order of the partitions in the region.
-/

namespace SdkNrf.PartitionManager

abbrev PlainReqs := Reqs (List Name)

def spanOf (reqs : PlainReqs) (k : Name) : List Name := ((reqs.get? k).bind Req.span).getD []

def setSpan (reqs : PlainReqs) (k : Name) (l : List Name) : PlainReqs :=
  reqs.modify k fun v => { v with span := some l }

/-- The list under `placement` → `before` or `after`. -/
def placementRefs (reqs : PlainReqs) (ab : Direction) (x : Name) : Option (List Name) :=
  ((reqs.get? x).bind Req.placement).bind (·.refs? ab)

/-- `item_is_placed`: the placement of `x` names `item` first. -/
def itemIsPlaced (reqs : PlainReqs) (ab : Direction) (item x : Name) : Bool :=
  ((placementRefs reqs ab x).bind List.head?) == some item

/-- The keys of `reqs` after `resolve` has split off the containers. -/
def leafKeys (reqs : PlainReqs) : List Name :=
  reqs.keys.filter fun k => ((reqs.get? k).bind Req.span).isNone

/-- The keys of `sub_partitions`. -/
def containerKeys (reqs : PlainReqs) : List Name :=
  reqs.keys.filter fun k => ((reqs.get? k).bind Req.span).isSome

/-- `solve_inside`, over the partitions of the list. -/
def solveInside (subs : List Name) : List Name → PlainReqs → Py PlainReqs
  | [], reqs => .ok reqs
  | key :: keys, reqs =>
    match (reqs.get? key).bind Req.inside with
    | none => solveInside subs keys reqs
    | some [] => .error .indexError
    | some (c :: _) =>
      if c ∈ subs then solveInside subs keys (setSpan reqs c (spanOf reqs c ++ [key]))
      else .error (.keyError c)

def deletionPass (reqs : PlainReqs) (subs del : List Name) : List Name :=
  subs.foldl (fun del key =>
    if (spanOf reqs key).all (· ∈ del) && key ∉ del then del ++ [key] else del) del

/-- `keys_to_delete`. Every pass but the last adds a container, so there are at most
`subs.length + 1` of them. -/
def keysToDelete (reqs : PlainReqs) (subs : List Name) : Nat → List Name → List Name
  | 0, del => del
  | n + 1, del =>
    let del' := deletionPass reqs subs del
    if del' = del then del else keysToDelete reqs subs n del'

/-- Replace the nested container `part` in the span of `key` by its parts. -/
def replacePart (ord : SetOrder Name) (key part : Name) (reqs : PlainReqs) : Py PlainReqs :=
  let extended := spanOf reqs key ++ spanOf reqs part
  if part ∈ extended then .ok (setSpan reqs key (ord.toList (extended.erase part)))
  else .error .valueError

/-- The rest of the flattening loop of one container. From the second nested container on, the
generator runs over the list object that `value['span']` has been replaced for. -/
def replaceParts (ord : SetOrder Name) (subs : List Name) (key : Name) :
    List Name → PlainReqs → Py PlainReqs
  | [], reqs => .ok reqs
  | part :: parts, reqs =>
    if part ∈ subs then do
      let reqs ← replacePart ord key part reqs
      replaceParts ord subs key parts reqs
    else replaceParts ord subs key parts reqs

/-- The flattening loop of one container, with whether it found nothing to flatten. The first
nested container is removed from the list that the generator is reading, so the generator
continues one element further on. -/
def flattenSpan (ord : SetOrder Name) (subs : List Name) (key : Name) (reqs : PlainReqs) :
    Py (PlainReqs × Bool) :=
  let old := spanOf reqs key
  match old.find? (· ∈ subs) with
  | none => .ok (reqs, true)
  | some part => do
    let mutated := (old ++ spanOf reqs part).erase part
    let reqs ← replacePart ord key part reqs
    let reqs ← replaceParts ord subs key (mutated.drop (old.idxOf part + 1)) reqs
    return (reqs, false)

def removeUnknownParts (known : Name → Bool) : Nat → Nat → List Name → List Name
  | 0, _, l => l
  | n + 1, i, l =>
    match l[i]? with
    | none => l
    | some part => removeUnknownParts known n (i + 1) (if known part then l else l.erase part)

def flattenContainer (ord : SetOrder Name) (leaves subs : List Name) (key : Name)
    (reqs : PlainReqs) : Py (PlainReqs × Bool) := do
  if (spanOf reqs key).isEmpty then
    throw (.partitionError (.emptyContainer key))
  let reqs := reqs.modify key fun v => { v with origSpan := v.span }
  let (reqs, done) ← flattenSpan ord subs key reqs
  let span := spanOf reqs key
  let known (p : Name) : Bool := decide (p ∈ subs) || decide (p ∈ leaves)
  return (setSpan reqs key (removeUnknownParts known span.length 0 span), done)

def flattenRound (ord : SetOrder Name) (leaves subs : List Name) :
    List Name → PlainReqs → Py (PlainReqs × Bool)
  | [], reqs => .ok (reqs, true)
  | key :: keys, reqs => do
    let (reqs, done) ← flattenContainer ord leaves subs key reqs
    let (reqs, rest) ← flattenRound ord leaves subs keys reqs
    return (reqs, done && rest)

/-- The loop `while not done`. -/
def flatten (ord : SetOrder Name) (leaves subs : List Name) : Nat → PlainReqs → Py PlainReqs
  | 0, _ => .error .running
  | n + 1, reqs => do
    let (reqs, done) ← flattenRound ord leaves subs subs reqs
    if done then return reqs else flatten ord leaves subs n reqs

def cleanSubPartitions (ord : SetOrder Name) (fuel : Nat) (leaves subs : List Name)
    (reqs : PlainReqs) : Py (PlainReqs × List Name) := do
  let del := keysToDelete reqs subs (subs.length + 1) []
  let subs := subs.filter (· ∉ del)
  let reqs ← flatten ord leaves subs fuel reqs
  return (reqs, subs)

/-- The partition has a `before` or an `after` list. -/
def hasPlacementRefs (reqs : PlainReqs) (x : Name) : Bool :=
  (placementRefs reqs .before x).isSome || (placementRefs reqs .after x).isSome

def getImagesWhichNeedResolving (ord : SetOrder Name) (reqs : PlainReqs)
    (leaves subs : List Name) : List Name :=
  let unsorted := ord.toList (leaves.filter (hasPlacementRefs reqs))
  let sortedSubs := subs.insertionSort fun a b => (spanOf reqs a).length ≤ (spanOf reqs b).length
  let result := sortedSubs.foldl (fun result sub =>
    (spanOf reqs sub).filter (fun p => p ∈ unsorted ∧ p ∉ result) ++ result) []
  unsorted.filter (· ∉ result) ++ result

def placementBuckets (reqs : PlainReqs) (unsolved : List Name) :
    Dict (Option (Placement (List Name))) (List Name) :=
  unsolved.foldl (fun buckets p =>
    let key := (reqs.get? p).bind Req.placement
    buckets.set key ((buckets.get? key).getD [] ++ [p])) Dict.empty

/-- Place each partition of a sorted bucket before the next one. The rest of its placement,
an `align` included, is lost. -/
def chainPartitions (reqs : PlainReqs) (partitions : List Name) : PlainReqs :=
  (partitions.zip partitions.tail).foldl (fun reqs p =>
    reqs.modify p.1 fun v => { v with placement := some (Placement.beforeOnly p.2) }) reqs

def resolveAmbiguousRequirements (reqs : PlainReqs) (unsolved : List Name) : PlainReqs :=
  (placementBuckets reqs unsolved).items.foldl (fun reqs bucket =>
    if bucket.2.length > 1 then chainPartitions reqs (bucket.2.insertionSort (· ≤ ·)) else reqs)
    reqs

structure SolveState where
  unsolved : List Name
  solution : List Name

/-- The partitions whose `before` or `after` list contains `target`, anywhere in it. -/
def firstOrLast (reqs : PlainReqs) (leaves : List Name) (ab : Direction) (target : Name) :
    List Name :=
  leaves.filter fun x => ((placementRefs reqs ab x).getD []).contains target

def solveFirst (reqs : PlainReqs) (leaves : List Name) (st : SolveState) : SolveState :=
  match firstOrLast reqs leaves .after "start" with
  | [] => st
  | x :: _ => { unsolved := st.unsolved.erase x, solution := x :: st.solution }

def solveLast (reqs : PlainReqs) (leaves : List Name) (st : SolveState) : SolveState :=
  match firstOrLast reqs leaves .before "end" with
  | [] => st
  | x :: _ => { unsolved := st.unsolved.erase x, solution := st.solution ++ [x] }

def solveFirstLast (reqs : PlainReqs) (leaves : List Name) (st : SolveState) : SolveState :=
  solveLast reqs leaves (solveFirst reqs leaves st)

/-- The placed partition next to which a partition that refers to `current` is inserted:
`current` itself, or the outermost placed part of the container `current`. -/
def anchorOf (reqs : PlainReqs) (ab : Direction) (current : Name) (solution : List Name) :
    Py Name :=
  if current ∈ solution then .ok current
  else
    let candidates := match ab with
      | .before => solution
      | .after => solution.reverse
    match candidates.find? (· ∈ spanOf reqs current) with
    | some n => .ok n
    | none => .error .stopIteration

def insertNextTo (ab : Direction) (anchor x : Name) (solution : List Name) : List Name :=
  match ab with
  | .before => solution.insertIdx (solution.idxOf anchor) x
  | .after => solution.insertIdx (solution.idxOf anchor + 1) x

/-- The loop of `solve_direction`. Every round places a partition or moves on in `pool`, so
`unsolved.length + pool.length + 1` rounds are enough. -/
def solveDirectionLoop (reqs : PlainReqs) (ab : Direction) :
    Nat → List Name → Name → SolveState → Py SolveState
  | 0, _, _, _ => .error .running
  | n + 1, pool, current, st =>
    if current = "" then .ok st
    else match st.unsolved.filter (itemIsPlaced reqs ab current) with
      | x :: _ => do
        let anchor ← anchorOf reqs ab current st.solution
        solveDirectionLoop reqs ab n pool x
          { unsolved := st.unsolved.erase x, solution := insertNextTo ab anchor x st.solution }
      | [] =>
        match pool with
        | [] => .ok st
        | next :: pool => solveDirectionLoop reqs ab n pool next st

def solveDirection (reqs : PlainReqs) (subs : List Name) (ab : Direction) (st : SolveState) :
    Py SolveState :=
  match st.solution ++ subs with
  | [] => .error .indexError
  | current :: pool =>
    solveDirectionLoop reqs ab (st.unsolved.length + pool.length + 1) pool current st

/-- The loop `while unsolved`. -/
def solveUnsolved (reqs : PlainReqs) (subs : List Name) : Nat → SolveState → Py SolveState
  | 0, st => if st.unsolved = [] then .ok st else .error .running
  | n + 1, st =>
    if st.unsolved = [] then .ok st
    else do
      let st ← solveDirection reqs subs .before st
      let st ← solveDirection reqs subs .after st
      solveUnsolved reqs subs n st

/-- The positions of the parts, `ValueError` when one of them has none. -/
def indicesOf (solution : List Name) : List Name → Py (List Nat)
  | [] => .ok []
  | part :: parts =>
    if part ∈ solution then do
      let is ← indicesOf solution parts
      return solution.idxOf part :: is
    else .error .valueError

def consecutive (indices : List Nat) : Bool :=
  indices.isEmpty || (indices.foldl max 0 + 1 - indices.foldl min (indices.headD 0) == indices.length)

def validateSpan (solution : List Name) (sub : Name) (span : List Name) : Py Unit := do
  let indices ← indicesOf solution span
  if !consecutive indices then
    throw (.partitionError (.spanNotConsecutive sub span solution))
  if let some part := span.find? (· ∉ solution) then
    throw (.partitionError (.partNotPlaced part))

def validateSpans (reqs : PlainReqs) (solution : List Name) : List Name → Py Unit
  | [] => .ok ()
  | sub :: subs => do
    validateSpan solution sub (spanOf reqs sub)
    validateSpans reqs solution subs

/-- What `resolve` leaves behind: the requirements it has rewritten in place, the keys of
`sub_partitions` and the order of the partitions. -/
structure Resolved where
  reqs : PlainReqs
  subs : List Name
  solution : List Name

/-- `resolve` from the prepared requirements on. -/
def resolvePrepared (ord : SetOrder Name) (fuel : Nat) (dp : Name) (reqs : PlainReqs) :
    Py Resolved := do
  let leaves := leafKeys reqs
  let subs := containerKeys reqs
  let reqs ← solveInside subs leaves reqs
  let (reqs, subs) ← cleanSubPartitions ord fuel leaves subs reqs
  let unsolved := getImagesWhichNeedResolving ord reqs leaves subs
  let reqs := resolveAmbiguousRequirements reqs unsolved
  let st := solveFirstLast reqs leaves { unsolved, solution := [dp] }
  let st ← solveUnsolved reqs subs fuel st
  validateSpans reqs st.solution subs
  return { reqs, subs, solution := st.solution }

/-- The requirements after `convert_str_to_list` and `remove_irrelevant_requirements`. -/
def prepare (reqs : Reqs YamlRefs) (dp : Name) : Py PlainReqs :=
  removeIrrelevantRequirements (reqs.mapValues (Req.map convertStrToList)) dp

def resolve (ord : SetOrder Name) (fuel : Nat) (reqs : Reqs YamlRefs) (dp : Name) :
    Py Resolved := do
  let reqs ← prepare reqs dp
  resolvePrepared ord fuel dp reqs

end SdkNrf.PartitionManager
