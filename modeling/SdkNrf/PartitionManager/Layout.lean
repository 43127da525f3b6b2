import SdkNrf.Framework.FloatQuotient
import SdkNrf.PartitionManager.Resolve

/-!
# Sizes, addresses and alignment

`set_addresses_and_align` gives every partition of the solution its address and size.
-/

namespace SdkNrf.PartitionManager

def reqAt (reqs : PlainReqs) (p : Name) : Py (Req (List Name)) :=
  match reqs.get? p with
  | some v => .ok v
  | none => .error (.keyError p)

def size? (reqs : PlainReqs) (p : Name) : Option Int := (reqs.get? p).bind Req.size

def address? (reqs : PlainReqs) (p : Name) : Option Int := (reqs.get? p).bind Req.address

def sizeAt (reqs : PlainReqs) (p : Name) : Py Int :=
  match size? reqs p with
  | some z => .ok z
  | none => .error (.keyError "size")

def addressAt (reqs : PlainReqs) (p : Name) : Py Int :=
  match address? reqs p with
  | some a => .ok a
  | none => .error (.keyError "address")

def setAddress (reqs : PlainReqs) (p : Name) (a : Int) : PlainReqs :=
  reqs.modify p fun v => { v with address := some a }

def setSize (reqs : PlainReqs) (p : Name) (z : Int) : PlainReqs :=
  reqs.modify p fun v => { v with size := some z }

/-- Assignment to a key of `reqs[p]`, which must exist. -/
def storeAddress (reqs : PlainReqs) (p : Name) (a : Int) : Py PlainReqs :=
  if p ∈ reqs.keys then .ok (setAddress reqs p a) else .error (.keyError p)

def storeSize (reqs : PlainReqs) (p : Name) (z : Int) : Py PlainReqs :=
  if p ∈ reqs.keys then .ok (setSize reqs p z) else .error (.keyError p)

def indexAt (l : List Name) (i : Nat) : Py Name :=
  match l[i]? with
  | some p => .ok p
  | none => .error .indexError

def dynamicPartitionsSize (reqs : PlainReqs) (totalSize : Int) (dp : Name) : Int :=
  totalSize - (reqs.items.filterMap fun e => if e.1 = dp then none else e.2.size).sum

/-- `sizeof`. Containers nest, `depth` bounds how deep. -/
def sizeof (reqs : PlainReqs) (totalSize : Int) (dp : Name) : Nat → Name → Py Int
  | 0, _ => .error .recursionError
  | depth + 1, req =>
    if req = dp then .ok (dynamicPartitionsSize reqs totalSize dp)
    else match reqs.get? req with
      | none => .error (.keyError req)
      | some v =>
        match v.span with
        | none => .ok (v.size.getD 0)
        | some parts => parts.foldlM (fun sum part => do
            let z ← sizeof reqs totalSize dp depth part
            return sum + z) 0

def isDynamicSource (reqs : PlainReqs) (dp source : Name) : Bool :=
  decide (source = dp) || decide (dp ∈ spanOf reqs source)

def sharedSize (reqs : PlainReqs) (shareWith : Name) (totalSize : Int) (dp : Name) : Py Int := do
  let some sharerCount := (reqs.get? shareWith).bind Req.sharers
    | throw (.keyError "sharers")
  let size ← sizeof reqs totalSize dp (reqs.keys.length + 1) shareWith
  if isDynamicSource reqs dp shareWith then return truncQuotient size (sharerCount + 1)
  else return size

/-- The loop of `get_size_source`. -/
def getSizeSource (reqs : PlainReqs) : Nat → Name → Py Name
  | 0, _ => .error .running
  | n + 1, source =>
    match reqs.get? source with
    | none => .error (.keyError source)
    | some v =>
      match v.shareSize with
      | none => .ok source
      | some [] => .error .indexError
      | some (next :: _) => getSizeSource reqs n next

def countSharers (fuel : Nat) : List Name → PlainReqs → Py PlainReqs
  | [], reqs => .ok reqs
  | req :: rest, reqs =>
    if ((reqs.get? req).bind Req.shareSize).isSome then do
      let source ← getSizeSource reqs fuel req
      let reqs := reqs.modify source fun v => { v with sharers := some (v.sharers.getD 0 + 1) }
      let reqs := reqs.modify req fun v => { v with shareSize := some [source] }
      countSharers fuel rest reqs
    else countSharers fuel rest reqs

def shareSource (reqs : PlainReqs) (k : Name) : Option Name :=
  ((reqs.get? k).bind Req.shareSize).bind List.head?

def getDependentPartitions (reqs : PlainReqs) (target : Name) : List Name :=
  reqs.keys.filter fun k => (shareSource reqs k).any (isDynamicSource reqs target)

def staticSizeSharers (reqs : PlainReqs) (dynamicSharers : List Name) : List Name :=
  reqs.keys.filter fun k => (shareSource reqs k).isSome && k ∉ dynamicSharers

def setStaticSizes (totalSize : Int) (dp : Name) : List Name → PlainReqs → Py PlainReqs
  | [], reqs => .ok reqs
  | req :: rest, reqs => do
    let some source := shareSource reqs req | throw .indexError
    let z ← sharedSize reqs source totalSize dp
    setStaticSizes totalSize dp rest (setSize reqs req z)

/-- `new_sizes`: the sizes of the dynamic sharers, all computed before any is stored. -/
def newSizes (reqs : PlainReqs) (totalSize : Int) (dp : Name) :
    List Name → Py (List (Name × Int))
  | [] => .ok []
  | req :: rest => do
    let some source := shareSource reqs req | throw .indexError
    let z ← sharedSize reqs source totalSize dp
    let zs ← newSizes reqs totalSize dp rest
    return (req, z) :: zs

def setSharedSize (fuel : Nat) (reqs : PlainReqs) (totalSize : Int) (dp : Name) :
    Py PlainReqs := do
  let reqs ← countSharers fuel reqs.keys reqs
  let dynamicSharers := getDependentPartitions reqs dp
  let reqs ← setStaticSizes totalSize dp (staticSizeSharers reqs dynamicSharers) reqs
  let sizes ← newSizes reqs totalSize dp dynamicSharers
  return sizes.foldl (fun reqs e => setSize reqs e.1 e.2) reqs

/-- `get_required_offset`. The remainder is Python's, with the sign of the divisor. -/
def getRequiredOffset (align : Align) (start size : Int) (moveUp : Bool) : Py Int :=
  if align.items.length ≠ 1 then .error (.partitionError (.invalidAlignment align))
  else match align.get? "start" with
    | some n =>
      if n = 0 then .error .zeroDivisionError
      else
        let r := start.fmod n
        if r = 0 then .ok 0 else if moveUp then .ok (n - r) else .ok r
    | none =>
      match align.get? "end" with
      | none => .error (.partitionError (.invalidAlignment align))
      | some n =>
        if n = 0 then .error .zeroDivisionError
        else
          let r := (start + size).fmod n
          if r = 0 then .ok 0
          else if moveUp then .ok (n - r)
          -- A partition at address 0 can not be moved down.
          else if start ≠ 0 then .ok r else .ok (n - r)

def containsEmpty (n : Name) : Bool := decide ("EMPTY".toList <:+: n.toList)

def emptyName (reqs : PlainReqs) : Name :=
  "EMPTY_" ++ toString (reqs.keys.filter containsEmpty).length

/-- `get_empty_part_to_move_dyn_part`: address and size of the empty partition that moves the
start or the end of the dynamic partition `current` down by `numBytes`. -/
def getEmptyPartToMoveDynPart (dynamicPartitions : List Name) (current : Name)
    (reqs : PlainReqs) (numBytes : Int) (moveEnd : Bool) (solution : List Name) :
    Py (Int × Int) := do
  let dynSolution := solution.filter (· ∈ dynamicPartitions)
  let firstDyn ← indexAt dynSolution 0
  let inFront := solution.idxOf current - solution.idxOf firstDyn
  if ¬ 0 < numBytes then throw (.partitionError .invalidMoveSize)
  let inFront := if moveEnd then inFront + 1 else inFront
  if inFront = 0 then throw .zeroDivisionError
  let reduction := numBytes / (inFront : Int)
  if ¬ reduction % 4 = 0 then throw (.partitionError (.nonWordAlignedSize firstDyn))
  if ¬ reduction < (← sizeAt reqs firstDyn) then throw (.partitionError (.sizeBelowZero firstDyn))
  let lastDyn ← indexAt dynSolution (dynSolution.length - 1)
  let emptySize := reduction * dynamicPartitions.length
  return ((← addressAt reqs lastDyn) + (← sizeAt reqs lastDyn) - emptySize, emptySize)

/-- Take an equal share of the empty partition `e` from every dynamic partition. -/
def shrinkDynamic (e : Name) (count : Nat) : List Name → PlainReqs → Py PlainReqs
  | [], reqs => .ok reqs
  | p :: ps, reqs => do
    let z ← sizeAt reqs p
    let emptySize ← sizeAt reqs e
    shrinkDynamic e count ps (setSize reqs p (z - emptySize / (count : Int)))

/-- The address and the size of the empty partition that aligns `current`, with the
requirements after `current` has been moved. -/
def makeRoom (current : Name) (align : Align) (requiredOffset : Int) (reqs : PlainReqs)
    (moveUp : Bool) (dynamicPartitions solution : List Name) :
    Py (Int × Int × PlainReqs) := do
  let address ← addressAt reqs current
  let size ← sizeAt reqs current
  if current ∉ dynamicPartitions then
    if moveUp then
      return (address, requiredOffset, setAddress reqs current (address + requiredOffset))
    -- The first partition can not be moved down.
    else if address ≠ 0 then
      return (address + size, requiredOffset, setAddress reqs current (address - requiredOffset))
    else return (address + size, requiredOffset, reqs)
  else if ¬ moveUp then
    let (emptyAddress, emptySize) ← getEmptyPartToMoveDynPart dynamicPartitions current reqs
      requiredOffset ("end" ∈ align.keys) solution
    return (emptyAddress, emptySize, reqs)
  else throw (.partitionError .dynamicPartitionInFront)

def emptyPlacement (moveUp : Bool) (current : Name) : Placement (List Name) :=
  if moveUp then .beforeOnly current
  else ⟨[.after [current]], List.nodup_singleton _⟩

/-- `align_partition`: the name of the inserted empty partition, `none` when `current` is
aligned already. -/
def alignPartition (current : Name) (align : Align) (reqs : PlainReqs) (moveUp : Bool)
    (dynamicPartitions solution : List Name) : Py (Option (Name × PlainReqs)) := do
  let requiredOffset ← getRequiredOffset align (← addressAt reqs current) (← sizeAt reqs current)
    moveUp
  if requiredOffset = 0 then return none
  let (emptyAddress, emptySize, reqs) ←
    makeRoom current align requiredOffset reqs moveUp dynamicPartitions solution
  let e := emptyName reqs
  let dyn ← indexAt dynamicPartitions 0
  let some region := (reqs.get? dyn).bind Req.region | throw (.keyError "region")
  let reqs := reqs.set e { address := some emptyAddress, size := some emptySize, region,
                           placement := some (emptyPlacement moveUp current) }
  let reqs ← shrinkDynamic e dynamicPartitions.length dynamicPartitions reqs
  return some (e, reqs)

structure LayoutState where
  reqs : PlainReqs
  solution : List Name

/-- The arguments of `_set_addresses_and_align` that do not change. -/
structure LayoutContext where
  size : Int
  start : Int
  dynamicPartitions : List Name
  dp : Name

def alignOf (reqs : PlainReqs) (p : Name) : Option Align :=
  ((reqs.get? p).bind Req.placement).bind Placement.align?

/-- `align_if_required`, `none` when nothing had to be inserted. -/
def alignIfRequired (ctx : LayoutContext) (i : Nat) (moveUp : Bool) (s : LayoutState) :
    Py (Option LayoutState) := do
  let current ← indexAt s.solution i
  let v ← reqAt s.reqs current
  match v.placement.bind Placement.align? with
  | none => return none
  | some align =>
    match ← alignPartition current align s.reqs moveUp ctx.dynamicPartitions s.solution with
    | none => return none
    | some (e, reqs) =>
      return some { reqs, solution := s.solution.insertIdx (if moveUp then i else i + 1) e }

def firstPartitionHasBeenAligned (first : Req (List Name)) (solution : List Name) : Py Bool :=
  match first.placement.bind Placement.align? with
  | none => .ok false
  | some align =>
    if "end" ∈ align.keys then
      match solution[1]? with
      | none => .error .indexError
      | some p => .ok (p = "EMPTY_0")
    else .ok false

def forwardStep (ctx : LayoutContext) (restart : LayoutState → Py LayoutState) (i : Nat)
    (s : LayoutState) : Py LayoutState := do
  let current ← indexAt s.solution i
  if i = 0 then
    if ← firstPartitionHasBeenAligned (← reqAt s.reqs current) s.solution then return s
    match ← alignIfRequired ctx i false s with
    | none => return s
    | some s => restart s
  else
    let previous ← indexAt s.solution (i - 1)
    let address := (← addressAt s.reqs previous) + (← sizeAt s.reqs previous)
    let s := { s with reqs := ← storeAddress s.reqs current address }
    match ← alignIfRequired ctx i true s with
    | none => return s
    | some s => restart s

/-- The address at which the partition at position `i` must end. -/
def upperBound (ctx : LayoutContext) (i : Nat) (s : LayoutState) : Py Int :=
  if i + 1 = s.solution.length then .ok (ctx.start + ctx.size)
  else do
    let higher ← indexAt s.solution (i + 1)
    addressAt s.reqs higher

def backwardStep (ctx : LayoutContext) (restart : LayoutState → Py LayoutState) (i : Nat)
    (s : LayoutState) : Py LayoutState := do
  let current ← indexAt s.solution i
  let size ← sizeAt s.reqs current
  let bound ← upperBound ctx i s
  let s := { s with reqs := ← storeAddress s.reqs current (bound - size) }
  match ← alignIfRequired ctx i false s with
  | none => return s
  | some s => restart s

def runSteps (step : Nat → LayoutState → Py LayoutState) : List Nat → LayoutState → Py LayoutState
  | [], s => .ok s
  | i :: is, s => do
    let s ← step i s
    runSteps step is s

/-- `except RecursionError: raise PartitionError(ALIGNMENT_ERROR)`. -/
def reportRecursion (restart : LayoutState → Py LayoutState) (s : LayoutState) : Py LayoutState :=
  match restart s with
  | .error .recursionError => .error (.partitionError .alignmentUnfulfilled)
  | r => r

/-- `_set_addresses_and_align`. The recursion depth is what the interpreter allows; both index
ranges are fixed when their loop starts. -/
def assignAddresses (ctx : LayoutContext) : Nat → LayoutState → Py LayoutState
  | 0, _ => .error .recursionError
  | depth + 1, s => do
    let restart := assignAddresses ctx depth
    let s ← runSteps (forwardStep ctx restart) (List.range (s.solution.idxOf ctx.dp + 1)) s
    let first := s.solution.idxOf ctx.dp + 1
    runSteps (backwardStep ctx (reportRecursion restart))
      (List.range' first (s.solution.length - first)).reverse s

/-- The chain that `verify_layout` checks after the first partition. -/
def verifyChain (reqs : PlainReqs) : List Name → Int → Py Unit
  | [], _ => .ok ()
  | p :: ps, expected => do
    let actual ← addressAt reqs p
    if actual ≠ expected then throw (.partitionError (.invalidAddress p actual))
    verifyChain reqs ps (expected + (← sizeAt reqs p))

def verifyLayout (reqs : PlainReqs) (solution : List Name) (totalSize flashStart : Int) :
    Py Unit := do
  let first ← indexAt solution 0
  verifyChain reqs (solution.drop 1) (flashStart + (← sizeAt reqs first))
  let last ← indexAt solution (solution.length - 1)
  if (← addressAt reqs last) + (← sizeAt reqs last) ≠ flashStart + totalSize then
    throw (.partitionError .endAfterLastValidAddress)

def setAddressesAndAlign (fuel depth : Nat) (r : Resolved) (size : Int) (dp : Name)
    (start : Int) : Py LayoutState := do
  let reqs ← setSharedSize fuel r.reqs size dp
  let dynamicPartitions := dp :: getDependentPartitions reqs dp
  let reqs ← storeSize reqs dp (dynamicPartitionsSize reqs size dp)
  let reqs ← storeAddress reqs (← indexAt r.solution 0) start
  if 1 < reqs.keys.length then
    let s ← assignAddresses { size, start, dynamicPartitions, dp } depth
      { reqs, solution := r.solution }
    verifyLayout s.reqs s.solution size start
    return s
  else return { reqs, solution := r.solution }

def sumSizes (reqs : PlainReqs) : List Name → Py Int
  | [] => .ok 0
  | p :: ps => do
    let z ← sizeAt reqs p
    return z + (← sumSizes reqs ps)

def addressesOf (reqs : PlainReqs) : List Name → Py (List Int)
  | [] => .ok []
  | p :: ps => do
    let a ← addressAt reqs p
    return a :: (← addressesOf reqs ps)

def setContainer (reqs : PlainReqs) (sp : Name) : Py PlainReqs := do
  let size ← sumSizes reqs (spanOf reqs sp)
  if size = 0 then throw (.partitionError (.noCompatibleParent sp))
  match ← addressesOf reqs (spanOf reqs sp) with
  | [] => throw .valueError
  | a :: as =>
    return reqs.modify sp fun v =>
      { v with span := v.origSpan, size := some size, address := some (as.foldl min a) }

def setSubPartitionAddressAndSize : List Name → PlainReqs → Py PlainReqs
  | [], reqs => .ok reqs
  | sp :: sps, reqs => do
    let reqs ← setContainer reqs sp
    setSubPartitionAddressAndSize sps reqs

end SdkNrf.PartitionManager
