import SdkNrf.Framework.ExceptRun
import SdkNrf.Framework.Gaps
import SdkNrf.PartitionManager.Layout

/-!
# Regions

`solve_simple_region` places the partitions of a region one after the other from one of its sides, and
`solve_complex_region` around the dynamic partition.
-/

namespace SdkNrf.PartitionManager

variable {R : Type}

inductive PlacementStrategy
  | startToEnd
  | endToStart
  deriving DecidableEq, Repr

def Req.range? (v : Req R) : Option Range := v.address.bind fun a => v.size.map fun z => ⟨a, a + z⟩

/-- `{config['address'] for config in ..}`. -/
def startsOf : List (Req R) → Py (List Int)
  | [] => .ok []
  | v :: vs => do
    let some a := v.address | throw (.keyError "address")
    return a :: (← startsOf vs)

/-- `{config['address'] + config['size'] for config in ..}`. -/
def endsOf : List (Req R) → Py (List Int)
  | [] => .ok []
  | v :: vs => do
    let some a := v.address | throw (.keyError "address")
    let some z := v.size | throw (.keyError "size")
    return (a + z) :: (← endsOf vs)

def gapsBetween (lo hi : Int) (partitions : List (Req R)) : Py (List (Int × Int)) := do
  let starts ← startsOf partitions
  let ends ← endsOf partitions
  return boundaryGaps (hi :: starts) (lo :: ends)

def properPartitions (staticConfig : Reqs R) (dp : Name) : List (Req R) :=
  (staticConfig.items.filter fun e => e.2.span.isNone ∧ e.1 ≠ dp).map Prod.snd

def getDynamicAreaStartAndSize (staticConfig : Reqs R) (flashSize : Int) (dp : Name) : Py (Int × Int) := do
  match ← gapsBetween 0 flashSize (properPartitions staticConfig dp) with
  | [gap] => return (gap.1, gap.2 - gap.1)
  | _ => throw (.partitionError .incorrectAmountOfGaps)

def sizedPartitions (staticConf : Reqs R) : List (Req R) :=
  (staticConf.items.map Prod.snd).filter fun v => v.size.isSome

def verifyStaticConf (size start : Int) (strategy : PlacementStrategy) (staticConf : Reqs R) : Py Unit := do
  match ← gapsBetween start (start + size) (sizedPartitions staticConf) with
  | [] => return ()
  | gap :: gaps =>
    let corner := match strategy with
      | .startToEnd => start + size
      | .endToStart => start
    if gaps ≠ [] ∨ gap.1 ≠ corner then throw (.partitionError .staticNotPacked)

def reservedSize (regionName : String) : List (Req R) → Py Int
  | [] => .ok 0
  | v :: vs =>
    if v.region = some regionName then do
      let some z := v.size | throw (.keyError "size")
      return z + (← reservedSize regionName vs)
    else reservedSize regionName vs

def Req.place (device : String) (a : Int) (v : Req R) : Req R :=
  { v with address := some a, device := if device = "" then v.device else some device }

def placePartitions (strategy : PlacementStrategy) (device : String) :
    List Name → Int → Reqs R → Py (Reqs R × Int)
  | [], address, pmConfig => .ok (pmConfig, address)
  | k :: ks, address, pmConfig => do
    let some z := (pmConfig.get? k).bind Req.size | throw (.keyError "size")
    match strategy with
    | .endToStart =>
      placePartitions strategy device ks (address - z) (pmConfig.modify k (Req.place device (address - z)))
    | .startToEnd => placePartitions strategy device ks (address + z) (pmConfig.modify k (Req.place device address))

def remainderPartition (start size address : Int) (strategy : PlacementStrategy) (regionName : String) :
    Req R :=
  match strategy with
  | .endToStart => { address := some start, size := some (address - start), region := some regionName }
  | .startToEnd => { address := some address, size := some (start + size - address), region := some regionName }

/-- `[k for k in pm_config if 'address' not in pm_config[k]]`. -/
def namesToPlace (pmConfig : Reqs R) : List Name :=
  pmConfig.keys.filter fun k => ((pmConfig.get? k).bind Req.address).isNone

def firstAddress (start size reserved : Int) : PlacementStrategy → Int
  | .endToStart => start + size - reserved
  | .startToEnd => start + reserved

def solveSimpleRegion (pmConfig : Reqs R) (start size : Int) (strategy : PlacementStrategy)
    (regionName device : String) (staticConf : Reqs R) : Py (Reqs R) := do
  if staticConf.items = [] then pure () else verifyStaticConf size start strategy staticConf
  let reserved ← reservedSize regionName (staticConf.items.map Prod.snd)
  let pmConfig := pmConfig.update staticConf
  let (pmConfig, address) ← placePartitions strategy device (namesToPlace pmConfig)
    (firstAddress start size reserved strategy) pmConfig
  if regionName ∈ staticConf.keys then return pmConfig
  else if regionName ∈ pmConfig.keys then throw (.partitionError (.reservedRegionName regionName))
  else return pmConfig.set regionName (remainderPartition start size address strategy regionName)

def plainRefs (l : List Name) : YamlRefs := .list (l.map .name)

def solveArea (ord : SetOrder Name) (fuel depth : Nat) (pmConfig : Reqs YamlRefs) (start size : Int)
    (dp : Name) : Py (Reqs YamlRefs) := do
  let r ← resolve ord fuel pmConfig dp
  let s ← setAddressesAndAlign fuel depth r size dp start
  let reqs ← setSubPartitionAddressAndSize r.subs s.reqs
  return reqs.mapValues (Req.map plainRefs)

def solveComplexRegion (ord : SetOrder Name) (fuel depth : Nat) (pmConfig : Reqs YamlRefs)
    (start size : Int) (staticConf : Reqs YamlRefs) (dp : Name) : Py (Reqs YamlRefs) := do
  if staticConf.items = [] then solveArea ord fuel depth pmConfig start size dp
  else
    let (start, freeSize) ← getDynamicAreaStartAndSize staticConf size dp
    if pmConfig.keys.length = 1 then
      let pmConfig := pmConfig.update staticConf
      if dp ∈ pmConfig.keys then
        return pmConfig.modify dp fun v => { v with address := some start, size := some freeSize }
      else throw (.keyError dp)
    else
      let pmConfig ← solveArea ord fuel depth pmConfig start freeSize dp
      return pmConfig.update (staticConf.filter fun k _ => k ≠ dp)

def rangesOf (partitions : List (Req R)) : List Range := partitions.filterMap Req.range?

theorem Req.range?_eq_some {v : Req R} {r : Range} :
    v.range? = some r ↔ v.address = some r.lower ∧ v.size = some (r.upper - r.lower) := by
  rw [Req.range?]
  cases ha : v.address with
  | none => simp
  | some a =>
    cases hz : v.size with
    | none => simp
    | some z =>
      rw [Option.bind_some, Option.map_some, Option.some.injEq, Option.some.injEq, Option.some.injEq]
      constructor
      · rintro rfl
        exact ⟨rfl, by dsimp only; omega⟩
      · rintro ⟨rfl, rfl⟩
        rw [Range.mk.injEq]
        exact ⟨rfl, by omega⟩

theorem startsOf_eq {partitions : List (Req R)} (hplaced : ∀ v ∈ partitions, v.range?.isSome) :
    startsOf partitions = .ok ((rangesOf partitions).map Range.lower) := by
  induction partitions with
  | nil => rfl
  | cons v vs ih =>
    obtain ⟨r, hr⟩ := Option.isSome_iff_exists.mp (hplaced v (by simp))
    have hrest := ih fun w hw => hplaced w (by simp [hw])
    rw [startsOf, (Req.range?_eq_some.mp hr).1, rangesOf, List.filterMap_cons_some hr]
    dsimp only
    rw [hrest]
    rfl

theorem endsOf_eq {partitions : List (Req R)} (hplaced : ∀ v ∈ partitions, v.range?.isSome) :
    endsOf partitions = .ok ((rangesOf partitions).map Range.upper) := by
  induction partitions with
  | nil => rfl
  | cons v vs ih =>
    obtain ⟨r, hr⟩ := Option.isSome_iff_exists.mp (hplaced v (by simp))
    have hrest := ih fun w hw => hplaced w (by simp [hw])
    have hend : r.lower + (r.upper - r.lower) = r.upper := by omega
    rw [endsOf, (Req.range?_eq_some.mp hr).1, (Req.range?_eq_some.mp hr).2, rangesOf,
      List.filterMap_cons_some hr]
    dsimp only
    rw [hrest, hend]
    rfl

theorem gapsBetween_eq {lo hi : Int} {partitions : List (Req R)}
    (hplaced : ∀ v ∈ partitions, v.range?.isSome) : gapsBetween lo hi partitions =
      .ok (boundaryGaps (hi :: (rangesOf partitions).map Range.lower)
        (lo :: (rangesOf partitions).map Range.upper)) := by
  rw [gapsBetween, startsOf_eq hplaced, endsOf_eq hplaced]
  rfl

end SdkNrf.PartitionManager
