import SdkNrf.PartitionManager.UsableOutput

/-!
# Dicts in place of names

A dict `one_of` stands for the first partition of its list that is left.
-/

namespace SdkNrf.PartitionManager

/-- One occurrence of the name, as a value or in a list, becomes a dict. -/
inductive YamlRefs.Replaces (x : Name) (choices : List Name) : YamlRefs → YamlRefs → Prop
  | value : Replaces x choices (.str x) (.oneOf choices)
  | element (front back : List RefItem) : Replaces x choices (.list (front ++ .name x :: back))
    (.list (front ++ .oneOf choices :: back))

inductive PlacementEntry.Replaces (x : Name) (choices : List Name) :
    PlacementEntry YamlRefs → PlacementEntry YamlRefs → Prop
  | before {r r' : YamlRefs} (h : r.Replaces x choices r') : Replaces x choices (.before r) (.before r')
  | after {r r' : YamlRefs} (h : r.Replaces x choices r') : Replaces x choices (.after r) (.after r')

/-- One occurrence in the requirements of a partition becomes a dict. -/
inductive Req.Replaces (x : Name) (choices : List Name) (v : Req YamlRefs) : Req YamlRefs → Prop
  | placement {p p' : Placement YamlRefs} {front back : List (PlacementEntry YamlRefs)}
    {e e' : PlacementEntry YamlRefs} (hv : v.placement = some p) (hp : p.entries = front ++ e :: back)
    (hp' : p'.entries = front ++ e' :: back) (h : e.Replaces x choices e') :
    Replaces x choices v { v with placement := some p' }
  | span {r r' : YamlRefs} (hv : v.span = some r) (h : r.Replaces x choices r') :
    Replaces x choices v { v with span := some r' }
  | inside {r r' : YamlRefs} (hv : v.inside = some r) (h : r.Replaces x choices r') :
    Replaces x choices v { v with inside := some r' }
  | shareSize {r r' : YamlRefs} (hv : v.shareSize = some r) (h : r.Replaces x choices r') :
    Replaces x choices v { v with shareSize := some r' }

/-- The occurrence is an element of a `share_size` list. -/
def InShareList (x : Name) (choices : List Name) (v v' : Req YamlRefs) : Prop :=
  ∃ front back, v.shareSize = some (.list (front ++ .name x :: back)) ∧
    v'.shareSize = some (.list (front ++ .oneOf choices :: back))

section Resolving

variable {partitions choices : List Name} {x : Name}

theorem resolveAll_replaced (hx : choices.find? (· ∈ partitions) = some x) (front back : List RefItem) :
    RefItem.resolveAll partitions (front ++ .oneOf choices :: back) =
      RefItem.resolveAll partitions (front ++ .name x :: back) := by
  induction front with
  | nil =>
    have hfirst : firstExisting partitions choices = .ok x := by rw [firstExisting, hx]
    rw [List.nil_append, List.nil_append, RefItem.resolveAll, RefItem.resolveAll, RefItem.resolve,
      RefItem.resolve, hfirst]
  | cons i front ih => rw [List.cons_append, List.cons_append, RefItem.resolveAll, RefItem.resolveAll, ih]

theorem YamlRefs.Replaces.resolveOneOf {r r' : YamlRefs} (h : r.Replaces x choices r')
    (hx : choices.find? (· ∈ partitions) = some x) :
    resolveOneOf partitions (convertStrToList r') = resolveOneOf partitions (convertStrToList r) := by
  cases h with
  | value =>
    have hfirst : firstExisting partitions choices = .ok x := by rw [firstExisting, hx]
    simp only [convertStrToList, PartitionManager.resolveOneOf, hfirst]
    rfl
  | element front back => exact resolveAll_replaced hx front back

theorem PlacementEntry.Replaces.mapM {e e' : PlacementEntry YamlRefs} (h : e.Replaces x choices e')
    (hx : choices.find? (· ∈ partitions) = some x) :
    (e'.map convertStrToList).mapM (resolveOneOf partitions) =
      (e.map convertStrToList).mapM (resolveOneOf partitions) := by
  cases h with
  | before h => rw [PlacementEntry.map, PlacementEntry.map, PlacementEntry.mapM, PlacementEntry.mapM,
      h.resolveOneOf hx]
  | after h => rw [PlacementEntry.map, PlacementEntry.map, PlacementEntry.mapM, PlacementEntry.mapM,
      h.resolveOneOf hx]

theorem mapEntriesM_middle {R S ε : Type} {f : R → Except ε S} {e e' : PlacementEntry R}
    (h : e'.mapM f = e.mapM f) (front back : List (PlacementEntry R)) :
    PlacementEntry.mapEntriesM f (front ++ e' :: back) =
      PlacementEntry.mapEntriesM f (front ++ e :: back) := by
  induction front with
  | nil => rw [List.nil_append, List.nil_append, PlacementEntry.mapEntriesM, PlacementEntry.mapEntriesM, h]
  | cons a front ih =>
    rw [List.cons_append, List.cons_append, PlacementEntry.mapEntriesM, PlacementEntry.mapEntriesM, ih]

theorem Placement.mapM_congr {R S ε : Type} {f : R → Except ε S} {p p' : Placement R}
    (h : PlacementEntry.mapEntriesM f p'.entries = PlacementEntry.mapEntriesM f p.entries) :
    p'.mapM f = p.mapM f := by
  rw [Placement.mapM, Placement.mapM]
  split <;> split <;> simp_all

end Resolving

def Req.withoutRefs (w : Req Refs) : Req Refs :=
  { w with placement := none, span := none, inside := none, shareSize := none }

structure ResolvesAlike (partitions : List Name) (w w' : Req Refs) : Prop where
  placement : mapOption (Placement.mapM (resolveOneOf partitions)) w'.placement =
    mapOption (Placement.mapM (resolveOneOf partitions)) w.placement
  empty : w'.placement.any (·.entries.isEmpty) = w.placement.any (·.entries.isEmpty)
  span : mapOption (resolveOneOf partitions) w'.span = mapOption (resolveOneOf partitions) w.span
  inside : mapOption (resolveOneOf partitions) w'.inside = mapOption (resolveOneOf partitions) w.inside
  shareSize : mapOption (resolveOneOf partitions) w'.shareSize =
    mapOption (resolveOneOf partitions) w.shareSize
  rest : w'.withoutRefs = w.withoutRefs

namespace ResolvesAlike

variable {partitions : List Name} {w w' : Req Refs}

theorem refl (partitions : List Name) (w : Req Refs) : ResolvesAlike partitions w w :=
  ⟨rfl, rfl, rfl, rfl, rfl, rfl⟩

theorem resolveOneOf (h : ResolvesAlike partitions w w') :
    w'.resolveOneOf partitions = w.resolveOneOf partitions := by
  have hrest := h.rest
  simp only [Req.withoutRefs, Req.mk.injEq, true_and] at hrest
  obtain ⟨hsize, haddress, hregion, hdevice, hsharers, horig⟩ := hrest
  simp only [Req.resolveOneOf, h.placement, h.span, h.inside, h.shareSize, hsize, haddress, hregion,
    hdevice, hsharers, horig]

end ResolvesAlike

theorem removeIrrelevantRequirements_congr {reqs reqs' : Reqs Refs} {dp : Name} {left left' : Reqs Refs}
    (hleft : removeAllZeroSizedPartitions reqs dp = left)
    (hleft' : removeAllZeroSizedPartitions reqs' dp = left') (hkeys : left'.keys = left.keys)
    (h : ∀ q w w', left.get? q = some w → left'.get? q = some w' →
      ResolvesAlike (left.keys ++ ["end", "start"]) w w') :
    removeIrrelevantRequirements reqs' dp = removeIrrelevantRequirements reqs dp := by
  have hempty : emptyPlacement? left' = emptyPlacement? left := by
    rw [emptyPlacement?, emptyPlacement?, hkeys]
    refine List.find?_congr fun q hq => ?_
    obtain ⟨w, hw⟩ := Option.isSome_iff_exists.mp ((Dict.get?_isSome_iff left q).mpr hq)
    obtain ⟨w', hw'⟩ := Option.isSome_iff_exists.mp ((Dict.get?_isSome_iff left' q).mpr (hkeys ▸ hq))
    rw [hw, hw']
    exact (h q w w' hw hw').empty
  have hmap : left'.mapValuesM (Req.resolveOneOf (left.keys ++ ["end", "start"])) =
      left.mapValuesM (Req.resolveOneOf (left.keys ++ ["end", "start"])) :=
    Dict.mapValuesM_congr hkeys fun q w' w hw' hw => (h q w w' hw hw').resolveOneOf
  simp only [removeIrrelevantRequirements, hleft, hleft', hempty, hkeys, hmap]

/-- Two dicts whose partitions have the same size and share the same sizes, except that `x` may stand
among other names. -/
structure SameRemoval (x : Name) (reqs reqs' : Reqs Refs) : Prop where
  keys : reqs'.keys = reqs.keys
  size : ∀ q, givenSize reqs' q = givenSize reqs q
  share : ∀ q, givenShare reqs' q = givenShare reqs q ∨ givenSize reqs q = some 0 ∨
    ∃ refs refs', givenShare reqs q = some refs ∧ givenShare reqs' q = some refs' ∧
      x ∈ refs.targets ∧ x ∈ refs'.targets

namespace SameRemoval

variable {x dp : Name} {reqs reqs' : Reqs Refs}

theorem symm (h : SameRemoval x reqs reqs') : SameRemoval x reqs' reqs where
  keys := h.keys.symm
  size q := (h.size q).symm
  share q := by
    rcases h.share q with hq | hq | ⟨refs, refs', hrefs, hrefs', hx, hx'⟩
    · exact .inl hq.symm
    · exact .inr (.inl ((h.size q).trans hq))
    · exact .inr (.inr ⟨refs', refs, hrefs', hrefs, hx', hx⟩)

/-- A closed set without `x` is closed for the other dict too. -/
theorem closed (h : SameRemoval x reqs reqs') {R : Set Name} (hR : ClosedUnderRemoval reqs dp R)
    (hmem : x ∈ reqs.keys) (hx : x ∉ R) : ClosedUnderRemoval reqs' dp R := by
  intro q hq
  apply hR q
  rw [h.size, h.keys] at hq
  refine hq.imp_right fun ⟨hnone, refs', hrefs', hgone⟩ => ⟨hnone, ?_⟩
  rcases h.share q with hq | hq | ⟨-, refs₁, -, hrefs₁, -, hx'⟩
  · exact ⟨refs', hq ▸ hrefs', hgone⟩
  · rw [hnone] at hq
    cases hq
  · rw [hrefs', Option.some.injEq] at hrefs₁
    subst hrefs₁
    rcases (hgone x hx').2 with hnot | hin
    · exact absurd hmem hnot
    · exact absurd hin hx

theorem removable (h : SameRemoval x reqs reqs')
    (hx : x ∈ (removeAllZeroSizedPartitions reqs dp).keys) : removable reqs' dp = removable reqs dp := by
  rw [mem_keys_removeAll] at hx
  have hsub : PartitionManager.removable reqs' dp ⊆ PartitionManager.removable reqs dp :=
    fun q hq => hq _ (h.closed (removable_closed reqs dp) hx.1 hx.2)
  refine Set.Subset.antisymm hsub fun q hq => hq _ ?_
  exact h.symm.closed (removable_closed reqs' dp) (h.keys ▸ hx.1) fun hx' => hx.2 (hsub hx')

theorem keys_removeAll (h : SameRemoval x reqs reqs')
    (hx : x ∈ (removeAllZeroSizedPartitions reqs dp).keys) :
    (removeAllZeroSizedPartitions reqs' dp).keys = (removeAllZeroSizedPartitions reqs dp).keys := by
  rw [PartitionManager.keys_removeAll, PartitionManager.keys_removeAll, h.keys]
  refine List.filter_congr fun q _ => ?_
  rw [decide_eq_decide, mem_toDelete_iff, mem_toDelete_iff, h.removable hx]

end SameRemoval

section Replaced

variable {left choices : List Name} {x dp : Name} {v v' : Req YamlRefs}

def Req.remaining (left : List Name) (dp : Name) (v : Req YamlRefs) : Req Refs :=
  (v.map convertStrToList).leave left dp

theorem find?_filter_keeps (hx : x ∈ left)
    (hfirst : choices.find? (· ∈ left ++ ["end", "start"]) = some x) :
    (choices.filter (keeps left dp)).find? (· ∈ left ++ ["end", "start"]) = some x := by
  obtain ⟨hmem, front, back, rfl, hfront⟩ := List.find?_eq_some_iff_append.mp hfirst
  rw [List.filter_append, List.filter_cons_of_pos (by simp [keeps, hx])]
  refine List.find?_eq_some_iff_append.mpr ⟨hmem, _, _, rfl, fun a ha => ?_⟩
  exact hfront a (List.mem_filter.mp ha).1

/-- As the value of `share_size` the dict keeps the name, and resolves to it. -/
theorem resolve_leftShare_value (hx : x ∈ left)
    (hfirst : choices.find? (· ∈ left ++ ["end", "start"]) = some x) :
    mapOption (resolveOneOf (left ++ ["end", "start"])) (leftShare left dp (.oneOf choices)) =
      mapOption (resolveOneOf (left ++ ["end", "start"])) (leftShare left dp (.list [.name x])) := by
  have hkept : (choices.filter (keeps left dp)).find? (· ∈ left ++ ["end", "start"]) = some x :=
    find?_filter_keeps hx hfirst
  have hne : (choices.filter (keeps left dp)).isEmpty = false := by
    rw [List.isEmpty_eq_false_iff]
    intro hnil
    rw [hnil] at hkept
    cases hkept
  have hxkeep : keeps left dp x = true := by simp [keeps, hx]
  have hname : leftShare left dp (.list [.name x]) = some (.list [.name x]) := by
    simp [leftShare, Refs.keep, Refs.isEmpty, hxkeep]
  have hdict : leftShare left dp (.oneOf choices) = some (.oneOf (choices.filter (keeps left dp))) := by
    simp [leftShare, Refs.keep, Refs.isEmpty, hne]
  have hres := YamlRefs.Replaces.value.resolveOneOf hkept
  rw [hname, hdict]
  simp only [convertStrToList] at hres
  simp only [mapOption, hres]

theorem Req.Replaces.resolvesAlike (h : v.Replaces x choices v') (hx : x ∈ left)
    (hfirst : choices.find? (· ∈ left ++ ["end", "start"]) = some x)
    (hnot : ¬ InShareList x choices v v') :
    ResolvesAlike (left ++ ["end", "start"]) (v.remaining left dp) (v'.remaining left dp) := by
  cases h with
  | @placement p p' front back e e' hv hp hp' he =>
    have hentries : PlacementEntry.mapEntriesM (PartitionManager.resolveOneOf (left ++ ["end", "start"]))
          (p'.map convertStrToList).entries =
        PlacementEntry.mapEntriesM (PartitionManager.resolveOneOf (left ++ ["end", "start"]))
          (p.map convertStrToList).entries := by
      simp only [Placement.map, hp, hp', List.map_append, List.map_cons]
      exact mapEntriesM_middle (he.mapM hfirst) _ _
    refine ⟨?_, ?_, rfl, rfl, rfl, rfl⟩
    · simp only [Req.remaining, Req.leave, Req.map, hv, Option.map_some, mapOption,
        Placement.mapM_congr hentries]
    · simp only [Req.remaining, Req.leave, Req.map, hv, Option.map_some, Placement.map, hp, hp',
        List.map_append, List.map_cons, Option.any_some]
      cases front <;> rfl
  | span hv h =>
    refine ⟨rfl, rfl, ?_, rfl, rfl, rfl⟩
    simp only [Req.remaining, Req.leave, Req.map, hv, Option.map_some, mapOption, h.resolveOneOf hfirst]
  | inside hv h =>
    refine ⟨rfl, rfl, rfl, ?_, rfl, rfl⟩
    simp only [Req.remaining, Req.leave, Req.map, hv, Option.map_some, mapOption, h.resolveOneOf hfirst]
  | shareSize hv h =>
    cases h with
    | value =>
      refine ⟨rfl, rfl, rfl, rfl, ?_, rfl⟩
      simp only [Req.remaining, Req.leave, Req.map, hv, Option.map_some, Option.bind_some, convertStrToList]
      exact resolve_leftShare_value hx hfirst
    | element front back => exact absurd ⟨front, back, hv, rfl⟩ hnot

end Replaced

section Run

variable {reqs : Reqs YamlRefs} {choices : List Name} {p x dp : Name} {v v' : Req YamlRefs}

def converted (reqs : Reqs YamlRefs) : Reqs Refs := reqs.mapValues (Req.map convertStrToList)

def survivingNames (reqs : Reqs YamlRefs) (dp : Name) : List Name :=
  (removeAllZeroSizedPartitions (converted reqs) dp).keys

/-- The removal drops the dict from the `share_size` list of a partition that is not of size zero. -/
def LostFromShare (x : Name) (choices : List Name) (v v' : Req YamlRefs) : Prop :=
  v.size ≠ some 0 ∧ InShareList x choices v v'

theorem get?_converted_modify (q : Name) (hv : reqs.get? p = some v) :
    (converted (reqs.modify p fun _ => v')).get? q =
      if q = p then some (v'.map convertStrToList) else (converted reqs).get? q := by
  rw [converted, converted, Dict.get?_mapValues, Dict.get?_mapValues, Dict.get?_modify]
  split
  next hq => rw [hq, hv]; rfl
  next => rfl

theorem Req.Replaces.size_eq (h : v.Replaces x choices v') : v'.size = v.size := by
  cases h <;> rfl

theorem Req.Replaces.sameRemoval (h : v.Replaces x choices v') (hv : reqs.get? p = some v)
    (hx : x ∈ choices) (hkept : ¬ LostFromShare x choices v v') :
    SameRemoval x (converted reqs) (converted (reqs.modify p fun _ => v')) := by
  have hget : (converted reqs).get? p = some (v.map convertStrToList) := by
    rw [converted, Dict.get?_mapValues, hv]
    rfl
  refine ⟨?_, fun q => ?_, fun q => ?_⟩
  · rw [converted, converted, Dict.keys_mapValues, Dict.keys_mapValues, Dict.keys_modify]
  · rw [givenSize, givenSize, get?_converted_modify q hv]
    split
    next hq =>
      rw [hq, hget]
      exact h.size_eq
    next => rfl
  · rw [givenShare, givenShare, givenSize, get?_converted_modify q hv]
    split
    next hq =>
      rw [hq, hget, Option.bind_some, Option.bind_some, Option.bind_some]
      cases h with
      | placement => exact .inl rfl
      | span => exact .inl rfl
      | inside => exact .inl rfl
      | shareSize hshare hr =>
        right
        cases hr with
        | value =>
          refine .inr ⟨.list [.name x], .oneOf choices, ?_, rfl, List.mem_singleton_self x, hx⟩
          rw [Req.map, hshare]
          rfl
        | element front back =>
          left
          by_contra hsize
          exact hkept ⟨hsize, front, back, hshare, rfl⟩
    next => exact .inl rfl

theorem Req.Replaces.prepare (h : v.Replaces x choices v') (hv : reqs.get? p = some v)
    (hx : x ∈ survivingNames reqs dp)
    (hfirst : choices.find? (· ∈ survivingNames reqs dp ++ ["end", "start"]) = some x)
    (hkept : ¬ LostFromShare x choices v v') :
    prepare (reqs.modify p fun _ => v') dp = PartitionManager.prepare reqs dp := by
  have hsame := h.sameRemoval hv (List.mem_of_find?_eq_some hfirst) hkept
  have hkeys := hsame.keys_removeAll hx
  refine removeIrrelevantRequirements_congr rfl rfl hkeys fun q w w' hw hw' => ?_
  have hmem := Dict.mem_keys_of_get? hw
  rw [get?_removeAll _ _ hmem] at hw
  rw [← converted, get?_removeAll _ _ (hkeys ▸ hmem), get?_converted_modify q hv] at hw'
  by_cases hq : q = p
  · subst hq
    rw [Dict.get?_mapValues, hv, Option.map_some, Option.map_some, Option.some.injEq] at hw
    rw [if_pos rfl, Option.map_some, Option.some.injEq] at hw'
    subst hw hw'
    rw [hkeys]
    have hnot : ¬ InShareList x choices v v' := by
      intro hshare
      refine hkept ⟨fun hzero => ?_, hshare⟩
      refine ((mem_keys_removeAll _ _ q).mp hmem).2 fun R hR => hR q (.inl ?_)
      rw [givenSize, Dict.get?_mapValues, hv]
      exact hzero
    exact h.resolvesAlike hx hfirst hnot
  · rw [if_neg hq, hkeys] at hw'
    rw [converted, hw, Option.some.injEq] at hw'
    subst hw'
    exact .refl _ w

theorem resolveAll_length {partitions : List Name} {items : List RefItem} {l : List Name}
    (h : RefItem.resolveAll partitions items = .ok l) : l.length = items.length := by
  induction items generalizing l with
  | nil =>
    cases h
    rfl
  | cons i is ih =>
    simp only [RefItem.resolveAll, bind_eq_ok, pure_eq_ok] at h
    obtain ⟨n, -, ns, hns, rfl⟩ := h
    rw [List.length_cons, List.length_cons, ih hns]

theorem Refs.keep_length {f : Name → Bool} {items items' : List RefItem}
    (h : (Refs.list items).keep f = .list items') :
    items'.length = ((Refs.list items).targets.filter f).length := by
  rw [Refs.keep, Refs.list.injEq] at h
  subst h
  rw [Refs.targets]
  induction items with
  | nil => rfl
  | cons i is ih =>
    cases i with
    | name n => by_cases hn : f n <;> simp [hn, ih]
    | oneOf choices => simpa [List.filter_cons] using ih

theorem leftShare_length {partitions left : List Name} {items : List RefItem} {s : Option (List Name)}
    (h : mapOption (resolveOneOf partitions) (leftShare left dp (.list items)) = .ok s) :
    (s.getD []).length = ((Refs.list items).targets.filter (keeps left dp)).length := by
  rw [leftShare] at h
  split at h
  next hempty =>
    cases h
    rw [Refs.isEmpty_keep] at hempty
    rw [List.filter_eq_nil_iff.mpr fun t ht => by rw [hempty t ht]; exact Bool.false_ne_true]
    rfl
  next =>
    simp only [mapOption, Refs.keep, bind_eq_ok, pure_eq_ok] at h
    obtain ⟨l, hl, rfl⟩ := h
    rw [← Refs.keep_length rfl]
    exact resolveAll_length hl

theorem prepare_keys_eq {pre : PlainReqs} (h : prepare reqs dp = .ok pre) :
    pre.keys = survivingNames reqs dp := by
  obtain ⟨zeroFree, resolved, rfl, hresolved, rfl⟩ := prepare_eq_ok h
  rw [Dict.keys_mapValues, Dict.keys_mapValuesM hresolved]
  rfl

theorem prepare_shareSize {pre : PlainReqs} (h : prepare reqs dp = .ok pre)
    (hv : reqs.get? p = some v) (hp : p ∈ pre.keys) :
    mapOption (resolveOneOf (survivingNames reqs dp ++ ["end", "start"]))
        ((v.shareSize.map convertStrToList).bind (leftShare (survivingNames reqs dp) dp)) =
      .ok ((pre.get? p).bind Req.shareSize) := by
  obtain ⟨w, hw⟩ := Option.isSome_iff_exists.mp ((Dict.get?_isSome_iff _ _).mpr hp)
  rw [hw, Option.bind_some]
  obtain ⟨zeroFree, resolved, rfl, hresolved, rfl⟩ := prepare_eq_ok h
  rw [Dict.get?_mapValues, Option.map_eq_some_iff] at hw
  obtain ⟨w', hw', rfl⟩ := hw
  obtain ⟨u, hu, hresolve⟩ := Dict.get?_mapValuesM hresolved hw'
  rw [get?_removeAll _ _ (Dict.mem_keys_of_get? hu), Dict.get?_mapValues, hv, Option.map_some,
    Option.map_some, Option.some.injEq] at hu
  subst hu
  simp only [Req.resolveOneOf, bind_eq_ok, pure_eq_ok] at hresolve
  obtain ⟨_, -, _, -, _, -, share, hshare, rfl⟩ := hresolve
  exact hshare

/-- A partition whose `share_size` list names something that is left is left, unless its own size is
zero. -/
theorem mem_survivingNames_of_share {refs : Refs} (hp : p ∈ (converted reqs).keys)
    (hsize : givenSize (converted reqs) p ≠ some 0) (hshare : givenShare (converted reqs) p = some refs)
    (hx : x ∈ refs.targets) (hleft : x ∈ survivingNames reqs dp) : p ∈ survivingNames reqs dp := by
  rw [survivingNames, mem_keys_removeAll] at hleft ⊢
  refine ⟨hp, fun hremovable => ?_⟩
  refine (hremovable {q | q ∈ removable (converted reqs) dp ∧ q ≠ p} fun q hq => ?_).2 rfl
  refine ⟨removable_closed _ dp q (hq.imp_right fun h => ⟨h.1, ?_⟩), ?_⟩
  · obtain ⟨refs', hrefs', hgone⟩ := h.2
    exact ⟨refs', hrefs', fun t ht => ⟨(hgone t ht).1, (hgone t ht).2.imp_right And.left⟩⟩
  · rintro rfl
    rcases hq with hzero | ⟨-, refs', hrefs', hgone⟩
    · exact hsize hzero
    · rw [hshare, Option.some.injEq] at hrefs'
      subst hrefs'
      rcases (hgone x hx).2 with hnot | hin
      · exact hnot hleft.1
      · exact hleft.2 hin.1

theorem targets_append (front back : List RefItem) :
    (Refs.list (front ++ back)).targets = (Refs.list front).targets ++ (Refs.list back).targets :=
  List.filterMap_append ..

theorem resolve_lost {ord : SetOrder Name} {fuel : Nat} {r : Resolved} (hv : reqs.get? p = some v)
    (hx : x ∈ survivingNames reqs dp) (hlost : LostFromShare x choices v v')
    (hr : resolve ord fuel reqs dp = .ok r) :
    resolve ord fuel (reqs.modify p fun _ => v') dp ≠ .ok r := by
  intro hr'
  obtain ⟨hsize, front, back, hshare, hshare'⟩ := hlost
  simp only [resolve, bind_eq_ok] at hr hr'
  obtain ⟨pre, hprep, hr⟩ := hr
  obtain ⟨pre', hprep', hr'⟩ := hr'
  obtain ⟨cleaned, unsolved, hsolved⟩ := resolvePrepared_eq_ok hr
  obtain ⟨cleaned', unsolved', hsolved'⟩ := resolvePrepared_eq_ok hr'
  have hkeys : survivingNames (reqs.modify p fun _ => v') dp = survivingNames reqs dp := by
    rw [← prepare_keys_eq hprep, ← prepare_keys_eq hprep', ← hsolved.keys, ← hsolved'.keys]
  have hget : (converted reqs).get? p = some (v.map convertStrToList) := by
    rw [converted, Dict.get?_mapValues, hv]
    rfl
  have hp : p ∈ survivingNames reqs dp := by
    have htargets : x ∈ (Refs.list (front ++ .name x :: back)).targets := by
      rw [targets_append]
      exact List.mem_append_right _ (List.mem_cons_self ..)
    refine mem_survivingNames_of_share (Dict.mem_keys_of_get? hget) ?_ ?_ htargets hx
    · rw [givenSize, hget]
      exact hsize
    · rw [givenShare, hget, Option.bind_some, Req.map, hshare]
      rfl
  have hone := prepare_shareSize hprep hv (by rwa [prepare_keys_eq hprep])
  have hv' : (reqs.modify p fun _ => v').get? p = some v' := by
    rw [Dict.get?_modify_self, hv]
    rfl
  have htwo := prepare_shareSize hprep' hv' (by rw [prepare_keys_eq hprep', hkeys]; exact hp)
  rw [hshare, Option.map_some, Option.bind_some, convertStrToList] at hone
  rw [hshare', Option.map_some, Option.bind_some, convertStrToList, hkeys] at htwo
  have hsame : (pre.get? p).bind Req.shareSize = (pre'.get? p).bind Req.shareSize := by
    rw [← hsolved.field_eq (fun _ => rfl) (fun _ _ => rfl) p,
      ← hsolved'.field_eq (fun _ => rfl) (fun _ _ => rfl) p]
  have hlen := leftShare_length hone
  rw [hsame, leftShare_length htwo, targets_append, targets_append, List.filter_append,
    List.filter_append, List.length_append, List.length_append] at hlen
  have hkeep : keeps (survivingNames reqs dp) dp x = true := by simp [keeps, hx]
  have hcons : (Refs.list (.name x :: back)).targets = x :: (Refs.list back).targets := rfl
  have hskip : (Refs.list (.oneOf choices :: back)).targets = (Refs.list back).targets := rfl
  rw [hcons, hskip, List.filter_cons_of_pos hkeep, List.length_cons] at hlen
  omega

/-- What `resolve` and `set_addresses_and_align` compute. -/
def layoutOf (ord : SetOrder Name) (fuel depth : Nat) (reqs : Reqs YamlRefs) (size : Int) (dp : Name)
    (start : Int) : Py (Resolved × LayoutState) := do
  let r ← resolve ord fuel reqs dp
  let s ← setAddressesAndAlign fuel depth r size dp start
  return (r, s)

/-- A dict whose first choice that is left is the name can stand for an occurrence of the name exactly
where it is not an element of a `share_size` list. -/
theorem oneOf_substitutes_iff (hv : reqs.get? p = some v) (h : v.Replaces x choices v')
    (hx : x ∈ survivingNames reqs dp)
    (hfirst : choices.find? (· ∈ survivingNames reqs dp ++ ["end", "start"]) = some x) :
    (¬ LostFromShare x choices v v' → ∀ ord fuel depth size start,
      resolve ord fuel (reqs.modify p fun _ => v') dp = resolve ord fuel reqs dp ∧
        layoutOf ord fuel depth (reqs.modify p fun _ => v') size dp start =
          layoutOf ord fuel depth reqs size dp start) ∧
    ∀ ord fuel depth size start r, resolve ord fuel reqs dp = .ok r →
      (resolve ord fuel (reqs.modify p fun _ => v') dp = .ok r ∧
        layoutOf ord fuel depth (reqs.modify p fun _ => v') size dp start =
          layoutOf ord fuel depth reqs size dp start ↔ ¬ LostFromShare x choices v v') := by
  have hkept (hnot : ¬ LostFromShare x choices v v') (ord : SetOrder Name) (fuel : Nat) :
      resolve ord fuel (reqs.modify p fun _ => v') dp = resolve ord fuel reqs dp := by
    rw [resolve, resolve, h.prepare hv hx hfirst hnot]
  refine ⟨fun hnot ord fuel depth size start => ⟨hkept hnot ord fuel, ?_⟩, ?_⟩
  · rw [layoutOf, layoutOf, hkept hnot ord fuel]
  · intro ord fuel depth size start r hr
    refine ⟨fun hsame hlost => resolve_lost hv hx hlost hr hsame.1, fun hnot => ?_⟩
    rw [layoutOf, layoutOf, hkept hnot ord fuel]
    exact ⟨hr, rfl⟩

end Run

def backup (share : YamlRefs) : Req YamlRefs :=
  { placement := some ⟨[.after (.str "settings")], by simp⟩, shareSize := some share }

def settingsPlacement : List (PlacementEntry YamlRefs) := [.after (.str "app")]

theorem settingsPlacement_nodup : (settingsPlacement.map PlacementEntry.key).Nodup := by decide

def settingsWithBackupItems : List (Name × Req YamlRefs) :=
  [("settings", { size := some 256, placement := some ⟨settingsPlacement, settingsPlacement_nodup⟩ }),
    ("backup", backup (.str "settings")), ("app", { region := some "flash_primary" })]

theorem settingsWithBackupItems_nodup : (settingsWithBackupItems.map Prod.fst).Nodup := by
  simp [settingsWithBackupItems]

def settingsWithBackup : Reqs YamlRefs := ⟨settingsWithBackupItems, settingsWithBackupItems_nodup⟩

theorem settingsWithBackup_value : ∃ r, resolve (SetOrder.dedup Name) 3 settingsWithBackup "app" = .ok r ∧
    resolve (SetOrder.dedup Name) 3 (settingsWithBackup.modify "backup" fun _ =>
      backup (.oneOf ["missing", "settings"])) "app" = .ok r := by
  obtain ⟨r, hr, -⟩ := exists_of_returnsWith
    (x := resolve (SetOrder.dedup Name) 3 settingsWithBackup "app") (fun _ => true) (by decide)
  have hget : settingsWithBackup.get? "backup" = some (backup (.str "settings")) := rfl
  have hreplaces : (backup (.str "settings")).Replaces "settings" ["missing", "settings"]
    (backup (.oneOf ["missing", "settings"])) := .shareSize rfl .value
  have hiff := (oneOf_substitutes_iff hget hreplaces (by decide) (by decide)).2
    (SetOrder.dedup Name) 3 5 1000 0 r hr
  refine ⟨r, hr, (hiff.mpr ?_).1⟩
  rintro ⟨-, front, back, hshare, -⟩
  cases hshare

/-- In a list the dict is lost, and with it the partition. -/
theorem backup_lost : ∃ r r', (backup (.list [.name "settings"])).Replaces "settings"
      ["missing", "settings"] (backup (.list [.oneOf ["missing", "settings"]])) ∧
    ["missing", "settings"].find? (· ∈ survivingNames (settingsWithBackup.modify "backup" fun _ =>
      backup (.list [.name "settings"])) "app") = some "settings" ∧
    resolve (SetOrder.dedup Name) 3 (settingsWithBackup.modify "backup" fun _ =>
      backup (.list [.name "settings"])) "app" = .ok r ∧
    resolve (SetOrder.dedup Name) 3 (settingsWithBackup.modify "backup" fun _ =>
      backup (.list [.oneOf ["missing", "settings"]])) "app" = .ok r' ∧
    "backup" ∈ r.reqs.keys ∧ "backup" ∉ r'.reqs.keys := by
  obtain ⟨r, hr, hmem⟩ := exists_of_returnsWith (x := resolve (SetOrder.dedup Name) 3
    (settingsWithBackup.modify "backup" fun _ => backup (.list [.name "settings"])) "app")
    (fun r => decide ("backup" ∈ r.reqs.keys)) (by decide)
  obtain ⟨r', hr', hlost⟩ := exists_of_returnsWith (x := resolve (SetOrder.dedup Name) 3
    (settingsWithBackup.modify "backup" fun _ =>
      backup (.list [.oneOf ["missing", "settings"]])) "app")
    (fun r => decide ("backup" ∉ r.reqs.keys)) (by decide)
  exact ⟨r, r', .shareSize rfl (.element [] []), by decide, hr, hr', of_decide_eq_true hmem,
    of_decide_eq_true hlost⟩

end SdkNrf.PartitionManager
