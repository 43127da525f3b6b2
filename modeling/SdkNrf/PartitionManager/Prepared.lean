import SdkNrf.Framework.ExceptRun
import SdkNrf.PartitionManager.Resolve

/-!
# What the preparation keeps

Dropping partitions of size zero, resolving `one_of` and dropping references to partitions that
do not exist leave the size and the alignment of the remaining partitions as they were given.
-/

namespace SdkNrf.PartitionManager

variable {R S ε : Type}

/-- The `placement` dict of a partition. -/
def placementOf (reqs : Reqs R) (p : Name) : Option (Placement R) := (reqs.get? p).bind Req.placement

/-- The `align` dict that a partition is given. -/
def givenAlign (reqs : Reqs R) (p : Name) : Option Align := (placementOf reqs p).bind Placement.align?

theorem Placement.align?_map (f : R → S) (p : Placement R) : (p.map f).align? = p.align? := by
  rw [Placement.align?, Placement.align?, Placement.map, List.findSome?_map]
  congr 1
  funext e
  cases e <;> rfl

private theorem mapEntriesM_align? {f : R → Except ε S} {es : List (PlacementEntry R)}
    {es' : List (PlacementEntry S)} (h : PlacementEntry.mapEntriesM f es = .ok es') :
    (es'.findSome? fun | .align a => some a | _ => none) =
      es.findSome? fun | .align a => some a | _ => none := by
  induction es generalizing es' with
  | nil =>
    cases h
    rfl
  | cons e es ih =>
    simp only [PlacementEntry.mapEntriesM, bind_eq_ok, pure_eq_ok] at h
    obtain ⟨e', he, rest, hrest, rfl⟩ := h
    rw [List.findSome?_cons, List.findSome?_cons, ih hrest]
    cases e with
    | before r =>
      simp only [PlacementEntry.mapM, bind_eq_ok, pure_eq_ok] at he
      obtain ⟨s, _, rfl⟩ := he
      rfl
    | after r =>
      simp only [PlacementEntry.mapM, bind_eq_ok, pure_eq_ok] at he
      obtain ⟨s, _, rfl⟩ := he
      rfl
    | align a =>
      simp only [PlacementEntry.mapM, pure_eq_ok] at he
      subst he
      rfl

theorem Placement.align?_mapM {f : R → Except ε S} {p : Placement R} {p' : Placement S}
    (h : p.mapM f = .ok p') : p'.align? = p.align? := by
  rw [Placement.mapM] at h
  split at h
  · cases h
  next es hes =>
    cases h
    exact mapEntriesM_align? hes

theorem Placement.align?_removeMissing (existing : List Name) (dp : Name)
    (p : Placement (List Name)) :
    (p.filterMap (PlacementEntry.removeMissing existing dp)
      PlacementEntry.removeMissing_key).align? = p.align? := by
  rw [Placement.align?, Placement.align?, Placement.filterMap]
  dsimp only
  induction p.entries with
  | nil => rfl
  | cons e es ih =>
    cases e with
    | before l =>
      rw [List.filterMap_cons, List.findSome?_cons, ← ih]
      simp only [PlacementEntry.removeMissing]
      split <;> rename_i heq <;> split at heq <;> cases heq <;> rfl
    | after l =>
      rw [List.filterMap_cons, List.findSome?_cons, ← ih]
      simp only [PlacementEntry.removeMissing]
      split <;> rename_i heq <;> split at heq <;> cases heq <;> rfl
    | align a => rfl

private def sizeAndPlacement (reqs : Reqs R) (p : Name) : Option (Option Int × Option (Placement R)) :=
  (reqs.get? p).map fun v => (v.size, v.placement)

private theorem sizeAndPlacement_shareSize (reqs : Reqs R) (k p : Name) (l : Option R) :
    sizeAndPlacement (reqs.modify k fun v => { v with shareSize := l }) p =
      sizeAndPlacement reqs p := by
  rw [sizeAndPlacement, sizeAndPlacement, Dict.get?_modify]
  split <;> cases reqs.get? p <;> rfl

private theorem foldl_sizeAndPlacement {f : ZeroState → Name → ZeroState} {p : Name}
    (hf : ∀ st k, sizeAndPlacement (f st k).reqs p = sizeAndPlacement st.reqs p) (l : List Name)
    (st : ZeroState) : sizeAndPlacement (l.foldl f st).reqs p = sizeAndPlacement st.reqs p := by
  induction l generalizing st with
  | nil => rfl
  | cons k l ih => rw [List.foldl_cons, ih, hf]

private theorem removeZeroSized_kept (dp : Name) (depth : Nat) (keys : List Name) (st : ZeroState)
    (p : Name) :
    sizeAndPlacement (removeZeroSized dp depth keys st).reqs p = sizeAndPlacement st.reqs p := by
  induction depth generalizing keys st with
  | zero => rfl
  | succ depth ih =>
    rw [removeZeroSized]
    apply foldl_sizeAndPlacement
    intro st k
    have hrerun : sizeAndPlacement (if (st.reqs.get? k).bind Req.size = some 0 then
        removeZeroSized dp depth (keys.filter (· ∉ st.toDelete ++ [k]))
          { st with toDelete := st.toDelete ++ [k] } else st).reqs p =
        sizeAndPlacement st.reqs p := by
      split
      · exact ih _ _
      · rfl
    dsimp only
    rw [← hrerun]
    set st₁ := if (st.reqs.get? k).bind Req.size = some 0 then
        removeZeroSized dp depth (keys.filter (· ∉ st.toDelete ++ [k]))
          { st with toDelete := st.toDelete ++ [k] } else st
    split
    · rfl
    · split
      · split
        · rw [ih]
          exact sizeAndPlacement_shareSize _ _ _ _
        · exact sizeAndPlacement_shareSize _ _ _ _
      · exact sizeAndPlacement_shareSize _ _ _ _

variable {v : Req Refs} {dp p : Name}

theorem removeAllZeroSizedPartitions_get? {reqs : Reqs Refs}
    (h : (removeAllZeroSizedPartitions reqs dp).get? p = some v) :
    ∃ u, reqs.get? p = some u ∧ v.size = u.size ∧ v.placement = u.placement := by
  rw [removeAllZeroSizedPartitions, Dict.get?_filter, Option.filter_eq_some_iff] at h
  have hkept := removeZeroSized_kept dp (reqs.keys.length + 1) reqs.keys ⟨reqs, []⟩ p
  rw [sizeAndPlacement, h.1, sizeAndPlacement] at hkept
  cases hu : reqs.get? p with
  | none => simp [hu] at hkept
  | some u =>
    rw [hu, Option.map_some, Option.map_some, Option.some.injEq, Prod.mk.injEq] at hkept
    exact ⟨u, rfl, hkept.1, hkept.2⟩

private theorem mapOption_eq_ok {α β : Type} {f : α → Py β} {o : Option α} {o' : Option β}
    (h : mapOption f o = .ok o') :
    (o = none ∧ o' = none) ∨ ∃ a b, o = some a ∧ f a = .ok b ∧ o' = some b := by
  cases o with
  | none =>
    cases h
    exact Or.inl ⟨rfl, rfl⟩
  | some a =>
    simp only [mapOption, bind_eq_ok, pure_eq_ok] at h
    obtain ⟨b, hb, rfl⟩ := h
    exact Or.inr ⟨a, b, rfl, hb, rfl⟩

variable {partitions : List Name} {w : Req (List Name)}

theorem Req.resolveOneOf_align (h : v.resolveOneOf partitions = .ok w) :
    w.placement.bind Placement.align? = v.placement.bind Placement.align? := by
  simp only [Req.resolveOneOf, bind_eq_ok, pure_eq_ok] at h
  obtain ⟨placement, hplacement, span, _, inside, _, shareSize, _, rfl⟩ := h
  dsimp only
  rcases mapOption_eq_ok hplacement with ⟨h₁, h₂⟩ | ⟨a, b, h₁, hab, h₂⟩
  · rw [h₁, h₂]
    rfl
  · rw [h₁, h₂]
    exact Placement.align?_mapM hab

theorem Req.resolveOneOf_size (h : v.resolveOneOf partitions = .ok w) : w.size = v.size := by
  simp only [Req.resolveOneOf, bind_eq_ok, pure_eq_ok] at h
  obtain ⟨_, _, _, _, _, _, _, _, rfl⟩ := h
  rfl

theorem Req.removeMissing_align (keys : List Name) (dp : Name) (v : Req (List Name)) :
    (v.removeMissing keys dp).placement.bind Placement.align? =
      v.placement.bind Placement.align? := by
  rw [Req.removeMissing]
  cases v.placement with
  | none => rfl
  | some p => exact Placement.align?_removeMissing _ dp p

variable {reqs : Reqs YamlRefs} {pre : PlainReqs}

theorem prepare_eq_ok {dp : Name} (h : prepare reqs dp = .ok pre) : ∃ zeroFree resolved,
      zeroFree = removeAllZeroSizedPartitions (reqs.mapValues (Req.map convertStrToList)) dp ∧
      zeroFree.mapValuesM (Req.resolveOneOf (zeroFree.keys ++ ["end", "start"])) = .ok resolved ∧
      pre = resolved.mapValues (Req.removeMissing resolved.keys dp) := by
  rw [prepare, removeIrrelevantRequirements] at h
  split at h
  · simp at h
  · simp only [bind_eq_ok, pure_eq_ok] at h
    obtain ⟨resolved, hresolved, rfl⟩ := h
    exact ⟨_, resolved, rfl, hresolved, rfl⟩

theorem prepare_get? (h : prepare reqs dp = .ok pre) (hw : pre.get? p = some w) :
    ∃ u, reqs.get? p = some u ∧ w.size = u.size ∧
      w.placement.bind Placement.align? = u.placement.bind Placement.align? := by
  obtain ⟨zeroFree, resolved, rfl, hresolved, rfl⟩ := prepare_eq_ok h
  rw [Dict.get?_mapValues, Option.map_eq_some_iff] at hw
  obtain ⟨w', hw', rfl⟩ := hw
  obtain ⟨v, hv, hvw⟩ := Dict.get?_mapValuesM hresolved hw'
  obtain ⟨u', hu', hsize, hplacement⟩ := removeAllZeroSizedPartitions_get? hv
  rw [Dict.get?_mapValues, Option.map_eq_some_iff] at hu'
  obtain ⟨u, hu, rfl⟩ := hu'
  refine ⟨u, hu, ?_, ?_⟩
  · rw [Req.removeMissing, Req.resolveOneOf_size hvw, hsize, Req.map]
  · rw [Req.removeMissing_align, Req.resolveOneOf_align hvw, hplacement, Req.map]
    cases u.placement with
    | none => rfl
    | some q => exact Placement.align?_map _ q

theorem prepare_givenAlign (h : prepare reqs dp = .ok pre) (hp : p ∈ pre.keys) :
    givenAlign pre p = givenAlign reqs p := by
  obtain ⟨w, hw⟩ := Option.isSome_iff_exists.mp ((Dict.get?_isSome_iff _ _).mpr hp)
  obtain ⟨u, hu, -, halign⟩ := prepare_get? h hw
  rw [givenAlign, givenAlign, placementOf, placementOf, hw, hu]
  exact halign

theorem prepare_keys (h : prepare reqs dp = .ok pre) (hp : p ∈ pre.keys) : p ∈ reqs.keys := by
  obtain ⟨w, hw⟩ := Option.isSome_iff_exists.mp ((Dict.get?_isSome_iff _ _).mpr hp)
  obtain ⟨u, hu, -⟩ := prepare_get? h hw
  exact Dict.mem_keys_of_get? hu

theorem prepare_span {dp c p : Name} (h : prepare reqs dp = .ok pre) (hp : p ∈ spanOf pre c) :
    p ∈ pre.keys ∨ p = dp := by
  obtain ⟨zeroFree, resolved, -, -, rfl⟩ := prepare_eq_ok h
  rw [spanOf, Dict.get?_mapValues] at hp
  rw [Dict.keys_mapValues]
  cases hv : resolved.get? c with
  | none => simp [hv] at hp
  | some v =>
    rw [hv, Option.map_some, Option.bind_some, Req.removeMissing] at hp
    dsimp only at hp
    cases hspan : v.span with
    | none => simp [hspan] at hp
    | some l =>
      rw [hspan, Option.map_some, Option.getD_some, removeItemNotInList, List.mem_filter] at hp
      simpa [keeps] using hp.2

/-- An exception that is a `PartitionError`. -/
private def IsPartitionError (e : Exc) : Prop := ∃ pe, e = .partitionError pe

variable {e : Exc}

private theorem firstExisting_error {partitions choices : List Name}
    (h : firstExisting partitions choices = .error e) : IsPartitionError e := by
  rw [firstExisting] at h
  split at h
  · cases h
  · cases h
    exact ⟨_, rfl⟩

private theorem resolveAll_error {items : List RefItem}
    (h : RefItem.resolveAll partitions items = .error e) : IsPartitionError e := by
  induction items with
  | nil => cases h
  | cons i is ih =>
    rw [RefItem.resolveAll] at h
    rcases bind_eq_error.mp h with h | ⟨n, -, h⟩
    · cases i with
      | name n => cases h
      | oneOf choices => exact firstExisting_error h
    · rcases bind_eq_error.mp h with h | ⟨ns, -, h⟩
      · exact ih h
      · cases h

private theorem resolveOneOf_error {refs : Refs} (h : resolveOneOf partitions refs = .error e) :
    IsPartitionError e := by
  cases refs with
  | list items => exact resolveAll_error h
  | oneOf choices =>
    rw [resolveOneOf] at h
    rcases bind_eq_error.mp h with h | ⟨n, -, h⟩
    · exact firstExisting_error h
    · cases h

private theorem mapOption_error {α β : Type} {f : α → Py β} {o : Option α}
    (hf : ∀ a, f a = .error e → IsPartitionError e) (h : mapOption f o = .error e) :
    IsPartitionError e := by
  cases o with
  | none => cases h
  | some a =>
    rw [mapOption] at h
    rcases bind_eq_error.mp h with h | ⟨b, -, h⟩
    · exact hf a h
    · cases h

private theorem mapEntriesM_error {f : R → Py S} {es : List (PlacementEntry R)}
    (hf : ∀ a, f a = .error e → IsPartitionError e) (h : PlacementEntry.mapEntriesM f es = .error e) :
    IsPartitionError e := by
  induction es with
  | nil => cases h
  | cons x es ih =>
    rw [PlacementEntry.mapEntriesM] at h
    rcases bind_eq_error.mp h with h | ⟨y, -, h⟩
    · cases x with
      | before r =>
        rcases bind_eq_error.mp h with h | ⟨s, -, h⟩
        · exact hf r h
        · cases h
      | after r =>
        rcases bind_eq_error.mp h with h | ⟨s, -, h⟩
        · exact hf r h
        · cases h
      | align a => cases h
    · rcases bind_eq_error.mp h with h | ⟨ys, -, h⟩
      · exact ih h
      · cases h

private theorem Placement.mapM_error {f : R → Py S} {p : Placement R}
    (hf : ∀ a, f a = .error e → IsPartitionError e) (h : p.mapM f = .error e) :
    IsPartitionError e := by
  rw [Placement.mapM] at h
  split at h
  next hes =>
    cases h
    exact mapEntriesM_error hf hes
  next => cases h

private theorem Req.resolveOneOf_error (h : v.resolveOneOf partitions = .error e) :
    IsPartitionError e := by
  have hrefs (r : Refs) (hr : PartitionManager.resolveOneOf partitions r = .error e) :
      IsPartitionError e := PartitionManager.resolveOneOf_error hr
  rw [Req.resolveOneOf] at h
  rcases bind_eq_error.mp h with h | ⟨placement, -, h⟩
  · exact mapOption_error (fun p hp => Placement.mapM_error hrefs hp) h
  rcases bind_eq_error.mp h with h | ⟨span, -, h⟩
  · exact mapOption_error hrefs h
  rcases bind_eq_error.mp h with h | ⟨inside, -, h⟩
  · exact mapOption_error hrefs h
  rcases bind_eq_error.mp h with h | ⟨shareSize, -, h⟩
  · exact mapOption_error hrefs h
  · cases h

/-- The preparation raises nothing but `PartitionError`. -/
theorem prepare_error {dp : Name} (h : prepare reqs dp = .error e) :
    ∃ pe, e = .partitionError pe := by
  rw [prepare, removeIrrelevantRequirements] at h
  split at h
  · cases h
    exact ⟨_, rfl⟩
  · rcases bind_eq_error.mp h with h | ⟨resolved, -, h⟩
    · obtain ⟨v, hv⟩ := Dict.mapValuesM_error h
      exact Req.resolveOneOf_error hv
    · cases h

end SdkNrf.PartitionManager
