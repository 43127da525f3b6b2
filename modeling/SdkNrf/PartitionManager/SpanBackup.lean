import SdkNrf.PartitionManager.ContainerCoverage

/-!
# The backup of the spans

The flattening loop saves the span of a container in `orig_span` at the start of every round, and
`set_sub_partition_address_and_size` puts back what was saved last.
-/

namespace SdkNrf.PartitionManager

def origSpanOf (reqs : PlainReqs) (p : Name) : Option (List Name) :=
  (reqs.get? p).bind Req.origSpan

section Rounds

variable {ord : SetOrder Name} {leaves subs : List Name} {reqs reqs' : PlainReqs}

theorem origSpanOf_setSpan (reqs : PlainReqs) (k q : Name) (l : List Name) :
    origSpanOf (setSpan reqs k l) q = origSpanOf reqs q := by
  rw [origSpanOf, origSpanOf, setSpan, Dict.get?_modify]
  split <;> cases reqs.get? q <;> rfl

variable {key : Name}

theorem origSpanOf_backupSpan_self (h : isContainer reqs key = true) :
    origSpanOf (backupSpan reqs key) key = some (spanOf reqs key) := by
  rw [isContainer, Option.isSome_iff_exists] at h
  obtain ⟨l, hl⟩ := h
  obtain ⟨v, hv, hvl⟩ := Option.bind_eq_some_iff.mp hl
  rw [origSpanOf, backupSpan, Dict.get?_modify_self, hv, spanOf, hl]
  exact hvl

theorem origSpanOf_backupSpan_of_ne (reqs : PlainReqs) {key q : Name} (h : q ≠ key) :
    origSpanOf (backupSpan reqs key) q = origSpanOf reqs q := by
  rw [origSpanOf, origSpanOf, backupSpan, Dict.get?_modify_of_ne _ _ h]

theorem flattenSpan_of_flat (h : ∀ p ∈ spanOf reqs key, p ∉ subs) :
    flattenSpan ord subs key reqs = .ok (reqs, true) := by
  have hnone : (spanOf reqs key).find? (· ∈ subs) = none := by
    rw [List.find?_eq_none]
    simpa using h
  rw [flattenSpan, hnone]

theorem flattenContainer_backup (hkey : isContainer reqs key = true)
    (h : flattenContainer ord leaves subs key reqs = .ok (reqs', true)) :
    origSpanOf reqs' key = some (spanOf reqs key) ∧ (∀ p ∈ spanOf reqs key, p ∉ subs) ∧
      ∀ q, q ≠ key → origSpanOf reqs' q = origSpanOf reqs q := by
  obtain ⟨-, reqs₁, h₁, rfl⟩ := flattenContainer_eq_ok h
  obtain ⟨rfl, hnone⟩ := flattenSpan_done h₁
  rw [spanOf_backupSpan] at hnone
  refine ⟨?_, hnone, fun q hq => ?_⟩
  · rw [origSpanOf_setSpan, origSpanOf_backupSpan_self hkey]
  · rw [origSpanOf_setSpan, origSpanOf_backupSpan_of_ne reqs hq]

theorem flattenContainer_of_flat {done : Bool} (hflat : ∀ p ∈ spanOf reqs key, p ∉ subs)
    (h : flattenContainer ord leaves subs key reqs = .ok (reqs', done)) : done = true := by
  obtain ⟨-, reqs₁, h₁, -⟩ := flattenContainer_eq_ok h
  rw [flattenSpan_of_flat (by rwa [spanOf_backupSpan])] at h₁
  cases h₁
  rfl

theorem flattenRound_backup {keys : List Name} (hdisj : ∀ l ∈ leaves, l ∉ subs)
    (hsubs : ∀ c ∈ subs, isContainer reqs c = true) (hkeys : ∀ k ∈ keys, k ∈ subs) (hnd : keys.Nodup)
    (h : flattenRound ord leaves subs keys reqs = .ok (reqs', true)) :
    (∀ k ∈ keys, origSpanOf reqs' k = some (spanOf reqs k) ∧ ∀ p ∈ spanOf reqs k, p ∉ subs) ∧
      ∀ k, k ∉ keys → origSpanOf reqs' k = origSpanOf reqs k := by
  induction keys generalizing reqs with
  | nil =>
    cases h
    exact ⟨fun k hk => absurd hk List.not_mem_nil, fun _ _ => rfl⟩
  | cons key keys ih =>
    simp only [flattenRound, bind_eq_ok, pure_eq_ok, Prod.mk.injEq, Bool.and_eq_true] at h
    obtain ⟨⟨reqs₁, done₁⟩, h₁, ⟨reqs₂, done₂⟩, h₂, rfl, rfl, rfl⟩ := h
    rw [List.nodup_cons] at hnd
    have hkey := hkeys key (List.mem_cons_self ..)
    have hf₁ := (Flattens.refl reqs).flattenContainer hdisj hsubs hkey h₁
    obtain ⟨hsaved, hflat, hothers⟩ := flattenContainer_backup (hsubs key hkey) h₁
    have hspans := (flattenContainer_done (mem_keys_of_isContainer (hsubs key hkey)) h₁).2
    obtain ⟨hrest, hsame⟩ := ih (fun c hc => by rw [hf₁.container, hsubs c hc])
      (fun k hk => hkeys k (List.mem_cons_of_mem _ hk)) hnd.2 h₂
    constructor
    · intro k hk
      rcases List.mem_cons.mp hk with rfl | hk
      · exact ⟨(hsame k hnd.1).trans hsaved, hflat⟩
      · have hne : k ≠ key := fun heq => hnd.1 (heq ▸ hk)
        rw [← hspans k hne]
        exact hrest k hk
    · intro k hk
      rw [List.mem_cons, not_or] at hk
      rw [hsame k hk.2, hothers k hk.1]

theorem flattenRound_of_flat {keys : List Name} {done : Bool} (hdisj : ∀ l ∈ leaves, l ∉ subs)
    (hsubs : ∀ c ∈ subs, isContainer reqs c = true) (hkeys : ∀ k ∈ keys, k ∈ subs) (hnd : keys.Nodup)
    (hflat : ∀ k ∈ keys, ∀ p ∈ spanOf reqs k, p ∉ subs)
    (h : flattenRound ord leaves subs keys reqs = .ok (reqs', done)) : done = true := by
  induction keys generalizing reqs done with
  | nil =>
    cases h
    rfl
  | cons key keys ih =>
    simp only [flattenRound, bind_eq_ok, pure_eq_ok, Prod.mk.injEq] at h
    obtain ⟨⟨reqs₁, done₁⟩, h₁, ⟨reqs₂, done₂⟩, h₂, rfl, rfl⟩ := h
    rw [List.nodup_cons] at hnd
    have hkey := hkeys key (List.mem_cons_self ..)
    obtain rfl := flattenContainer_of_flat (hflat key (List.mem_cons_self ..)) h₁
    have hf₁ := (Flattens.refl reqs).flattenContainer hdisj hsubs hkey h₁
    have hspans := (flattenContainer_done (mem_keys_of_isContainer (hsubs key hkey)) h₁).2
    obtain rfl := ih (fun c hc => by rw [hf₁.container, hsubs c hc])
      (fun k hk => hkeys k (List.mem_cons_of_mem _ hk)) hnd.2
      (fun k hk => by
        rw [hspans k fun heq => hnd.1 (heq ▸ hk)]
        exact hflat k (List.mem_cons_of_mem _ hk)) h₂
    rfl

/-- What is saved when the loop ends holds no container, and is the span that the container had at
the start if no span held one. -/
theorem flatten_backup {fuel : Nat} (hdisj : ∀ l ∈ leaves, l ∉ subs)
    (hsubs : ∀ c ∈ subs, isContainer reqs c = true) (hnd : subs.Nodup)
    (h : flatten ord leaves subs fuel reqs = .ok reqs') :
    (∀ c ∈ subs, ∃ l, origSpanOf reqs' c = some l ∧ ∀ p ∈ l, p ∉ subs) ∧
      ((∀ c ∈ subs, ∀ p ∈ spanOf reqs c, p ∉ subs) →
        ∀ c ∈ subs, origSpanOf reqs' c = some (spanOf reqs c)) := by
  induction fuel generalizing reqs with
  | zero => cases h
  | succ fuel ih =>
    simp only [flatten, bind_eq_ok] at h
    obtain ⟨⟨reqs₁, done⟩, h₁, h⟩ := h
    cases done with
    | true =>
      simp only [if_true, pure_eq_ok] at h
      subst h
      have hsaved := (flattenRound_backup hdisj hsubs (fun _ hk => hk) hnd h₁).1
      exact ⟨fun c hc => ⟨spanOf reqs c, hsaved c hc⟩, fun _ c hc => (hsaved c hc).1⟩
    | false =>
      simp only [Bool.false_eq_true, if_false] at h
      have hf₁ := (Flattens.refl reqs).flattenRound hdisj hsubs (fun _ hk => hk) h₁
      refine ⟨(ih (fun c hc => by rw [hf₁.container, hsubs c hc]) h).1, fun hflat => ?_⟩
      have := flattenRound_of_flat hdisj hsubs (fun _ hk => hk) hnd hflat h₁
      cases this

end Rounds

section Layout

theorem origSpanOf_eq_fixed (reqs : PlainReqs) (p : Name) :
    origSpanOf reqs p = (fixed? reqs p).bind Req.origSpan := by
  rw [origSpanOf, fixed?]
  cases reqs.get? p <;> rfl

variable {ctx : LayoutContext}

theorem alignIfRequired_span {i : Nat} {moveUp : Bool} {s s' : LayoutState}
    (h : alignIfRequired ctx i moveUp s = .ok (some s')) (q : Name) :
    fixed? s'.reqs q = fixed? s.reqs q ∨ spanOf s'.reqs q = [] := by
  obtain ⟨current, align, off, ea, ez, moved, region, -, -, -, -, hroom, hshrink⟩ :=
    alignIfRequired_eq_some h
  obtain ⟨-, hfixed, -, -⟩ := makeRoom_frame hroom
  obtain ⟨-, sfixed, -, -⟩ := shrinkDynamic_frame hshrink
  by_cases hq : q = emptyName moved
  · right
    rw [spanOf_eq_fixed, sfixed, hq, fixed?, Dict.get?_set_self]
    rfl
  · left
    rw [sfixed, fixed?, Dict.get?_set_of_ne _ _ hq]
    exact hfixed q

theorem LayoutRun.span {s s' : LayoutState} (hrun : LayoutRun ctx s s') (q : Name) :
    fixed? s'.reqs q = fixed? s.reqs q ∨ spanOf s'.reqs q = [] := by
  induction hrun with
  | refl => exact .inl rfl
  | tail _ hstep ih =>
    cases hstep with
    | assign a _ _ =>
      rw [spanOf_eq_fixed, LayoutState.assign, fixed?_setAddress, ← spanOf_eq_fixed]
      exact ih
    | insert _ hins =>
      rcases alignIfRequired_span hins q with hsame | hnone
      · rw [hsame, spanOf_eq_fixed, hsame, ← spanOf_eq_fixed]
        exact ih
      · exact .inr hnone

theorem SharesOnly.origSpan {reqs reqs' : PlainReqs} (h : SharesOnly reqs reqs') (p : Name) :
    origSpanOf reqs' p = origSpanOf reqs p := by
  have := congrArg (fun o => o.bind Req.origSpan) (h.unshared p)
  simpa [origSpanOf, Option.bind_map, Function.comp_def, Req.unshared] using this

theorem origSpanOf_layout {fuel depth : Nat} {r : Resolved} {size start : Int} {dp : Name}
    {s : LayoutState} (hs : setAddressesAndAlign fuel depth r size dp start = .ok s) {c : Name}
    (hc : spanOf s.reqs c ≠ []) : origSpanOf s.reqs c = origSpanOf r.reqs c := by
  obtain ⟨shared, first, hshared, -, -, -, hcases⟩ := setAddressesAndAlign_eq_ok hs
  have hbefore : origSpanOf (beforeAssignment shared size dp first start) c = origSpanOf r.reqs c := by
    rw [beforeAssignment, origSpanOf_eq_fixed, fixed?_setAddress, fixed?_setSize,
      ← origSpanOf_eq_fixed, (setSharedSize_sharesOnly hshared).origSpan]
  split_ifs at hcases
  · have hrun := assignAddresses_run hcases.1
    have hsame := (LayoutRun.span hrun c).resolve_right hc
    rw [origSpanOf_eq_fixed, hsame, ← origSpanOf_eq_fixed]
    exact hbefore
  · subst hcases
    exact hbefore

theorem setSubPartitionAddressAndSize_span {subs : List Name} {reqs final : PlainReqs}
    (hnd : subs.Nodup) (h : setSubPartitionAddressAndSize subs reqs = .ok final) :
    (∀ c ∈ subs, spanOf reqs c ≠ [] ∧ (final.get? c).bind Req.span = origSpanOf reqs c) ∧
      ∀ q, q ∉ subs → final.get? q = reqs.get? q := by
  induction subs generalizing reqs with
  | nil =>
    cases h
    simp
  | cons d subs ih =>
    simp only [setSubPartitionAddressAndSize, bind_eq_ok] at h
    obtain ⟨reqs₁, h₁, h⟩ := h
    rw [List.nodup_cons] at hnd
    simp only [setContainer, bind_eq_ok] at h₁
    obtain ⟨z, hz, h₁⟩ := h₁
    have hne : spanOf reqs d ≠ [] := by
      intro hnil
      rw [hnil] at hz
      cases hz
      simp at h₁
    split_ifs at h₁
    · simp at h₁
    simp only [bind_eq_ok] at h₁
    obtain ⟨as, -, h₁⟩ := h₁
    cases as with
    | nil => simp at h₁
    | cons a as =>
      simp only [pure_eq_ok] at h₁
      subst h₁
      obtain ⟨hrest, hsame⟩ := ih hnd.2 h
      constructor
      · intro c hc
        rcases List.mem_cons.mp hc with rfl | hc
        · refine ⟨hne, ?_⟩
          rw [hsame c hnd.1, Dict.get?_modify_self, origSpanOf, Option.bind_map]
          rfl
        · have hcd : c ≠ d := fun heq => hnd.1 (heq ▸ hc)
          have hc' := hrest c hc
          rw [spanOf, origSpanOf, Dict.get?_modify_of_ne _ _ hcd] at hc'
          exact hc'
      · intro q hq
        rw [List.mem_cons, not_or] at hq
        rw [hsame q hq.2, Dict.get?_modify_of_ne _ _ hq.1]

end Layout

section Run

variable {ord : SetOrder Name} {fuel depth : Nat} {reqs : Reqs YamlRefs} {dp : Name}
  {pre final : PlainReqs} {r : Resolved} {size start : Int} {s : LayoutState}

theorem Rewrites.origSpan {unsolved : List Name} {reqs reqs₁ : PlainReqs}
    (h : Rewrites unsolved reqs reqs₁) (p : Name) : origSpanOf reqs₁ p = origSpanOf reqs p := by
  rcases h.entry p with he | ⟨-, v, q, -, hv, he⟩
  · rw [origSpanOf, origSpanOf, he]
  · rw [origSpanOf, origSpanOf, he, hv]
    rfl

theorem resolvePrepared_backup (h : resolvePrepared ord fuel dp pre = .ok r) :
    (∀ c ∈ r.subs, ∃ l, origSpanOf r.reqs c = some l ∧ ∀ p ∈ l, p ∉ r.subs) ∧
      ((∀ c ∈ r.subs, ∀ p ∈ partsOf pre c, p ∉ r.subs) →
        ∀ c ∈ r.subs, origSpanOf r.reqs c = some (partsOf pre c)) := by
  simp only [resolvePrepared, bind_eq_ok, pure_eq_ok] at h
  obtain ⟨reqs₁, h₁, ⟨reqs₂, subs⟩, h₂, st, -, ⟨⟩, -, rfl⟩ := h
  obtain ⟨-, -, hcont, hspan⟩ := solveInside_spec (fun c hc => mem_containerKeys.mp hc) h₁
  simp only [cleanSubPartitions, bind_eq_ok, pure_eq_ok, Prod.mk.injEq] at h₂
  obtain ⟨flat, hflatten, rfl, rfl⟩ := h₂
  set subs := (containerKeys pre).filter
    (· ∉ keysToDelete reqs₁ (containerKeys pre) ((containerKeys pre).length + 1) []) with hsubs
  have hin : ∀ c ∈ subs, isContainer pre c = true := fun c hc =>
    mem_containerKeys.mp (List.mem_filter.mp hc).1
  have hdisj : ∀ l ∈ leafKeys pre, l ∉ subs := by
    intro l hl hls
    have := hin l hls
    rw [(mem_leafKeys.mp hl).2] at this
    cases this
  obtain ⟨hsaved, hflat⟩ := flatten_backup hdisj (fun c hc => by rw [hcont, hin c hc])
    ((pre.keys_nodup.filter _).filter _) hflatten
  have hrewrites := resolveAmbiguousRequirements_rewrites flat
    (getImagesWhichNeedResolving ord flat (leafKeys pre) subs)
  simp only [hspan] at hflat
  simp only [hrewrites.origSpan]
  exact ⟨hsaved, hflat⟩

/-- The containers of a finished layout have the spans they were configured with, the additions of
`inside` included, exactly when none of them was configured to span another. -/
theorem spans_restored_iff (hprep : prepare reqs dp = .ok pre) (hr : resolve ord fuel reqs dp = .ok r)
    (hs : setAddressesAndAlign fuel depth r size dp start = .ok s)
    (hfinal : setSubPartitionAddressAndSize r.subs s.reqs = .ok final) :
    (∀ c ∈ r.subs, (final.get? c).bind Req.span = some (partsOf pre c)) ↔
      ∀ c ∈ r.subs, ∀ p ∈ partsOf pre c, p ∉ r.subs := by
  have hprepared : resolvePrepared ord fuel dp pre = .ok r := by
    simp only [resolve, hprep, bind_eq_ok, Except.ok.injEq] at hr
    obtain ⟨_, rfl, hr⟩ := hr
    exact hr
  obtain ⟨cleaned, unsolved, hsolved⟩ := resolvePrepared_eq_ok hprepared
  obtain ⟨hsaved, hflat⟩ := resolvePrepared_backup hprepared
  obtain ⟨hset, -⟩ := setSubPartitionAddressAndSize_span hsolved.clean.subs_nodup hfinal
  have hspan (c : Name) (hc : c ∈ r.subs) :
      (final.get? c).bind Req.span = origSpanOf r.reqs c := by
    obtain ⟨hne, hfinalc⟩ := hset c hc
    rw [hfinalc, origSpanOf_layout hs hne]
  constructor
  · intro h c hc p hp
    obtain ⟨l, hl, hnone⟩ := hsaved c hc
    have heq := h c hc
    rw [hspan c hc, hl, Option.some.injEq] at heq
    exact hnone p (heq ▸ hp)
  · intro h c hc
    rw [hspan c hc]
    exact hflat h c hc

end Run

theorem pairOf_restored : ∃ pre r s final, prepare (pairOf [] (by simp)) "app" = .ok pre ∧
    resolve (SetOrder.dedup Name) 3 (pairOf [] (by simp)) "app" = .ok r ∧
    setAddressesAndAlign 3 5 r 65536 "app" 0 = .ok s ∧
    setSubPartitionAddressAndSize r.subs s.reqs = .ok final ∧
    r.subs = ["pair"] ∧ partsOf pre "pair" = ["x", "y"] ∧
    ∀ c ∈ r.subs, (final.get? c).bind Req.span = some (partsOf pre c) := by
  obtain ⟨pre, hpre, hrest⟩ := exists_of_returnsWith (x := prepare (pairOf [] (by simp)) "app")
    (fun pre => returnsWith (resolve (SetOrder.dedup Name) 3 (pairOf [] (by simp)) "app") fun r =>
      decide (r.subs = ["pair"] ∧ partsOf pre "pair" = ["x", "y"]) &&
      returnsWith (setAddressesAndAlign 3 5 r 65536 "app" 0) fun s =>
        returnsWith (setSubPartitionAddressAndSize r.subs s.reqs) fun _ => true)
    (by decide)
  obtain ⟨r, hr, hrest⟩ := exists_of_returnsWith _ hrest
  rw [Bool.and_eq_true, decide_eq_true_iff] at hrest
  obtain ⟨⟨hsubs, hparts⟩, hrest⟩ := hrest
  obtain ⟨s, hs, hrest⟩ := exists_of_returnsWith _ hrest
  obtain ⟨final, hfinal, -⟩ := exists_of_returnsWith _ hrest
  refine ⟨pre, r, s, final, hpre, hr, hs, hfinal, hsubs, hparts,
    (spans_restored_iff hpre hr hs hfinal).mpr ?_⟩
  simp [hsubs, hparts]

def beforePlacement (n : Name) : List (PlacementEntry YamlRefs) := [.before (.str n)]

theorem beforePlacement_nodup (n : Name) : ((beforePlacement n).map PlacementEntry.key).Nodup :=
  List.nodup_singleton _

def nestedPairItems : List (Name × Req YamlRefs) :=
  [("x", { size := some 256, placement := some ⟨beforePlacement "y", beforePlacement_nodup "y"⟩ }),
    ("y", { size := some 256, placement := some ⟨beforePlacement "app", beforePlacement_nodup "app"⟩ }),
    ("pair", { span := some (.list [.name "x", .name "y"]) }),
    ("outer", { span := some (.list [.name "pair"]) }),
    ("app", { region := some "flash_primary" })]

theorem nestedPairItems_nodup : (nestedPairItems.map Prod.fst).Nodup := by simp [nestedPairItems]

def nestedPair : Reqs YamlRefs := ⟨nestedPairItems, nestedPairItems_nodup⟩

/-- The outer container comes back with the leaves in its span. -/
theorem nestedPair_flattened : ∃ pre r s final, prepare nestedPair "app" = .ok pre ∧
    resolve (SetOrder.dedup Name) 3 nestedPair "app" = .ok r ∧
    setAddressesAndAlign 3 5 r 65536 "app" 0 = .ok s ∧
    setSubPartitionAddressAndSize r.subs s.reqs = .ok final ∧
    "outer" ∈ r.subs ∧ partsOf pre "outer" = ["pair"] ∧
    (final.get? "outer").bind Req.span = some ["x", "y"] := by
  obtain ⟨pre, hpre, hrest⟩ := exists_of_returnsWith (x := prepare nestedPair "app")
    (fun pre => decide (partsOf pre "outer" = ["pair"]) &&
      returnsWith (resolve (SetOrder.dedup Name) 3 nestedPair "app") fun r =>
        decide ("outer" ∈ r.subs) && returnsWith (setAddressesAndAlign 3 5 r 65536 "app" 0) fun s =>
          returnsWith (setSubPartitionAddressAndSize r.subs s.reqs) fun final =>
            decide ((final.get? "outer").bind Req.span = some ["x", "y"]))
    (by decide)
  rw [Bool.and_eq_true, decide_eq_true_iff] at hrest
  obtain ⟨hparts, hrest⟩ := hrest
  obtain ⟨r, hr, hrest⟩ := exists_of_returnsWith _ hrest
  rw [Bool.and_eq_true, decide_eq_true_iff] at hrest
  obtain ⟨houter, hrest⟩ := hrest
  obtain ⟨s, hs, hrest⟩ := exists_of_returnsWith _ hrest
  obtain ⟨final, hfinal, hrest⟩ := exists_of_returnsWith _ hrest
  exact ⟨pre, r, s, final, hpre, hr, hs, hfinal, houter, hparts, of_decide_eq_true hrest⟩

end SdkNrf.PartitionManager
