import SdkNrf.PartitionManager.SizeSharing

/-!
# Sharing the size of the dynamic partition

The partitions that share the size of the dynamic partition, or of a container that spans it, get an
equal part each, and the residue is left to the dynamic partition.
-/

namespace SdkNrf.PartitionManager

open Relation
section Sums

variable {reqs reqs' : PlainReqs} {dp : Name}

def sizeOf0 (reqs : PlainReqs) (p : Name) : Int := (size? reqs p).getD 0

theorem dynamicPartitionsSize_eq (reqs : PlainReqs) (totalSize : Int) (dp : Name) :
    dynamicPartitionsSize reqs totalSize dp =
      totalSize - (reqs.keys.map fun q => if q = dp then 0 else sizeOf0 reqs q).sum := by
  have hitem : ∀ e ∈ reqs.items, sizeOf0 reqs e.1 = e.2.size.getD 0 := by
    intro e he
    have hget : reqs.get? e.1 = some e.2 := (Dict.get?_eq_some_iff reqs e.1 e.2).mpr he
    rw [sizeOf0, size?, hget]
    rfl
  rw [dynamicPartitionsSize, Dict.keys]
  congr 1
  revert hitem
  generalize reqs.items = items
  intro hitem
  induction items with
  | nil => rfl
  | cons e items ih =>
    have hrest := ih fun e' he' => hitem e' (List.mem_cons_of_mem _ he')
    have hhead := hitem e (List.mem_cons_self ..)
    rw [List.map_cons, List.map_cons, List.sum_cons, ← hrest, hhead]
    by_cases he : e.1 = dp
    · simp [he]
    · cases hz : e.2.size with
      | none => simp [he, hz]
      | some z => simp [he, hz]

theorem dynamicPartitionsSize_of_sized {P : Name → Bool} {z : Int} (totalSize : Int)
    (hkeys : reqs'.keys = reqs.keys) (hdp : P dp = false)
    (hin : ∀ q ∈ reqs.keys, P q = true → size? reqs' q = some z)
    (hout : ∀ q, P q = false → size? reqs' q = size? reqs q) :
    dynamicPartitionsSize reqs' totalSize dp = dynamicPartitionsSize reqs totalSize dp +
      ((reqs.keys.filter P).map (sizeOf0 reqs)).sum - (reqs.keys.filter P).length * z := by
  have hsum : ∀ l : List Name, (∀ q ∈ l, q ∈ reqs.keys) →
      (l.map fun q => if q = dp then 0 else sizeOf0 reqs' q).sum +
        ((l.filter P).map (sizeOf0 reqs)).sum =
      (l.map fun q => if q = dp then 0 else sizeOf0 reqs q).sum + (l.filter P).length * z := by
    intro l hl
    induction l with
    | nil => simp
    | cons q l ih =>
      have hrest := ih fun p hp => hl p (List.mem_cons_of_mem _ hp)
      cases hq : P q with
      | false =>
        have hsame : sizeOf0 reqs' q = sizeOf0 reqs q := by rw [sizeOf0, sizeOf0, hout q hq]
        simp only [List.map_cons, List.sum_cons, List.filter_cons_of_neg (by simp [hq] : ¬P q = true),
          hsame]
        omega
      | true =>
        have hne : q ≠ dp := by
          rintro rfl
          rw [hdp] at hq
          cases hq
        have hz : sizeOf0 reqs' q = z := by
          rw [sizeOf0, hin q (hl q (List.mem_cons_self ..)) hq]
          rfl
        simp only [List.map_cons, List.sum_cons, List.filter_cons_of_pos hq, hz, hne, if_false,
          List.length_cons]
        push_cast
        linarith
  rw [dynamicPartitionsSize_eq, dynamicPartitionsSize_eq, hkeys]
  have := hsum reqs.keys fun q hq => hq
  linarith

end Sums

/-- The requirements for which the sizes of the dynamic sharers are computed: the sharers have been
counted, and the static sharers have their sizes. -/
def beforeSharing (fuel : Nat) (reqs : PlainReqs) (totalSize : Int) (dp : Name) : Py PlainReqs := do
  let counted ← countSharers fuel reqs.keys reqs
  setStaticSizes totalSize dp (staticSizeSharers counted (getDependentPartitions counted dp)) counted

section Sharing

variable {reqs static shared : PlainReqs} {fuel : Nat} {totalSize : Int} {dp source : Name}

theorem dependents_setStaticSizes {keys : List Name} {counted : PlainReqs}
    (h : setStaticSizes totalSize dp keys counted = .ok static) :
    getDependentPartitions static dp = getDependentPartitions counted dp := by
  have hshares := setStaticSizes_sharesOnly h
  apply getDependentPartitions_congr hshares.keys
  · exact shareSource_setStaticSizes h
  · intro q
    rw [spanOf, spanOf, hshares.span]

theorem setSharedSize_eq_ok (h : setSharedSize fuel reqs totalSize dp = .ok shared) :
    ∃ static sizes, beforeSharing fuel reqs totalSize dp = .ok static ∧
      newSizes static totalSize dp (getDependentPartitions static dp) = .ok sizes ∧
      shared = sizes.foldl (fun reqs e => setSize reqs e.1 e.2) static ∧
      getDependentPartitions shared dp = getDependentPartitions static dp := by
  simp only [setSharedSize, bind_eq_ok, pure_eq_ok] at h
  obtain ⟨counted, hcount, static, hstatic, sizes, hsizes, rfl⟩ := h
  have hdep := dependents_setStaticSizes hstatic
  refine ⟨static, sizes, ?_, by rwa [hdep], rfl, ?_⟩
  · simp only [beforeSharing, bind_eq_ok]
    exact ⟨counted, hcount, hstatic⟩
  · have hfold := SharesOnly.foldl_setSize sizes static
    apply getDependentPartitions_congr hfold.keys
    · exact shareSource_foldl_setSize sizes static
    · intro q
      rw [spanOf, spanOf, hfold.span]

theorem newSizes_const {ks : List Name} {sizes : List (Name × Int)} {z : Int}
    (hone : ∀ k ∈ ks, shareSource reqs k = some source)
    (hz : sharedSize reqs source totalSize dp = .ok z)
    (h : newSizes reqs totalSize dp ks = .ok sizes) : sizes = ks.map fun k => (k, z) := by
  induction ks generalizing sizes with
  | nil =>
    cases h
    rfl
  | cons k ks ih =>
    rw [newSizes, hone k (List.mem_cons_self ..)] at h
    simp only [bind_eq_ok, pure_eq_ok, hz, Except.ok.injEq] at h
    obtain ⟨_, rfl, zs, hzs, rfl⟩ := h
    rw [ih (fun q hq => hone q (List.mem_cons_of_mem _ hq)) hzs, List.map_cons]

theorem size?_foldl_const {ks : List Name} {z : Int} (hks : ∀ k ∈ ks, k ∈ reqs.keys) {k : Name}
    (hk : k ∈ ks) :
    size? ((ks.map fun k => (k, z)).foldl (fun reqs e => setSize reqs e.1 e.2) reqs) k = some z := by
  induction ks generalizing reqs with
  | nil => simp at hk
  | cons q ks ih =>
    rw [List.map_cons, List.foldl_cons]
    have hks' : ∀ p ∈ ks, p ∈ (setSize reqs q z).keys := by
      intro p hp
      rw [keys_setSize]
      exact hks p (List.mem_cons_of_mem _ hp)
    by_cases hmem : k ∈ ks
    · exact ih hks' hmem
    · obtain rfl : k = q := (List.mem_cons.mp hk).resolve_right hmem
      rw [size?_foldl_setSize (by simpa using hmem)]
      exact size?_setSize_self z (hks k (List.mem_cons_self ..))

theorem mem_keys_of_getSizeSource {n : Nat} {a : Name} (h : getSizeSource reqs n a = .ok source) :
    source ∈ reqs.keys := by
  induction n generalizing a with
  | zero => cases h
  | succ n ih =>
    rw [getSizeSource] at h
    split at h
    · cases h
    next v hv =>
      split at h
      · cases h
        exact Dict.mem_keys_of_get? hv
      · cases h
      · exact ih h

def sharersOf (reqs : PlainReqs) (p : Name) : Nat := ((reqs.get? p).bind Req.sharers).getD 0

theorem sharersOf_relink {req : Name} (hsource : source ∈ reqs.keys) (p : Name) :
    sharersOf (relink reqs req source) p = sharersOf reqs p + if p = source then 1 else 0 := by
  have hreq : sharersOf (relink reqs req source) p = sharersOf (reqs.modify source fun v =>
      { v with sharers := some (v.sharers.getD 0 + 1) }) p := by
    rw [sharersOf, sharersOf, relink, Dict.get?_modify]
    split
    · cases Dict.get? (reqs.modify source _) p <;> rfl
    · rfl
  rw [hreq, sharersOf, sharersOf, Dict.get?_modify]
  by_cases hp : p = source
  · subst hp
    obtain ⟨v, hv⟩ := Option.isSome_iff_exists.mp ((Dict.get?_isSome_iff reqs p).mpr hsource)
    simp [hv]
  · simp [hp]

theorem countSharers_sharersOf {ks : List Name} (hnd : ks.Nodup)
    (h : countSharers fuel ks reqs = .ok shared) (p : Name) :
    sharersOf shared p =
      sharersOf reqs p + (ks.filter fun k => shareSource shared k = some p).length := by
  induction ks generalizing reqs with
  | nil =>
    cases h
    rfl
  | cons req rest ih =>
    rw [List.nodup_cons] at hnd
    rw [countSharers] at h
    split at h
    next hreq =>
      obtain ⟨source, hsource, h⟩ := bind_eq_ok.mp h
      have hself : shareSource shared req = some source := by
        rw [shareSource_countSharers_of_notMem h hnd.1]
        exact shareSource_relink_of_mem (mem_keys_of_shareSize hreq)
      have hcount : sharersOf shared p = sharersOf (relink reqs req source) p +
          (rest.filter fun k => shareSource shared k = some p).length := ih hnd.2 h
      rw [sharersOf_relink (mem_keys_of_getSizeSource hsource)] at hcount
      by_cases hp : p = source
      · simp [hself, hp] at hcount ⊢
        omega
      · simp [hself, Ne.symm hp, hp] at hcount ⊢
        omega
    next hreq =>
      rw [Bool.not_eq_true, Option.isSome_eq_false_iff, Option.isNone_iff_eq_none] at hreq
      have hself : shareSource shared req = none := by
        rw [shareSource, countSharers_shareSize hreq h]
        rfl
      rw [ih hnd.2 h, List.filter_cons_of_neg (by simp [hself])]

theorem sharers_setStaticSizes {ks : List Name}
    (h : setStaticSizes totalSize dp ks reqs = .ok shared) (p : Name) :
    (shared.get? p).bind Req.sharers = (reqs.get? p).bind Req.sharers := by
  induction ks generalizing reqs with
  | nil =>
    cases h
    rfl
  | cons req rest ih =>
    rw [setStaticSizes] at h
    split at h
    · obtain ⟨z, -, h⟩ := bind_eq_ok.mp h
      rw [ih h, setSize, Dict.get?_modify]
      split <;> cases reqs.get? p <;> rfl
    · simp at h

end Sharing

/-- All dynamic sharers have the same source. -/
structure OneSource (static : PlainReqs) (dp source : Name) : Prop where
  sharers_ne : getDependentPartitions static dp ≠ []
  shares : ∀ k ∈ getDependentPartitions static dp, shareSource static k = some source

section Split

variable {reqs static shared : PlainReqs} {fuel : Nat} {totalSize : Int} {dp source : Name}

namespace OneSource

theorem isDynamicSource (h : OneSource static dp source) :
    isDynamicSource static dp source = true := by
  obtain ⟨k, hk⟩ := List.exists_mem_of_ne_nil _ h.sharers_ne
  exact mem_getDependentPartitions (h.shares k hk) hk

theorem filter_eq (h : OneSource static dp source) :
    (static.keys.filter fun k => shareSource static k = some source) =
      getDependentPartitions static dp := by
  apply List.filter_congr
  intro k hk
  by_cases hs : shareSource static k = some source
  · simp [hs, h.isDynamicSource]
  · rw [decide_eq_false hs]
    by_contra hne
    rw [← ne_eq, ne_comm, Bool.ne_false_iff] at hne
    exact hs (h.shares k (List.mem_filter.mpr ⟨hk, hne⟩))

theorem sharers_eq (h : OneSource static dp source)
    (hstatic : beforeSharing fuel reqs totalSize dp = .ok static)
    (hnone : (reqs.get? source).bind Req.sharers = none) :
    (static.get? source).bind Req.sharers = some (getDependentPartitions static dp).length := by
  simp only [beforeSharing, bind_eq_ok] at hstatic
  obtain ⟨counted, hcount, hstatic⟩ := hstatic
  have hsum := countSharers_sharersOf reqs.keys_nodup hcount source
  have hsame : (reqs.keys.filter fun k => shareSource counted k = some source) =
      getDependentPartitions static dp := by
    rw [← h.filter_eq, (setStaticSizes_sharesOnly hstatic).keys,
      (countSharers_sharesOnly hcount).keys]
    simp only [shareSource_setStaticSizes hstatic]
  rw [hsame, sharersOf, sharersOf, hnone, Option.getD_none, zero_add] at hsum
  rw [sharers_setStaticSizes hstatic]
  have hpos := List.length_pos_of_ne_nil h.sharers_ne
  cases hs : (counted.get? source).bind Req.sharers with
  | none => simp [hs] at hsum; omega
  | some n =>
    rw [hs, Option.getD_some] at hsum
    rw [hsum]

theorem sharedSize_eq (h : OneSource static dp source)
    (hstatic : beforeSharing fuel reqs totalSize dp = .ok static)
    (hnone : (reqs.get? source).bind Req.sharers = none) {T : Int}
    (hT : sizeof static totalSize dp (static.keys.length + 1) source = .ok T) :
    sharedSize static source totalSize dp =
      .ok (truncQuotient T ((getDependentPartitions static dp).length + 1)) := by
  rw [sharedSize, h.sharers_eq hstatic hnone]
  exact bind_eq_ok.mpr ⟨T, hT, by rw [h.isDynamicSource]; rfl⟩

end OneSource

end Split

/-- Every dynamic partition has become smaller by `q` bytes, the other sizes are what they were. -/
structure ShrunkBy (ctx : LayoutContext) (s₀ s : LayoutState) (q : Int) : Prop where
  fresh : FreshEmptyNames s.reqs
  keys : ∀ p ∈ s₀.reqs.keys, p ∈ s.reqs.keys
  dynamic : ∀ p ∈ ctx.dynamicPartitions, ∀ z, size? s₀.reqs p = some z →
    size? s.reqs p = some (z - q)
  others : ∀ p ∈ s₀.reqs.keys, p ∉ ctx.dynamicPartitions → size? s.reqs p = size? s₀.reqs p

section Shrunk

variable {ctx : LayoutContext} {s₀ s s' : LayoutState} {q : Int}

theorem ShrunkBy.refl (hfresh : FreshEmptyNames s₀.reqs) : ShrunkBy ctx s₀ s₀ 0 :=
  ⟨hfresh, fun _ hp => hp, fun _ _ z hz => by rw [hz, sub_zero], fun _ _ _ => rfl⟩

theorem ShrunkBy.step (h : ShrunkBy ctx s₀ s q) (hnd : ctx.dynamicPartitions.Nodup)
    (hdyn : ∀ p ∈ ctx.dynamicPartitions, p ∈ s₀.reqs.keys) (hstep : LayoutStep ctx s s') :
    ∃ q', ShrunkBy ctx s₀ s' q' := by
  cases hstep with
  | assign a hi hp =>
    refine ⟨q, h.fresh.congr (keys_setAddress _ _ _), fun p hp => ?_, fun p hp z hz => ?_,
      fun p hp hpd => ?_⟩
    · rw [LayoutState.assign, keys_setAddress]
      exact h.keys p hp
    · rw [LayoutState.assign, size?_setAddress]
      exact h.dynamic p hp z hz
    · rw [LayoutState.assign, size?_setAddress]
      exact h.others p hp hpd
  | insert hi hins =>
    obtain ⟨current, align, off, ea, ez, he⟩ := alignIfRequired_some hins
    have hkeys := he.keys_fresh h.fresh
    have hnew : emptyName s.reqs ∉ ctx.dynamicPartitions := fun hmem =>
      h.fresh.emptyName (h.keys _ (hdyn _ hmem))
    refine ⟨q + ez / (ctx.dynamicPartitions.length : Int), h.fresh.insert hkeys, fun p hp => ?_,
      fun p hp z hz => ?_, fun p hp hpd => ?_⟩
    · rw [hkeys]
      exact List.mem_append_left _ (h.keys p hp)
    · obtain ⟨y, hy, hres⟩ := he.size_dynamic hnd hnew p hp
      rw [h.dynamic p hp z hz, Option.some.injEq] at hy
      rw [hres, ← hy, sub_sub]
    · have hne : p ≠ emptyName s.reqs := fun heq => h.fresh.emptyName (heq ▸ h.keys p hp)
      rw [he.size_eq p hne hpd, h.others p hp hpd]

theorem ShrunkBy.run (hfresh : FreshEmptyNames s₀.reqs) (hnd : ctx.dynamicPartitions.Nodup)
    (hdyn : ∀ p ∈ ctx.dynamicPartitions, p ∈ s₀.reqs.keys) (hrun : LayoutRun ctx s₀ s) :
    ∃ q, ShrunkBy ctx s₀ s q := by
  induction hrun with
  | refl => exact ⟨0, .refl hfresh⟩
  | tail _ hstep ih =>
    obtain ⟨q, h⟩ := ih
    exact h.step hnd hdyn hstep

end Shrunk

def sizeSum (reqs : PlainReqs) (parts : List Name) : Int := (parts.map (sizeOf0 reqs)).sum

def sourceLeaves (static : PlainReqs) (dp source : Name) : List Name :=
  sizedLeaves static dp (static.keys.length + 1) source

/-- The dynamic partition is one leaf of the source, the sharers are no leaves of it. -/
structure OutsideSource (static : PlainReqs) (dp source : Name) : Prop where
  dynamic : (sourceLeaves static dp source).count dp = 1
  sharers : ∀ k ∈ getDependentPartitions static dp, k ∉ sourceLeaves static dp source

/-- All sharers have one size, and the source is larger by the remainder of its size `T` before. -/
def EvenSplit (static final : PlainReqs) (dp source : Name) (T : Int) : Prop :=
  ∃ z, (∀ k ∈ getDependentPartitions static dp, size? final k = some z) ∧
    sizeSum final (sourceLeaves static dp source) - z =
      T % ((getDependentPartitions static dp).length + 1 : Nat)

/-- The remainder of the rounded division, with the sizes that the sharers have of their own, is the
remainder of `T`. -/
def SplitsExactly (reqs static : PlainReqs) (dp : Name) (T : Int) : Prop :=
  T - ((getDependentPartitions static dp).length + 1 : Nat) *
      truncQuotient T ((getDependentPartitions static dp).length + 1) +
    sizeSum reqs (getDependentPartitions static dp) =
      T % ((getDependentPartitions static dp).length + 1 : Nat)

instance (reqs static : PlainReqs) (dp : Name) (T : Int) : Decidable (SplitsExactly reqs static dp T) :=
  inferInstanceAs (Decidable (_ = _))

section Layout

variable {r : Resolved} {static : PlainReqs} {fuel depth : Nat} {size start T : Int}
  {dp source : Name} {s : LayoutState}

theorem sum_leaves {f g : Name → Int} {leaves : List Name} (hcount : leaves.count dp = 1)
    (hrest : ∀ p ∈ leaves, p ≠ dp → f p = g p) :
    (leaves.map f).sum - f dp = (leaves.map g).sum - g dp := by
  have hmem : dp ∈ leaves := List.count_pos_iff.mp (by omega)
  have hperm := List.perm_cons_erase hmem
  rw [(hperm.map f).sum_eq, (hperm.map g).sum_eq, List.map_cons, List.map_cons, List.sum_cons,
    List.sum_cons]
  have hnot : dp ∉ leaves.erase dp := by
    rw [← List.count_eq_zero, List.count_erase_self, hcount]
  have hmap : (leaves.erase dp).map f = (leaves.erase dp).map g := by
    apply List.map_congr_left
    intro p hp
    exact hrest p (List.mem_of_mem_erase hp) fun heq => hnot (heq ▸ hp)
  rw [hmap]
  ring

theorem mem_keys_of_sizedLeaves {reqs : PlainReqs} {totalSize : Int} {depth : Nat} {p q : Name}
    {z : Int} (h : sizeof reqs totalSize dp depth p = .ok z)
    (hq : q ∈ sizedLeaves reqs dp depth p) : q = dp ∨ q ∈ reqs.keys := by
  induction depth generalizing p z with
  | zero => cases h
  | succ depth ih =>
    rw [sizeof] at h
    rw [sizedLeaves] at hq
    by_cases hp : p = dp
    · simp only [hp, if_true, List.mem_singleton] at hq
      exact Or.inl hq
    simp only [hp, if_false] at h hq
    cases hv : reqs.get? p with
    | none => simp [hv] at h
    | some v =>
      cases hparts : v.span with
      | none =>
        simp only [hv, hparts, Option.bind_some, List.mem_singleton] at hq
        exact Or.inr (hq ▸ Dict.mem_keys_of_get? hv)
      | some parts =>
        simp only [hv, hparts, Option.bind_some, List.mem_flatMap] at h hq
        obtain ⟨part, hpart, hq⟩ := hq
        obtain ⟨y, hy⟩ := foldlM_sum_ok h part hpart
        exact ih hy hq

theorem size?_beforeSharing {reqs : PlainReqs} {totalSize : Int}
    (h : beforeSharing fuel reqs totalSize dp = .ok static) {k : Name}
    (hk : k ∈ getDependentPartitions static dp) : size? static k = size? reqs k := by
  simp only [beforeSharing, bind_eq_ok] at h
  obtain ⟨counted, hcount, hstatic⟩ := h
  have hdep := dependents_setStaticSizes hstatic
  rw [size?_setStaticSizes hstatic, countSharers_size hcount]
  rw [staticSizeSharers, List.mem_filter, ← hdep]
  simp [hk]

theorem sharedSizes {reqs shared : PlainReqs} (hone : OneSource static dp source)
    (hstatic : beforeSharing fuel reqs size dp = .ok static)
    (hnone : (reqs.get? source).bind Req.sharers = none)
    (hT : sizeof static size dp (static.keys.length + 1) source = .ok T)
    (hdp : dp ∉ getDependentPartitions static dp)
    (h : setSharedSize fuel reqs size dp = .ok shared) :
    getDependentPartitions shared dp = getDependentPartitions static dp ∧
      shared.keys = static.keys ∧
      (∀ k ∈ getDependentPartitions static dp, size? shared k =
        some (truncQuotient T ((getDependentPartitions static dp).length + 1))) ∧
      (∀ q, q ∉ getDependentPartitions static dp → size? shared q = size? static q) ∧
      dynamicPartitionsSize shared size dp = dynamicPartitionsSize static size dp +
        sizeSum reqs (getDependentPartitions static dp) -
          (getDependentPartitions static dp).length *
            truncQuotient T ((getDependentPartitions static dp).length + 1) := by
  obtain ⟨static', sizes, hstatic', hsizes, rfl, hdep⟩ := setSharedSize_eq_ok h
  rw [hstatic, Except.ok.injEq] at hstatic'
  subst hstatic'
  have hconst := newSizes_const hone.shares (hone.sharedSize_eq hstatic hnone hT) hsizes
  subst hconst
  have hkeys := (SharesOnly.foldl_setSize ((getDependentPartitions static dp).map fun k =>
    (k, truncQuotient T ((getDependentPartitions static dp).length + 1))) static).keys
  have hin : ∀ k ∈ getDependentPartitions static dp, size? (List.foldl
      (fun reqs e => setSize reqs e.1 e.2) static ((getDependentPartitions static dp).map fun k =>
        (k, truncQuotient T ((getDependentPartitions static dp).length + 1)))) k =
      some (truncQuotient T ((getDependentPartitions static dp).length + 1)) := fun k hk =>
    size?_foldl_const (fun p hp => (List.mem_filter.mp hp).1) hk
  have hout : ∀ q, q ∉ getDependentPartitions static dp → size? (List.foldl
      (fun reqs e => setSize reqs e.1 e.2) static ((getDependentPartitions static dp).map fun k =>
        (k, truncQuotient T ((getDependentPartitions static dp).length + 1)))) q =
      size? static q := by
    intro q hq
    apply size?_foldl_setSize
    simpa [List.map_map, Function.comp_def] using hq
  refine ⟨hdep, hkeys, hin, hout, ?_⟩
  have hfilter : (static.keys.filter fun k => decide (k ∈ getDependentPartitions static dp)) =
      getDependentPartitions static dp := by
    rw [getDependentPartitions, List.filter_congr]
    intro k hk
    simp [hk]
  have hsum := dynamicPartitionsSize_of_sized (P := fun k =>
    decide (k ∈ getDependentPartitions static dp)) size hkeys (by simpa using hdp)
    (fun q _ hq => hin q (of_decide_eq_true hq)) fun q hq => hout q (of_decide_eq_false hq)
  rw [hfilter] at hsum
  have hown : sizeSum reqs (getDependentPartitions static dp) =
      ((getDependentPartitions static dp).map (sizeOf0 static)).sum := by
    rw [sizeSum]
    congr 1
    apply List.map_congr_left
    intro k hk
    rw [sizeOf0, sizeOf0, size?_beforeSharing hstatic hk]
  rw [hown, hsum]

/-- The sizes after the alignment: every dynamic partition has become smaller by `q` bytes. -/
theorem alignedSizes (hfresh : FreshEmptyNames r.reqs)
    (hnone : (r.reqs.get? source).bind Req.sharers = none)
    (hstatic : beforeSharing fuel r.reqs size dp = .ok static)
    (hone : OneSource static dp source) (hout : OutsideSource static dp source)
    (hT : sizeof static size dp (static.keys.length + 1) source = .ok T)
    (h : setAddressesAndAlign fuel depth r size dp start = .ok s) :
    ∃ q, (∀ k ∈ getDependentPartitions static dp, size? s.reqs k =
        some (truncQuotient T ((getDependentPartitions static dp).length + 1) - q)) ∧
      sizeOf0 s.reqs dp = dynamicPartitionsSize static size dp +
        sizeSum r.reqs (getDependentPartitions static dp) -
          (getDependentPartitions static dp).length *
            truncQuotient T ((getDependentPartitions static dp).length + 1) - q ∧
      ∀ p ∈ sourceLeaves static dp source, p ≠ dp →
        sizeOf0 s.reqs p = leafSize static size dp p := by
  obtain ⟨shared, first, hshared, hdpmem, -, hfirst, hrun⟩ := setAddressesAndAlign_eq_ok h
  have hdpleaf : dp ∈ sourceLeaves static dp source :=
    List.count_pos_iff.mp (by rw [hout.dynamic]; omega)
  have hdp : dp ∉ getDependentPartitions static dp := fun hmem => hout.sharers dp hmem hdpleaf
  obtain ⟨hdep, hkeys, hin, hother, hresidue⟩ := sharedSizes hone hstatic hnone hT hdp hshared
  set D := getDependentPartitions static dp with hD
  set s₀ : LayoutState :=
    { reqs := beforeAssignment shared size dp first start, solution := r.solution } with hs₀
  have hdyn : (layoutContext shared size dp start).dynamicPartitions = dp :: D := by
    rw [layoutContext, hdep]
  have hkeys₀ : s₀.reqs.keys = shared.keys := by
    rw [hs₀, beforeAssignment, keys_setAddress, keys_setSize]
  have hsize₀ : ∀ q, q ≠ dp → size? s₀.reqs q = size? shared q := by
    intro q hq
    rw [hs₀, beforeAssignment, size?_setAddress, size?_setSize_of_ne _ _ hq]
  have hsizedp : size? s₀.reqs dp = some (dynamicPartitionsSize shared size dp) := by
    rw [hs₀, beforeAssignment, size?_setAddress, size?_setSize_self _ hdpmem]
  have hlayout : LayoutRun (layoutContext shared size dp start) s₀ s := by
    split at hrun
    · exact assignAddresses_run hrun.1
    · rw [hrun]
  have hnd : (layoutContext shared size dp start).dynamicPartitions.Nodup := by
    rw [hdyn]
    exact List.nodup_cons.mpr ⟨hdp, static.keys_nodup.filter _⟩
  have hdynkeys : ∀ p ∈ (layoutContext shared size dp start).dynamicPartitions,
      p ∈ s₀.reqs.keys := by
    intro p hp
    rw [hdyn, List.mem_cons] at hp
    rw [hkeys₀]
    rcases hp with rfl | hp
    · exact hdpmem
    · exact hkeys ▸ (List.mem_filter.mp hp).1
  have hfresh₀ : FreshEmptyNames s₀.reqs :=
    hfresh.congr (hkeys₀.trans (setSharedSize_sharesOnly hshared).keys)
  obtain ⟨q, hq⟩ := ShrunkBy.run hfresh₀ hnd hdynkeys hlayout
  refine ⟨q, fun k hk => ?_, ?_, fun p hp hne => ?_⟩
  · have hne : k ≠ dp := fun heq => hdp (heq ▸ hk)
    apply hq.dynamic k (hdyn ▸ List.mem_cons_of_mem _ hk)
    rw [hsize₀ k hne, hin k hk]
  · rw [sizeOf0, hq.dynamic dp (List.mem_cons_self ..) _ hsizedp, ← hresidue]
    rfl
  · have hnotD : p ∉ D := fun hmem => hout.sharers p hmem hp
    have hpkeys : p ∈ s₀.reqs.keys := by
      rw [hkeys₀, hkeys]
      exact (mem_keys_of_sizedLeaves hT hp).resolve_left hne
    rw [leafSize, if_neg hne, sizeOf0, hq.others p hpkeys, hsize₀ p hne, hother p hnotD]
    rw [hdyn, List.mem_cons, not_or]
    exact ⟨hne, hnotD⟩

/-- The region is split evenly exactly when the rounded division leaves the remainder of `T` and the
sharers have no sizes of their own that are left over. -/
theorem setAddressesAndAlign_evenSplit_iff (hfresh : FreshEmptyNames r.reqs)
    (hnone : (r.reqs.get? source).bind Req.sharers = none)
    (hstatic : beforeSharing fuel r.reqs size dp = .ok static)
    (hone : OneSource static dp source) (hout : OutsideSource static dp source)
    (hT : sizeof static size dp (static.keys.length + 1) source = .ok T)
    (h : setAddressesAndAlign fuel depth r size dp start = .ok s) :
    EvenSplit static s.reqs dp source T ↔ SplitsExactly r.reqs static dp T := by
  obtain ⟨q, hsharer, hdp, hleaves⟩ := alignedSizes hfresh hnone hstatic hone hout hT h
  set D := getDependentPartitions static dp with hD
  set z := truncQuotient T (D.length + 1) with hz
  have hTsum : T = leafSum static size dp (sourceLeaves static dp source) := by
    have hself := sizeof_eq_leafSum (SharesOnly.refl static) hT
    rw [hT, Except.ok.injEq] at hself
    exact hself
  have hsum : sizeSum s.reqs (sourceLeaves static dp source) =
      T + sizeSum r.reqs D - D.length * z - q := by
    have hdiff := sum_leaves hout.dynamic hleaves
    have hleafdp : leafSize static size dp dp = dynamicPartitionsSize static size dp := if_pos rfl
    rw [hdp, hleafdp, ← leafSum, ← hTsum] at hdiff
    rw [sizeSum]
    linarith
  rw [EvenSplit, SplitsExactly, ← hD, ← hz, hsum]
  have hcast : ((D.length + 1 : Nat) : Int) = D.length + 1 := by push_cast; rfl
  constructor
  · rintro ⟨z', hall, heq⟩
    obtain ⟨k, hk⟩ := List.exists_mem_of_ne_nil _ hone.sharers_ne
    have hz' := hall k hk
    rw [hsharer k hk, Option.some.injEq] at hz'
    rw [← heq, ← hz', hcast]
    ring
  · intro heq
    refine ⟨z - q, hsharer, ?_⟩
    rw [← heq, hcast]
    ring

/-- For sizes that fit in a floating-point number: exactly when the sharers have no sizes of their
own. -/
theorem splitsExactly_iff_of_lt {reqs : PlainReqs} (hT0 : 0 ≤ T) (hT : T < 2 ^ 53)
    (hlen : (getDependentPartitions static dp).length < 2 ^ 53) :
    SplitsExactly reqs static dp T ↔ sizeSum reqs (getDependentPartitions static dp) = 0 := by
  rw [SplitsExactly, truncQuotient_eq_ediv (Nat.succ_pos _) hT0 hT (by omega)]
  have hmod := Int.emod_add_mul_ediv T ((getDependentPartitions static dp).length + 1 : Nat)
  constructor <;> intro h <;> linarith

end Layout

def beforeApp : List (PlacementEntry YamlRefs) := [.before (.str "app")]

theorem beforeApp_nodup : (beforeApp.map PlacementEntry.key).Nodup := by decide

def afterApp : List (PlacementEntry YamlRefs) := [.after (.str "app")]

theorem afterApp_nodup : (afterApp.map PlacementEntry.key).Nodup := by decide

theorem startAlign_nodup : ([("start", (8 : Int))].map Prod.fst).Nodup := by decide

def alignedBeforeEnd : List (PlacementEntry YamlRefs) :=
  [.before (.str "end"), .align ⟨[("start", 8)], startAlign_nodup⟩]

theorem alignedBeforeEnd_nodup : (alignedBeforeEnd.map PlacementEntry.key).Nodup := by decide

def twoSlotsItems (own : Option Int) : List (Name × Req YamlRefs) :=
  [("first", { size := some 101, placement := some ⟨beforeApp, beforeApp_nodup⟩ }),
    ("second", { size := own, placement := some ⟨afterApp, afterApp_nodup⟩,
                 shareSize := some (.str "app") }),
    ("last", { size := some 99, placement := some ⟨alignedBeforeEnd, alignedBeforeEnd_nodup⟩ }),
    ("app", { region := some "flash_primary" })]

theorem twoSlotsItems_nodup (own : Option Int) : ((twoSlotsItems own).map Prod.fst).Nodup := by
  simp [twoSlotsItems]

def twoSlots (own : Option Int) : Reqs YamlRefs := ⟨twoSlotsItems own, twoSlotsItems_nodup own⟩

def TwoSlotsComputed (r : Resolved) (static : PlainReqs) (T : Int) : Prop :=
  (∀ k ∈ r.reqs.keys, containsEmpty k = false) ∧
    (r.reqs.get? "app").bind Req.sharers = none ∧
    getDependentPartitions static "app" = ["second"] ∧ shareSource static "second" = some "app" ∧
    sourceLeaves static "app" "app" = ["app"] ∧
    sizeof static 1001 "app" (static.keys.length + 1) "app" = .ok T

instance (r : Resolved) (static : PlainReqs) (T : Int) : Decidable (TwoSlotsComputed r static T) := by
  unfold TwoSlotsComputed
  infer_instance

/-- With an empty partition in front of the last one, the slots keep their difference. -/
theorem twoSlots_evenSplit : ∃ r static s,
    resolve (SetOrder.dedup Name) 3 (twoSlots none) "app" = .ok r ∧
    beforeSharing 3 r.reqs 1001 "app" = .ok static ∧
    setAddressesAndAlign 3 5 r 1001 "app" 0 = .ok s ∧ size? s.reqs "EMPTY_0" = some 6 ∧
    size? s.reqs "app" = some 398 ∧ size? s.reqs "second" = some 397 ∧
    EvenSplit static s.reqs "app" "app" 801 := by
  obtain ⟨r, hr, hrest⟩ := exists_of_returnsWith
    (x := resolve (SetOrder.dedup Name) 3 (twoSlots none) "app")
    (fun r => returnsWith (beforeSharing 3 r.reqs 1001 "app") fun static =>
      decide (TwoSlotsComputed r static 801 ∧ SplitsExactly r.reqs static "app" 801) &&
      returnsWith (setAddressesAndAlign 3 5 r 1001 "app" 0) fun s =>
        decide (size? s.reqs "EMPTY_0" = some 6 ∧ size? s.reqs "app" = some 398 ∧
          size? s.reqs "second" = some 397)) (by decide)
  obtain ⟨static, hstatic, hrest⟩ := exists_of_returnsWith _ hrest
  rw [Bool.and_eq_true, decide_eq_true_iff] at hrest
  obtain ⟨⟨⟨hnames, hnone, hdep, hshare, hleaves, hT⟩, hsplit⟩, hrest⟩ := hrest
  obtain ⟨s, hs, hcheck⟩ := exists_of_returnsWith _ hrest
  obtain ⟨he, happ, hsecond⟩ := of_decide_eq_true hcheck
  have hone : OneSource static "app" "app" := by
    refine ⟨by simp [hdep], fun k hk => ?_⟩
    rw [hdep, List.mem_singleton] at hk
    rw [hk, hshare]
  have hout : OutsideSource static "app" "app" := by
    refine ⟨by simp [hleaves], fun k hk => ?_⟩
    rw [hdep, List.mem_singleton] at hk
    simp [hleaves, hk]
  have hiff := setAddressesAndAlign_evenSplit_iff (freshEmptyNames_of_none hnames) hnone hstatic
    hone hout hT hs
  exact ⟨r, static, s, hr, hstatic, hs, he, happ, hsecond, hiff.mpr hsplit⟩

/-- The size that the second slot has of its own is taken from the region before it is split, and
then left to the application. -/
theorem twoSlots_sized_not_evenSplit : ∃ r static s,
    resolve (SetOrder.dedup Name) 3 (twoSlots (some 100)) "app" = .ok r ∧
    beforeSharing 3 r.reqs 1001 "app" = .ok static ∧
    sizeof static 1001 "app" (static.keys.length + 1) "app" = .ok 701 ∧
    setAddressesAndAlign 3 5 r 1001 "app" 0 = .ok s ∧
    size? s.reqs "app" = some 448 ∧ size? s.reqs "second" = some 347 ∧
    ¬ EvenSplit static s.reqs "app" "app" 701 := by
  obtain ⟨r, hr, hrest⟩ := exists_of_returnsWith
    (x := resolve (SetOrder.dedup Name) 3 (twoSlots (some 100)) "app")
    (fun r => returnsWith (beforeSharing 3 r.reqs 1001 "app") fun static =>
      decide (TwoSlotsComputed r static 701) &&
      returnsWith (setAddressesAndAlign 3 5 r 1001 "app" 0) fun s =>
        decide (size? s.reqs "app" = some 448 ∧ size? s.reqs "second" = some 347))
    (by decide)
  obtain ⟨static, hstatic, hrest⟩ := exists_of_returnsWith _ hrest
  rw [Bool.and_eq_true, decide_eq_true_iff] at hrest
  obtain ⟨⟨-, -, hdep, -, hleaves, hT⟩, hrest⟩ := hrest
  obtain ⟨s, hs, hcheck⟩ := exists_of_returnsWith _ hrest
  obtain ⟨happ, hsecond⟩ := of_decide_eq_true hcheck
  refine ⟨r, static, s, hr, hstatic, hT, hs, happ, hsecond, fun ⟨z, hall, heq⟩ => ?_⟩
  have hz := hall "second" (by simp [hdep])
  rw [hsecond, Option.some.injEq] at hz
  simp [hleaves, hdep, sizeSum, sizeOf0, happ, ← hz] at heq

end SdkNrf.PartitionManager
