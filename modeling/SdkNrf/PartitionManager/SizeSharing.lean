import SdkNrf.PartitionManager.AddressChain
import SdkNrf.PartitionManager.SolverEnds

/-!
# Sizes that are copied

`set_shared_size` fills in sizes in the order of the dict, and `sizeof` counts a partition that has
no size yet as empty.
-/

namespace SdkNrf.PartitionManager

open Relation

variable {keys : List Name}

theorem countSharers_size {fuel : Nat} {reqs reqs' : PlainReqs} {p : Name}
    (h : countSharers fuel keys reqs = .ok reqs') : size? reqs' p = size? reqs p := by
  have hmod (reqs : PlainReqs) (k : Name) (f : Req (List Name) → Req (List Name))
      (hf : ∀ v, (f v).size = v.size) : size? (reqs.modify k f) p = size? reqs p := by
    rw [size?, size?, Dict.get?_modify]
    split
    · cases reqs.get? p with
      | none => rfl
      | some v => exact hf v
    · rfl
  induction keys generalizing reqs with
  | nil =>
    cases h
    rfl
  | cons req rest ih =>
    rw [countSharers] at h
    split at h
    · obtain ⟨source, _, h⟩ := bind_eq_ok.mp h
      refine (ih h).trans ((hmod _ _ _ ?_).trans (hmod _ _ _ ?_))
      · exact fun _ => rfl
      · exact fun _ => rfl
    · exact ih h

theorem shareSource_setSize (reqs : PlainReqs) (p q : Name) (z : Int) :
    shareSource (setSize reqs p z) q = shareSource reqs q := by
  rw [shareSource, shareSource, setSize, Dict.get?_modify]
  split <;> cases reqs.get? q <;> rfl

theorem shareSource_foldl_setSize (sizes : List (Name × Int)) (reqs : PlainReqs)
    (q : Name) : shareSource (sizes.foldl (fun reqs e => setSize reqs e.1 e.2) reqs) q =
      shareSource reqs q := by
  induction sizes generalizing reqs with
  | nil => rfl
  | cons e sizes ih => rw [List.foldl_cons, ih, shareSource_setSize]

theorem shareSource_setStaticSizes {totalSize : Int} {dp : Name} {reqs reqs' : PlainReqs}
    (h : setStaticSizes totalSize dp keys reqs = .ok reqs') (q : Name) :
    shareSource reqs' q = shareSource reqs q := by
  induction keys generalizing reqs with
  | nil =>
    cases h
    rfl
  | cons req rest ih =>
    rw [setStaticSizes] at h
    split at h
    · obtain ⟨z, _, h⟩ := bind_eq_ok.mp h
      rw [ih h, shareSource_setSize]
    · simp at h

theorem getDependentPartitions_congr {reqs reqs' : PlainReqs} (hkeys : reqs'.keys = reqs.keys)
    (hshare : ∀ q, shareSource reqs' q = shareSource reqs q)
    (hspan : ∀ q, spanOf reqs' q = spanOf reqs q) (target : Name) :
    getDependentPartitions reqs' target = getDependentPartitions reqs target := by
  have hdyn (source : Name) :
      isDynamicSource reqs' target source = isDynamicSource reqs target source := by
    rw [isDynamicSource, isDynamicSource, hspan]
  rw [getDependentPartitions, getDependentPartitions, hkeys]
  congr 1
  funext k
  rw [hshare]
  cases shareSource reqs k with
  | none => rfl
  | some source => exact hdyn source

theorem newSizes_keys {reqs : PlainReqs} {totalSize : Int} {dp : Name} {sizes : List (Name × Int)}
    (h : newSizes reqs totalSize dp keys = .ok sizes) :
    sizes.map Prod.fst = keys := by
  induction keys generalizing sizes with
  | nil =>
    cases h
    rfl
  | cons req rest ih =>
    rw [newSizes] at h
    split at h
    · simp only [bind_eq_ok, pure_eq_ok] at h
      obtain ⟨z, _, zs, hzs, rfl⟩ := h
      rw [List.map_cons, ih hzs]
    · simp at h

theorem size?_foldl_setSize {sizes : List (Name × Int)} {q : Name}
    (hq : q ∉ sizes.map Prod.fst) (reqs : PlainReqs) :
    size? (sizes.foldl (fun reqs e => setSize reqs e.1 e.2) reqs) q = size? reqs q := by
  induction sizes generalizing reqs with
  | nil => rfl
  | cons e sizes ih =>
    rw [List.map_cons, List.mem_cons, not_or] at hq
    rw [List.foldl_cons, ih hq.2, size?_setSize_of_ne _ _ hq.1]

/-- The leaves whose sizes `sizeof` adds up. -/
def sizedLeaves (reqs : PlainReqs) (dp : Name) : Nat → Name → List Name
  | 0, _ => []
  | depth + 1, p =>
    if p = dp then [p]
    else match (reqs.get? p).bind Req.span with
      | none => [p]
      | some parts => parts.flatMap (sizedLeaves reqs dp depth)

def leafSize (reqs : PlainReqs) (totalSize : Int) (dp p : Name) : Int :=
  if p = dp then dynamicPartitionsSize reqs totalSize dp else (size? reqs p).getD 0

def leafSum (reqs : PlainReqs) (totalSize : Int) (dp : Name) (leaves : List Name) : Int :=
  (leaves.map (leafSize reqs totalSize dp)).sum

section Sizeof

variable {reqs reqs' : PlainReqs} {totalSize : Int} {dp : Name}

theorem foldlM_sum_ok {f : Name → Py Int} {parts : List Name} {acc z : Int}
    (h : parts.foldlM (fun sum part => do
      let y ← f part
      return sum + y) acc = .ok z) : ∀ p ∈ parts, ∃ y, f p = .ok y := by
  induction parts generalizing acc with
  | nil => simp
  | cons p parts ih =>
    simp only [List.foldlM_cons, bind_eq_ok] at h
    obtain ⟨acc', ⟨y, hy, -⟩, h⟩ := h
    intro q hq
    rcases List.mem_cons.mp hq with rfl | hq
    · exact ⟨y, hy⟩
    · exact ih h q hq

private theorem foldlM_sum_eq {f : Name → Py Int} {g : Name → Int} {parts : List Name}
    (h : ∀ p ∈ parts, f p = .ok (g p)) (acc : Int) :
    parts.foldlM (fun sum part => do
      let y ← f part
      return sum + y) acc = .ok (acc + (parts.map g).sum) := by
  induction parts generalizing acc with
  | nil => simp [pure, Except.pure]
  | cons p parts ih =>
    rw [List.foldlM_cons, h p (List.mem_cons_self ..), List.map_cons, List.sum_cons, ← add_assoc]
    exact ih (fun q hq => h q (List.mem_cons_of_mem _ hq)) _

private theorem sum_map_flatMap (f : Name → Int) (g : Name → List Name) (parts : List Name) :
    ((parts.flatMap g).map f).sum = (parts.map fun p => ((g p).map f).sum).sum := by
  induction parts with
  | nil => rfl
  | cons p parts ih =>
    rw [List.flatMap_cons, List.map_append, List.sum_append, List.map_cons, List.sum_cons, ih]

/-- Where `sizeof` returns for a dict, it returns the sum over the same leaves for every dict with
the same spans. -/
theorem sizeof_eq_leafSum (hshares : SharesOnly reqs reqs') {depth : Nat} {p : Name} {z : Int}
    (h : sizeof reqs totalSize dp depth p = .ok z) :
    sizeof reqs' totalSize dp depth p =
      .ok (leafSum reqs' totalSize dp (sizedLeaves reqs dp depth p)) := by
  induction depth generalizing p z with
  | zero => cases h
  | succ depth ih =>
    rw [sizeof] at h ⊢
    rw [sizedLeaves]
    by_cases hp : p = dp
    · simp [hp, leafSum, leafSize]
    simp only [hp, if_false] at h ⊢
    cases hv : reqs.get? p with
    | none => simp [hv] at h
    | some v =>
      have hspan := hshares.span p
      obtain ⟨v', hv', -⟩ : ∃ v', reqs'.get? p = some v' ∧ v'.unshared = v.unshared := by
        simpa [hv] using hshares.unshared p
      simp only [hv, hv', Option.bind_some] at h hspan ⊢
      cases hparts : v.span with
      | none =>
        simp only [hspan, hparts]
        simp [leafSum, leafSize, hp, size?, hv']
      | some parts =>
        simp only [hspan, hparts] at h ⊢
        have hall : ∀ q ∈ parts, sizeof reqs' totalSize dp depth q =
            .ok (leafSum reqs' totalSize dp (sizedLeaves reqs dp depth q)) := by
          intro q hq
          obtain ⟨y, hy⟩ := foldlM_sum_ok h q hq
          exact ih hy
        rw [foldlM_sum_eq hall, leafSum, sum_map_flatMap, zero_add]
        rfl

theorem sizedLeaves_congr (hshares : SharesOnly reqs reqs') (depth : Nat) (p : Name) :
    sizedLeaves reqs' dp depth p = sizedLeaves reqs dp depth p := by
  induction depth generalizing p with
  | zero => rfl
  | succ depth ih =>
    rw [sizedLeaves, sizedLeaves, hshares.span]
    simp only [funext ih]

theorem leafSum_congr {leaves : List Name}
    (h : ∀ p ∈ leaves, p ≠ dp ∧ size? reqs' p = size? reqs p) :
    leafSum reqs' totalSize dp leaves = leafSum reqs totalSize dp leaves := by
  apply congrArg List.sum
  apply List.map_congr_left
  intro p hp
  obtain ⟨hne, hsize⟩ := h p hp
  rw [leafSize, leafSize, if_neg hne, if_neg hne, hsize]

end Sizeof

/-- The chain of shared sizes from `k` ends in `source`. -/
def EndsIn (reqs : PlainReqs) (k source : Name) : Prop :=
  ReflTransGen (Shares reqs) source k ∧ (reqs.get? source).bind Req.shareSize = none

section Sources

variable {reqs reqs' : PlainReqs} {fuel : Nat}

theorem endsIn_of_getSizeSource {k source : Name} (h : getSizeSource reqs fuel k = .ok source) :
    EndsIn reqs k source := (getSizeSource_eq_ok h).2

theorem EndsIn.unique {k s s' : Name} (h : EndsIn reqs k s) (h' : EndsIn reqs k s') : s = s' := by
  have hend : ∀ {a b}, (reqs.get? a).bind Req.shareSize = none →
      ReflTransGen (Function.swap (Shares reqs)) a b → b = a := by
    intro a b hnone hpath
    rcases hpath.cases_head with rfl | ⟨c, hc, -⟩
    · rfl
    · rw [Function.swap, Shares, shareSource, hnone] at hc
      cases hc
  have hunique : Relator.RightUnique (Function.swap (Shares reqs)) := by
    intro a b c hb hc
    exact Option.some.inj (hb.symm.trans hc)
  rcases ReflTransGen.total_of_right_unique hunique h.1.swap h'.1.swap with hpath | hpath
  · exact (hend h.2 hpath).symm
  · exact hend h'.2 hpath

theorem endsIn_of_relink {req source k s : Name} (hreq : EndsIn reqs req source)
    (h : EndsIn (relink reqs req source) k s) : EndsIn reqs k s := by
  constructor
  · refine reflTransGen_closed (fun b a hab => ?_) _ _ h.1
    by_cases ha : a = req
    · subst ha
      rw [shareSource_relink_self hab]
      exact hreq.1
    · rw [Shares, shareSource_relink_of_ne reqs ha] at hab
      exact .single hab
  · have hnone := h.2
    rw [relink, Dict.get?_modify] at hnone
    split at hnone
    · rw [Dict.get?_modify] at hnone
      split at hnone <;> cases hv : reqs.get? s <;> simp_all
    · rw [Dict.get?_modify] at hnone
      split at hnone <;> cases hv : reqs.get? s <;> simp_all

theorem shareSize_relink_of_ne (reqs : PlainReqs) {req source k : Name} (h : k ≠ req) :
    ((relink reqs req source).get? k).bind Req.shareSize = (reqs.get? k).bind Req.shareSize := by
  rw [relink, Dict.get?_modify_of_ne _ _ h, Dict.get?_modify]
  split <;> cases reqs.get? k <;> rfl

theorem shareSource_relink_of_mem {req source : Name} (h : req ∈ reqs.keys) :
    shareSource (relink reqs req source) req = some source := by
  obtain ⟨v, hv⟩ := Option.isSome_iff_exists.mp ((Dict.get?_isSome_iff reqs req).mpr h)
  rw [shareSource, relink, Dict.get?_modify_self, Dict.get?_modify]
  split <;> simp [hv]

theorem shareSource_countSharers_of_notMem {ks : List Name}
    (h : countSharers fuel ks reqs = .ok reqs') {k : Name} (hk : k ∉ ks) :
    shareSource reqs' k = shareSource reqs k := by
  induction ks generalizing reqs with
  | nil =>
    cases h
    rfl
  | cons req rest ih =>
    rw [List.mem_cons, not_or] at hk
    rw [countSharers] at h
    split at h
    · obtain ⟨source, -, h⟩ := bind_eq_ok.mp h
      exact (ih h hk.2).trans (shareSource_relink_of_ne reqs hk.1)
    · exact ih h hk.2

theorem mem_keys_of_shareSize {k : Name} (h : ((reqs.get? k).bind Req.shareSize).isSome) :
    k ∈ reqs.keys := by
  cases hv : reqs.get? k with
  | none => simp [hv] at h
  | some v => exact Dict.mem_keys_of_get? hv

theorem countSharers_source {ks : List Name} (hnd : ks.Nodup)
    (h : countSharers fuel ks reqs = .ok reqs') {k : Name} (hk : k ∈ ks)
    (hshare : ((reqs.get? k).bind Req.shareSize).isSome) :
    ∃ s, shareSource reqs' k = some s ∧ EndsIn reqs k s := by
  induction ks generalizing reqs with
  | nil => simp at hk
  | cons req rest ih =>
    rw [List.nodup_cons] at hnd
    rw [countSharers] at h
    split at h
    next hreq =>
      obtain ⟨source, hsource, h⟩ := bind_eq_ok.mp h
      rcases List.mem_cons.mp hk with rfl | hk
      · refine ⟨source, ?_, endsIn_of_getSizeSource hsource⟩
        rw [shareSource_countSharers_of_notMem h hnd.1]
        exact shareSource_relink_of_mem (mem_keys_of_shareSize hreq)
      · have hne : k ≠ req := fun heq => hnd.1 (heq ▸ hk)
        have hshare' : (((relink reqs req source).get? k).bind Req.shareSize).isSome := by
          rwa [shareSize_relink_of_ne reqs hne]
        obtain ⟨s, hs, hend⟩ := ih hnd.2 h hk hshare'
        exact ⟨s, hs, endsIn_of_relink (endsIn_of_getSizeSource hsource) hend⟩
    next hreq =>
      rcases List.mem_cons.mp hk with rfl | hk
      · exact absurd hshare hreq
      · exact ih hnd.2 h hk hshare

theorem isDynamicSource_congr (hshares : SharesOnly reqs reqs') (dp source : Name) :
    isDynamicSource reqs' dp source = isDynamicSource reqs dp source := by
  rw [isDynamicSource, isDynamicSource, spanOf, spanOf, hshares.span]

end Sources

/-- The source of `k`, when `k` shares the size of a partition that is neither the dynamic partition
nor a container that spans it. -/
def staticSource (fuel : Nat) (reqs : PlainReqs) (dp k : Name) : Option Name :=
  if ((reqs.get? k).bind Req.shareSize).isSome then
    (getSizeSource reqs fuel k).toOption.filter fun source => !isDynamicSource reqs dp source
  else none

/-- Every partition that shares the size of such a source has the size of the source. -/
def StaticShared (fuel : Nat) (reqs final : PlainReqs) (totalSize : Int) (dp : Name) : Prop :=
  ∀ k source, staticSource fuel reqs dp k = some source →
    ∃ z, size? final k = some z ∧ sizeof final totalSize dp (final.keys.length + 1) source = .ok z

/-- The leaves of a source get their sizes before the size of the source is copied. -/
def SizedFirst (fuel : Nat) (reqs : PlainReqs) (dp : Name) : Prop :=
  ∀ k ∈ reqs.keys, ∀ source ∈ staticSource fuel reqs dp k,
    ∀ p ∈ sizedLeaves reqs dp (reqs.keys.length + 1) source, p ≠ dp ∧
      (((reqs.get? p).bind Req.shareSize).isSome →
        (staticSource fuel reqs dp p).isSome ∧ reqs.keys.idxOf p < reqs.keys.idxOf k)

instance (fuel : Nat) (reqs : PlainReqs) (dp : Name) : Decidable (SizedFirst fuel reqs dp) := by
  unfold SizedFirst
  infer_instance

section Order

variable {reqs reqs' : PlainReqs} {totalSize : Int} {dp : Name} {fuel : Nat}

theorem staticSource_eq_some {k source : Name} (h : staticSource fuel reqs dp k = some source) :
    ((reqs.get? k).bind Req.shareSize).isSome ∧ EndsIn reqs k source ∧
      isDynamicSource reqs dp source = false := by
  rw [staticSource] at h
  split at h
  next hshare =>
    rw [Option.filter_eq_some_iff, Bool.not_eq_true'] at h
    cases hs : getSizeSource reqs fuel k with
    | error => simp [hs, Except.toOption] at h
    | ok s =>
      simp only [hs, Except.toOption, Option.some.injEq] at h
      exact ⟨hshare, endsIn_of_getSizeSource (h.1 ▸ hs), h.2⟩
  next => cases h

theorem size?_setStaticSizes {ks : List Name} (h : setStaticSizes totalSize dp ks reqs = .ok reqs')
    {q : Name} (hq : q ∉ ks) : size? reqs' q = size? reqs q := by
  induction ks generalizing reqs with
  | nil =>
    cases h
    rfl
  | cons req rest ih =>
    rw [List.mem_cons, not_or] at hq
    rw [setStaticSizes] at h
    split at h
    · obtain ⟨z, -, h⟩ := bind_eq_ok.mp h
      rw [ih h hq.2, size?_setSize_of_ne _ _ hq.1]
    · simp at h

theorem setStaticSizes_split {ks : List Name} (h : setStaticSizes totalSize dp ks reqs = .ok reqs')
    {k : Name} (hk : k ∈ ks) : ∃ before after mid source z, ks = before ++ k :: after ∧
      setStaticSizes totalSize dp before reqs = .ok mid ∧ shareSource mid k = some source ∧
      sharedSize mid source totalSize dp = .ok z ∧
      setStaticSizes totalSize dp after (setSize mid k z) = .ok reqs' := by
  induction ks generalizing reqs with
  | nil => simp at hk
  | cons req rest ih =>
    rw [setStaticSizes] at h
    split at h
    next source hsource =>
      obtain ⟨z, hz, h⟩ := bind_eq_ok.mp h
      by_cases hreq : k = req
      · subst hreq
        exact ⟨[], rest, reqs, source, z, rfl, rfl, hsource, hz, h⟩
      · obtain ⟨before, after, mid, s, y, rfl, hbefore, hs, hy, hafter⟩ :=
          ih h ((List.mem_cons.mp hk).resolve_left hreq)
        refine ⟨req :: before, after, mid, s, y, rfl, ?_, hs, hy, hafter⟩
        rw [setStaticSizes, hsource]
        exact bind_eq_ok.mpr ⟨z, hz, hbefore⟩
    next => simp at h

/-- Members of a filtered list behind `k` are behind `k` in the list. -/
private theorem idxOf_lt_of_filter {keys before after : List Name} {P : Name → Bool} {k p : Name}
    (hnd : keys.Nodup) (hfilter : keys.filter P = before ++ k :: after) (hp : p ∈ k :: after) :
    keys.idxOf k ≤ keys.idxOf p := by
  obtain ⟨front, back, rfl, -, hback⟩ := List.filter_eq_append_iff.mp hfilter
  obtain ⟨skipped, back', rfl, -, -, hafter⟩ := List.filter_eq_cons_iff.mp hback
  have hk : k ∉ front ++ skipped := by
    intro hmem
    rw [← List.append_assoc, List.nodup_append] at hnd
    exact hnd.2.2 k hmem k (by simp) rfl
  have hpfront : p ∉ front ++ skipped := by
    intro hmem
    rw [← List.append_assoc, List.nodup_append] at hnd
    refine hnd.2.2 p hmem p ?_ rfl
    rcases List.mem_cons.mp hp with rfl | hp
    · simp
    · rw [← hafter, List.mem_filter] at hp
      simp [hp.1]
  rw [← List.append_assoc, List.idxOf_append_of_notMem hk, List.idxOf_append_of_notMem hpfront,
    List.idxOf_cons_self]
  omega

theorem mem_getDependentPartitions {target p source : Name} (hsource : shareSource reqs p = some source)
    (hp : p ∈ getDependentPartitions reqs target) : isDynamicSource reqs target source = true := by
  rw [getDependentPartitions, List.mem_filter, hsource] at hp
  exact hp.2

variable {counted : PlainReqs}

theorem isSome_shareSize_of_counted {ks : List Name} (h : countSharers fuel ks reqs = .ok counted)
    {p : Name} (hp : (shareSource counted p).isSome) :
    ((reqs.get? p).bind Req.shareSize).isSome := by
  by_contra hnone
  rw [Bool.not_eq_true, Option.isSome_eq_false_iff, Option.isNone_iff_eq_none] at hnone
  rw [shareSource, countSharers_shareSize hnone h] at hp
  cases hp

theorem staticSource_counted {k s : Name} (hcount : countSharers fuel reqs.keys reqs = .ok counted)
    (hk : staticSource fuel reqs dp k = some s) :
    shareSource counted k = some s ∧ k ∉ getDependentPartitions counted dp ∧
      k ∈ staticSizeSharers counted (getDependentPartitions counted dp) := by
  obtain ⟨hshare, hend, hdyn⟩ := staticSource_eq_some hk
  have hmem := mem_keys_of_shareSize hshare
  obtain ⟨s', hs', hend'⟩ := countSharers_source reqs.keys_nodup hcount hmem hshare
  obtain rfl := hend.unique hend'
  have hdep : k ∉ getDependentPartitions counted dp := by
    intro hin
    have htrue := mem_getDependentPartitions hs' hin
    rw [isDynamicSource_congr (countSharers_sharesOnly hcount), hdyn] at htrue
    cases htrue
  refine ⟨hs', hdep, ?_⟩
  rw [staticSizeSharers, List.mem_filter, (countSharers_sharesOnly hcount).keys, hs']
  exact ⟨hmem, by simp [hdep]⟩

/-- A leaf that is sized before `k` is neither `k` nor a partition that is sized later. -/
theorem SizedFirst.notLater (hfirst : SizedFirst fuel reqs dp)
    (hcount : countSharers fuel reqs.keys reqs = .ok counted) {k source : Name}
    (hk : staticSource fuel reqs dp k = some source) {before after : List Name}
    (hsplit : staticSizeSharers counted (getDependentPartitions counted dp) = before ++ k :: after)
    {p : Name} (hp : p ∈ sizedLeaves reqs dp (reqs.keys.length + 1) source) :
    p ∉ k :: after ∧ p ∉ getDependentPartitions counted dp := by
  have hkeys := mem_keys_of_shareSize (staticSource_eq_some hk).1
  have hlate := (hfirst k hkeys source hk p hp).2
  constructor
  · intro hpafter
    have hpstatic : p ∈ staticSizeSharers counted (getDependentPartitions counted dp) := by
      rw [hsplit]
      exact List.mem_append_right _ hpafter
    rw [staticSizeSharers, List.mem_filter, Bool.and_eq_true] at hpstatic
    have hlt := (hlate (isSome_shareSize_of_counted hcount hpstatic.2.1)).2
    have hle := idxOf_lt_of_filter counted.keys_nodup hsplit hpafter
    rw [(countSharers_sharesOnly hcount).keys] at hle
    omega
  · intro hpdep
    have hpshare : (shareSource counted p).isSome := by
      rw [getDependentPartitions, List.mem_filter] at hpdep
      cases hs : shareSource counted p with
      | none => simp [hs] at hpdep
      | some s => rfl
    obtain ⟨s, hs⟩ := Option.isSome_iff_exists.mp (hlate (isSome_shareSize_of_counted hcount hpshare)).1
    exact (staticSource_counted hcount hs).2.1 hpdep

/-- Where the leaves of every source get their sizes first, all copied sizes are those of their
sources. -/
theorem setSharedSize_staticShared {final : PlainReqs} (hfirst : SizedFirst fuel reqs dp)
    (h : setSharedSize fuel reqs totalSize dp = .ok final) :
    StaticShared fuel reqs final totalSize dp := by
  simp only [setSharedSize, bind_eq_ok, pure_eq_ok] at h
  obtain ⟨counted, hcount, static, hstatic, sizes, hsizes, rfl⟩ := h
  intro k source hk
  obtain ⟨hsource, hdep, hmem⟩ := staticSource_counted hcount hk
  have hdyn := (staticSource_eq_some hk).2.2
  have hkeys := mem_keys_of_shareSize (staticSource_eq_some hk).1
  obtain ⟨before, after, mid, source', z, hsplit, hbefore, hsource', hz, hafter⟩ :=
    setStaticSizes_split hstatic hmem
  have hmid : SharesOnly reqs mid :=
    (countSharers_sharesOnly hcount).trans (setStaticSizes_sharesOnly hbefore)
  rw [shareSource_setStaticSizes hbefore, hsource, Option.some.injEq] at hsource'
  subst hsource'
  have hnd : (before ++ k :: after).Nodup := hsplit ▸ (counted.keys_nodup.filter _)
  have hkafter : k ∉ after := by
    rw [List.nodup_append] at hnd
    exact (List.nodup_cons.mp hnd.2.1).1
  -- What is sized neither here nor later keeps its size.
  have hkeep : ∀ p, p ∉ after → p ∉ getDependentPartitions counted dp →
      size? (sizes.foldl (fun reqs e => setSize reqs e.1 e.2) static) p =
        size? (setSize mid k z) p := by
    intro p hp hpdep
    rw [size?_foldl_setSize (by rwa [newSizes_keys hsizes]), size?_setStaticSizes hafter hp]
  refine ⟨z, (hkeep k hkafter hdep).trans (size?_setSize_self z (hmid.keys ▸ hkeys)), ?_⟩
  rw [sharedSize] at hz
  split at hz
  · obtain ⟨y, hy, hz⟩ := bind_eq_ok.mp hz
    rw [isDynamicSource_congr hmid, hdyn] at hz
    simp only [Bool.false_eq_true, if_false, pure_eq_ok] at hz
    subst hz
    have hfinal : SharesOnly mid (sizes.foldl (fun reqs e => setSize reqs e.1 e.2) static) :=
      ((SharesOnly.setSize k y).trans (setStaticSizes_sharesOnly hafter)).trans
        (SharesOnly.foldl_setSize sizes static)
    have hself := sizeof_eq_leafSum (SharesOnly.refl mid) hy
    rw [hy, Except.ok.injEq] at hself
    rw [hfinal.keys, sizeof_eq_leafSum hfinal hy, hself]
    refine congrArg Except.ok (leafSum_congr fun p hp => ?_)
    rw [hmid.keys, sizedLeaves_congr hmid] at hp
    obtain ⟨hpafter, hpdep⟩ := hfirst.notLater hcount hk hsplit hp
    rw [List.mem_cons, not_or] at hpafter
    refine ⟨(hfirst k hkeys source hk p hp).1, ?_⟩
    rw [hkeep p hpafter.2 hpdep, size?_setSize_of_ne _ _ hpafter.1]
  · simp at hz

end Order

def paddedImage : List (Name × Req (List Name)) :=
  [("padded", { span := some ["pad", "image"] }),
    ("pad", { placement := some ⟨[.before ["image"]], by decide⟩, shareSize := some ["header"] }),
    ("image", { size := some 100, placement := some ⟨[.before ["app"]], by decide⟩ }),
    ("header", { size := some 8, placement := some ⟨[.before ["pad"]], by decide⟩ }),
    ("app", { region := some "flash_primary" })]

def paddedCopy : Name × Req (List Name) :=
  ("copy", { placement := some ⟨[.after ["app"]], by decide⟩, shareSize := some ["padded"] })

def copyLast : PlainReqs := ⟨paddedImage ++ [paddedCopy], by decide⟩

def copyFirst : PlainReqs := ⟨paddedCopy :: paddedImage, by decide⟩

theorem copyLast_staticShared : ∃ final, setSharedSize 3 copyLast 1000 "app" = .ok final ∧
    size? final "copy" = some 108 ∧ StaticShared 3 copyLast final 1000 "app" := by
  obtain ⟨final, hfinal, hcheck⟩ := exists_of_returnsWith (x := setSharedSize 3 copyLast 1000 "app")
    (fun final => decide (size? final "copy" = some 108)) (by decide)
  exact ⟨final, hfinal, of_decide_eq_true hcheck,
    setSharedSize_staticShared (by decide) hfinal⟩

/-- The padding has no size yet when that of the container is copied. -/
theorem copyFirst_not_staticShared : ∃ final, setSharedSize 3 copyFirst 1000 "app" = .ok final ∧
    size? final "copy" = some 100 ∧ sizeof final 1000 "app" 7 "padded" = .ok 108 ∧
    ¬ StaticShared 3 copyFirst final 1000 "app" := by
  obtain ⟨final, hfinal, hcheck⟩ :=
    exists_of_returnsWith (x := setSharedSize 3 copyFirst 1000 "app") (fun final =>
      decide (final.keys.length = 6 ∧ size? final "copy" = some 100 ∧
        sizeof final 1000 "app" 7 "padded" = .ok 108)) (by decide)
  obtain ⟨hlen, hcopy, hpadded⟩ := of_decide_eq_true hcheck
  refine ⟨final, hfinal, hcopy, hpadded, fun h => ?_⟩
  obtain ⟨z, hz, hsource⟩ := h "copy" "padded" (by decide)
  rw [hlen, hpadded, Except.ok.injEq] at hsource
  rw [hcopy, Option.some.injEq] at hz
  omega

end SdkNrf.PartitionManager
