import SdkNrf.PartitionManager.PlacementOrder

/-!
# What a container covers

`set_sub_partition_address_and_size` gives a container the least address and the sum of the sizes of
its parts.
-/

namespace SdkNrf.PartitionManager

open Relation

theorem sumSizes_eq_ok {reqs : PlainReqs} {ps : List Name} {z : Int}
    (h : sumSizes reqs ps = .ok z) : z = (ps.filterMap (size? reqs)).sum := by
  induction ps generalizing z with
  | nil =>
    cases h
    rfl
  | cons p ps ih =>
    simp only [sumSizes, bind_eq_ok, sizeAt_eq_ok, pure_eq_ok] at h
    obtain ⟨y, hy, rest, hrest, rfl⟩ := h
    rw [List.filterMap_cons_some hy, List.sum_cons, ← ih hrest]

theorem addressesOf_eq_ok {reqs : PlainReqs} {ps : List Name} {as : List Int}
    (h : addressesOf reqs ps = .ok as) : ps.map (address? reqs) = as.map some := by
  induction ps generalizing as with
  | nil =>
    cases h
    rfl
  | cons p ps ih =>
    simp only [addressesOf, bind_eq_ok, addressAt_eq_ok, pure_eq_ok] at h
    obtain ⟨a, ha, rest, hrest, rfl⟩ := h
    rw [List.map_cons, List.map_cons, ha, ih hrest]

structure ContainerOf (reqs reqs' : PlainReqs) (c : Name) (m : Int) : Prop where
  address : address? reqs' c = some m
  size : size? reqs' c = some ((spanOf reqs c).filterMap (size? reqs)).sum
  least : ∀ p ∈ spanOf reqs c, ∀ x, address? reqs p = some x → m ≤ x
  attained : ∃ p ∈ spanOf reqs c, address? reqs p = some m

theorem setContainer_eq_ok {reqs reqs' : PlainReqs} {c : Name} (hc : c ∈ reqs.keys)
    (h : setContainer reqs c = .ok reqs') :
    (∀ q, q ≠ c → reqs'.get? q = reqs.get? q) ∧ ∃ m, ContainerOf reqs reqs' c m := by
  simp only [setContainer, bind_eq_ok] at h
  obtain ⟨z, hz, h⟩ := h
  by_cases hz0 : z = 0
  · simp [hz0] at h
  simp only [hz0, if_false, bind_eq_ok] at h
  obtain ⟨as, has, h⟩ := h
  cases as with
  | nil => simp at h
  | cons a as =>
    simp only [pure_eq_ok] at h
    subst h
    have hmap := addressesOf_eq_ok has
    obtain ⟨v, hv⟩ := Option.isSome_iff_exists.mp ((Dict.get?_isSome_iff reqs c).mpr hc)
    refine ⟨fun q hq => Dict.get?_modify_of_ne _ _ hq, as.foldl min a, ?_, ?_, ?_, ?_⟩
    · rw [address?, Dict.get?_modify_self, hv]
      rfl
    · rw [size?, Dict.get?_modify_self, hv, sumSizes_eq_ok hz]
      rfl
    · intro p hp x hx
      have hmem : some x ∈ (a :: as).map some := by
        rw [← hmap, ← hx]
        exact List.mem_map_of_mem hp
      rw [List.mem_map] at hmem
      obtain ⟨y, hy, hyx⟩ := hmem
      rw [Option.some.injEq] at hyx
      subst hyx
      rcases List.mem_cons.mp hy with rfl | hy
      · exact (foldl_min_le as y).1
      · exact (foldl_min_le as a).2 y hy
    · have hmem : some (as.foldl min a) ∈ (a :: as).map some :=
        List.mem_map_of_mem (foldl_min_mem as a)
      rw [← hmap, List.mem_map] at hmem
      exact hmem

theorem setSubPartitionAddressAndSize_spec {subs : List Name} {reqs final : PlainReqs}
    (hnd : subs.Nodup) (hmem : ∀ c ∈ subs, c ∈ reqs.keys)
    (hflat : ∀ c ∈ subs, ∀ p ∈ spanOf reqs c, p ∉ subs)
    (h : setSubPartitionAddressAndSize subs reqs = .ok final) :
    (∀ q, q ∉ subs → final.get? q = reqs.get? q) ∧
      ∀ c ∈ subs, ∃ m, ContainerOf reqs final c m := by
  induction subs generalizing reqs with
  | nil =>
    cases h
    simp
  | cons d subs ih =>
    simp only [setSubPartitionAddressAndSize, bind_eq_ok] at h
    obtain ⟨reqs₁, h₁, h⟩ := h
    rw [List.nodup_cons] at hnd
    obtain ⟨hsame, m, hd⟩ := setContainer_eq_ok (hmem d (List.mem_cons_self ..)) h₁
    have hne (c : Name) (hc : c ∈ subs) : c ≠ d := fun heq => hnd.1 (heq ▸ hc)
    have hspan (c : Name) (hc : c ∈ subs) : spanOf reqs₁ c = spanOf reqs c := by
      rw [spanOf, spanOf, hsame c (hne c hc)]
    have hmem₁ : ∀ c ∈ subs, c ∈ reqs₁.keys := by
      intro c hc
      rw [← Dict.get?_isSome_iff, hsame c (hne c hc), Dict.get?_isSome_iff]
      exact hmem c (List.mem_cons_of_mem _ hc)
    obtain ⟨hrest, hcs⟩ := ih hnd.2 hmem₁ (fun c hc p hp hps => by
      rw [hspan c hc] at hp
      exact hflat c (List.mem_cons_of_mem _ hc) p hp (List.mem_cons_of_mem _ hps)) h
    refine ⟨fun q hq => ?_, fun c hc => ?_⟩
    · rw [List.mem_cons, not_or] at hq
      rw [hrest q hq.2, hsame q hq.1]
    · rcases List.mem_cons.mp hc with rfl | hc
      · exact ⟨m, by rw [address?, hrest c hnd.1]; exact hd.address,
          by rw [size?, hrest c hnd.1]; exact hd.size, hd.least, hd.attained⟩
      · obtain ⟨m', hm'⟩ := hcs c hc
        -- The parts are no containers, so the pass has not touched them.
        have hpart (p : Name) (hp : p ∈ spanOf reqs c) : reqs₁.get? p = reqs.get? p :=
          hsame p fun heq => hflat c (List.mem_cons_of_mem _ hc) p hp (heq ▸ List.mem_cons_self ..)
        have hsize : (spanOf reqs c).filterMap (size? reqs₁) =
            (spanOf reqs c).filterMap (size? reqs) :=
          List.filterMap_congr fun p hp => by rw [size?, size?, hpart p hp]
        refine ⟨m', hm'.address, ?_, fun p hp x hx => ?_, ?_⟩
        · rw [hm'.size, hspan c hc, hsize]
        · refine hm'.least p (by rwa [hspan c hc]) x ?_
          rw [address?, hpart p hp]
          exact hx
        · obtain ⟨p, hp, hpm⟩ := hm'.attained
          rw [hspan c hc] at hp
          exact ⟨p, hp, by rw [address?, ← hpart p hp]; exact hpm⟩

section Coverage

variable {ord : SetOrder Name} {fuel depth : Nat} {reqs : Reqs YamlRefs} {dp c : Name}
  {pre cleaned final : PlainReqs} {unsolved : List Name} {r : Resolved} {size start : Int}
  {s : LayoutState}

/-- The container covers the leaves it spans: every address of the container belongs to one of
them and the other way round. -/
def Covers (pre final : PlainReqs) (c : Name) : Prop :=
  ∀ x, InRange (address? final) (size? final) c x ↔
    ∃ l ∈ leafKeys pre, Spans pre c l ∧ InRange (address? final) (size? final) l x

def SpannedLeaf (pre : PlainReqs) (c l : Name) : Prop := l ∈ leafKeys pre ∧ Spans pre c l

def Unsplit (placed : List Name) (sel : Name → Prop) (solution : List Name) : Prop :=
  ∀ l₁ e l₂, solution = l₁ ++ e :: l₂ → e ∉ placed → (∃ p ∈ l₁, sel p) → ∀ q ∈ l₂, ¬ sel q

/-- The container names its parts once, its parts have not been moved apart and none of them has
got a negative size, and a part that comes first in the order is placed once. -/
structure Compact (pre : PlainReqs) (r : Resolved) (s : LayoutState) (c : Name) : Prop where
  lists : ListsOnce pre r.subs c
  unsplit : Unsplit r.solution (SpannedLeaf pre c) s.solution
  sizes : ∀ l, SpannedLeaf pre c l → ∀ z, size? s.reqs l = some z → 0 ≤ z
  first : ∀ f, r.solution.head? = some f → SpannedLeaf pre c f → f ∉ r.solution.tail

/-- The container names its parts once, none of them is placed twice, and no size that counts for
the container is negative. -/
structure Measured (pre : PlainReqs) (r : Resolved) (s : LayoutState) (c : Name) : Prop where
  lists : ListsOnce pre r.subs c
  once : ∀ l, SpannedLeaf pre c l → r.solution.count l ≤ 1
  sizes : ∀ p ∈ s.solution, SpannedLeaf pre c p ∨ p ∉ r.solution →
    ∀ z, size? s.reqs p = some z → 0 ≤ z

/-- No inserted partition of positive size stands between a selected one and one of positive size.
-/
def Gapless (placed : List Name) (size : Name → Option Int) (sel : Name → Prop)
    (solution : List Name) : Prop :=
  ∀ l₁ e l₂, solution = l₁ ++ e :: l₂ → e ∉ placed → (∃ z, size e = some z ∧ 0 < z) →
    (∃ p ∈ l₁, sel p) → ∀ q ∈ l₂, sel q → ∀ z, size q = some z → z ≤ 0

private theorem SolvedFrom.mem_span_iff (h : SolvedFrom ord dp pre r cleaned unsolved)
    (hdp : dp ∈ leafKeys pre) (hc : c ∈ r.subs) {l : Name} :
    l ∈ spanOf r.reqs c ↔ SpannedLeaf pre c l := by
  constructor
  · intro hl
    have hleaf : l ∈ leafKeys pre := by
      rcases h.mem_solution ((validateSpan_eq_ok (validateSpans_mem h.valid hc)).1 l hl) with
        rfl | hleaf
      · exact hdp
      · exact hleaf
    rw [h.rewrites.spanOf] at hl
    exact ⟨hleaf, (h.clean.mem_span c hc l hleaf).mp hl⟩
  · rintro ⟨hleaf, hspans⟩
    rw [h.rewrites.spanOf]
    exact (h.clean.mem_span c hc l hleaf).mpr hspans

private theorem SolvedFrom.layoutRun (h : SolvedFrom ord dp pre r cleaned unsolved)
    (hfresh : FreshEmptyNames r.reqs)
    (hs : setAddressesAndAlign fuel depth r size dp start = .ok s) :
    s.solution.filter (· ∈ r.solution) = r.solution ∧ (∀ k ∈ pre.keys, k ∈ s.reqs.keys) ∧
      ∀ k ∈ pre.keys, spanOf s.reqs k = spanOf r.reqs k := by
  obtain ⟨shared, first, hshared, hdp, -, -, hcases⟩ := setAddressesAndAlign_eq_ok hs
  have hshares := setSharedSize_sharesOnly hshared
  have hnamed := h.named hfresh first start hshared hdp
  have hkeys : (beforeAssignment shared size dp first start).keys = pre.keys := by
    rw [beforeAssignment, keys_setAddress, keys_setSize, hshares.keys, h.keys]
  have hspan (k : Name) :
      spanOf (beforeAssignment shared size dp first start) k = spanOf r.reqs k := by
    rw [beforeAssignment, spanOf_eq_fixed, fixed?_setAddress, fixed?_setSize, ← spanOf_eq_fixed,
      spanOf, spanOf, hshares.span]
  split_ifs at hcases
  · have hrun := assignAddresses_run hcases.1
    refine ⟨LayoutRun.filter_solution hnamed hrun, ?_, ?_⟩
    · exact fun k hk => (LayoutRun.fixed_of_mem hrun hnamed (by rwa [hkeys])).1
    · intro k hk
      rw [spanOf_eq_fixed, (LayoutRun.fixed_of_mem hrun hnamed (by rwa [hkeys])).2,
        ← spanOf_eq_fixed, hspan]
  · subst hcases
    exact ⟨List.filter_eq_self.mpr fun p hp => by simpa using hp, fun k hk => by rwa [hkeys],
      fun k _ => hspan k⟩

/-- A segment of the solution is tiled, at the start of the region if the first partition is placed
once. -/
private theorem SolvedFrom.segment_tiles (h : SolvedFrom ord dp pre r cleaned unsolved)
    (hs : setAddressesAndAlign fuel depth r size dp start = .ok s)
    (hkeys : 1 < pre.keys.length) {l₁ l l₂ : List Name} (hsol : s.solution = l₁ ++ l ++ l₂)
    (hfirst : l₁ = [] → FirstOnce r) : ∃ a b, Tiles (address? s.reqs) (size? s.reqs) l a b := by
  cases l₁ with
  | nil =>
    have htiles := h.tiles (hfirst rfl) hs
    rw [hsol] at htiles
    obtain ⟨b, hb, -⟩ := Tiles.append_iff.mp htiles
    exact ⟨start, b, hb⟩
  | cons f l₁ =>
    obtain ⟨shared, first, hshared, -, -, -, hcases⟩ := setAddressesAndAlign_eq_ok hs
    rw [if_pos (by rwa [(setSharedSize_sharesOnly hshared).keys, h.keys])] at hcases
    have hverify := hcases.2
    rw [hsol, List.append_assoc, List.cons_append] at hverify
    obtain ⟨z, b, -, hb, -⟩ := verifyLayout_eq_ok hverify
    obtain ⟨x, -, hx⟩ := Tiles.append_iff.mp hb
    obtain ⟨y, hy, -⟩ := Tiles.append_iff.mp hx
    exact ⟨x, y, hy⟩

/-- What a pass over the containers makes of the container `c`, in terms of the leaves that it
spans. -/
private theorem SolvedFrom.covers_iff (h : SolvedFrom ord dp pre r cleaned unsolved)
    (hdp : dp ∈ leafKeys pre) (hfresh : FreshEmptyNames r.reqs)
    (hs : setAddressesAndAlign fuel depth r size dp start = .ok s)
    (hfinal : setSubPartitionAddressAndSize r.subs s.reqs = .ok final) (hc : c ∈ r.subs) :
    ∃ m, (∃ p ∈ spanOf r.reqs c, address? s.reqs p = some m) ∧
      (∀ p ∈ spanOf r.reqs c, ∀ x, address? s.reqs p = some x → m ≤ x) ∧
      (Covers pre final c ↔ ∀ x, (m ≤ x ∧ x < m + ((spanOf r.reqs c).filterMap (size? s.reqs)).sum) ↔
        ∃ p ∈ spanOf r.reqs c, InRange (address? s.reqs) (size? s.reqs) p x) := by
  obtain ⟨-, hkeymem, hspan⟩ := h.layoutRun hfresh hs
  have hckey (d : Name) (hd : d ∈ r.subs) : d ∈ pre.keys :=
    mem_keys_of_isContainer (h.clean.subs_container d hd)
  have hleafsub (l : Name) (hl : l ∈ leafKeys pre) : l ∉ r.subs := fun hls => by
    have := h.clean.subs_container l hls
    rw [(mem_leafKeys.mp hl).2] at this
    cases this
  obtain ⟨hsame, hcont⟩ := setSubPartitionAddressAndSize_spec h.clean.subs_nodup
    (fun d hd => hkeymem d (hckey d hd))
    (fun d hd p hp => by
      rw [hspan d (hckey d hd), h.mem_span_iff hdp hd] at hp
      exact hleafsub p hp.1) hfinal
  obtain ⟨m, hm⟩ := hcont c hc
  have hspanc := hspan c (hckey c hc)
  refine ⟨m, by rw [← hspanc]; exact hm.attained, by rw [← hspanc]; exact hm.least, ?_⟩
  rw [Covers]
  refine forall_congr' fun x => iff_congr ?_ ?_
  · rw [← hspanc]
    constructor
    · rintro ⟨a, z, ha, hz, hle, hlt⟩
      rw [hm.address, Option.some.injEq] at ha
      rw [hm.size, Option.some.injEq] at hz
      subst ha hz
      exact ⟨hle, hlt⟩
    · exact fun hx => ⟨m, _, hm.address, hm.size, hx.1, hx.2⟩
  · have hrange (l : Name) (hl : l ∈ leafKeys pre) :
        InRange (address? final) (size? final) l x ↔
          InRange (address? s.reqs) (size? s.reqs) l x := by
      simp only [InRange, address?, size?, hsame l (hleafsub l hl)]
    constructor
    · rintro ⟨l, hl, hspans, hx⟩
      exact ⟨l, (h.mem_span_iff hdp hc).mpr ⟨hl, hspans⟩, (hrange l hl).mp hx⟩
    · rintro ⟨l, hin, hx⟩
      obtain ⟨hl, hspans⟩ := (h.mem_span_iff hdp hc).mp hin
      exact ⟨l, hl, hspans, (hrange l hl).mpr hx⟩

/-- The parts of a container and what has been inserted between them are a segment of the
solution. -/
private theorem SolvedFrom.exists_segment (h : SolvedFrom ord dp pre r cleaned unsolved)
    (hfresh : FreshEmptyNames r.reqs)
    (hs : setAddressesAndAlign fuel depth r size dp start = .ok s) (hc : c ∈ r.subs)
    (hlists : ListsOnce pre r.subs c) : ∃ k₁ k k₂ l₁ l l₂, r.solution = k₁ ++ k ++ k₂ ∧
      s.solution = l₁ ++ l ++ l₂ ∧ k.Perm (spanOf r.reqs c) ∧
      l₁.filter (· ∈ r.solution) = k₁ ∧ l.filter (· ∈ r.solution) = k ∧
      l₂.filter (· ∈ r.solution) = k₂ := by
  have hnd : (spanOf r.reqs c).Nodup := by
    rw [h.rewrites.spanOf]
    exact h.clean.nodup c hlists
  obtain ⟨k₁, k, k₂, hr, hperm⟩ := validateSpan_segment hnd (validateSpans_mem h.valid hc)
  have hfilter := (h.layoutRun hfresh hs).1
  conv at hfilter => rhs; rw [hr]
  obtain ⟨l', l₂, hl', hk', hk₂⟩ := List.filter_eq_append_iff.mp hfilter
  obtain ⟨l₁, l, rfl, hk₁, hk⟩ := List.filter_eq_append_iff.mp hk'
  exact ⟨k₁, k, k₂, l₁, l, l₂, hr, hl', hperm, hk₁, hk, hk₂⟩

private theorem SolvedFrom.covers_of_compact (h : SolvedFrom ord dp pre r cleaned unsolved)
    (hdp : dp ∈ leafKeys pre) (hfresh : FreshEmptyNames r.reqs)
    (hs : setAddressesAndAlign fuel depth r size dp start = .ok s)
    (hfinal : setSubPartitionAddressAndSize r.subs s.reqs = .ok final) (hc : c ∈ r.subs)
    (hkeys : 1 < pre.keys.length) (hcompact : Compact pre r s c) : Covers pre final c := by
  obtain ⟨m, ⟨p, hp, hpm⟩, hleast, hcovers⟩ := h.covers_iff hdp hfresh hs hfinal hc
  obtain ⟨k₁, k, k₂, l₁, l, l₂, hr, hsol, hperm, hk₁, hk, -⟩ :=
    h.exists_segment hfresh hs hc hcompact.lists
  have hpart {q : Name} (hq : q ∈ k) : SpannedLeaf pre c q :=
    (h.mem_span_iff hdp hc).mp (hperm.mem_iff.mp hq)
  -- Nothing has been inserted between the parts.
  obtain ⟨a₁, a₂, rfl⟩ := exists_segment_of_filter hk fun u₁ e u₂ hl he ⟨q, hq, hqr⟩ q' hq' => by
    by_contra hqr'
    rw [Bool.not_eq_false] at hqr'
    refine hcompact.unsplit (l₁ ++ u₁) e (u₂ ++ l₂) ?_ (by simpa using he) ⟨q, by simp [hq], ?_⟩ q'
      (by simp [hq']) ?_
    · rw [hsol, hl]
      simp
    · exact hpart (hk ▸ List.mem_filter.mpr ⟨by rw [hl]; simp [hq], hqr⟩)
    · exact hpart (hk ▸ List.mem_filter.mpr ⟨by rw [hl]; simp [hq'], hqr'⟩)
  have hsol' : s.solution = (l₁ ++ a₁) ++ k ++ (a₂ ++ l₂) := by
    rw [hsol]
    simp
  have hpk : p ∈ k := hperm.mem_iff.mpr hp
  obtain ⟨a, b, htiles⟩ := h.segment_tiles hs hkeys hsol' fun hnil => by
    obtain ⟨rfl, -⟩ := List.append_eq_nil_iff.mp hnil
    obtain ⟨f, k, rfl⟩ := List.exists_cons_of_ne_nil (List.ne_nil_of_mem hpk)
    rw [List.filter_nil] at hk₁
    rw [← hk₁, List.nil_append] at hr
    have hhead : r.solution.head? = some f := by
      rw [hr]
      rfl
    refine ⟨fun f' hf' => ?_, hfresh⟩
    obtain rfl : f = f' := Option.some.inj (hhead.symm.trans hf')
    exact hcompact.first f hhead (hpart (List.mem_cons_self ..))
  have hnn : ∀ q ∈ k, ∀ z, size? s.reqs q = some z → 0 ≤ z := fun q hq =>
    hcompact.sizes q (hpart hq)
  have hma : m = a := by
    obtain ⟨f, k, rfl⟩ := List.exists_cons_of_ne_nil (List.ne_nil_of_mem hpk)
    have hle := hleast f (hperm.mem_iff.mp (List.mem_cons_self ..)) a htiles.head
    obtain ⟨x, -, hx, -, -, hax, -⟩ := htiles.mem_bounds hnn hpk
    rw [hpm, Option.some.injEq] at hx
    omega
  have hsum : ((spanOf r.reqs c).filterMap (size? s.reqs)).sum = b - a := by
    have := htiles.add_sum
    rw [← (hperm.filterMap _).sum_eq]
    omega
  rw [hcovers, hma, hsum]
  intro x
  rw [add_sub_cancel, htiles.inRange_iff hnn]
  simp only [hperm.mem_iff]

private theorem SolvedFrom.gapless_of_covers (h : SolvedFrom ord dp pre r cleaned unsolved)
    (hdp : dp ∈ leafKeys pre) (hfresh : FreshEmptyNames r.reqs)
    (hs : setAddressesAndAlign fuel depth r size dp start = .ok s)
    (hfinal : setSubPartitionAddressAndSize r.subs s.reqs = .ok final) (hc : c ∈ r.subs)
    (hkeys : 1 < pre.keys.length) (hmeasured : Measured pre r s c)
    (hcovered : Covers pre final c) :
    Gapless r.solution (size? s.reqs) (SpannedLeaf pre c) s.solution := by
  obtain ⟨m, ⟨p₀, hp₀, hpm⟩, hleast, hcovers⟩ := h.covers_iff hdp hfresh hs hfinal hc
  obtain ⟨k₁, k, k₂, l₁, l, l₂, hr, hsol, hperm, hk₁, hk, hk₂⟩ :=
    h.exists_segment hfresh hs hc hmeasured.lists
  have hmem (p : Name) : p ∈ spanOf r.reqs c ↔ SpannedLeaf pre c p := h.mem_span_iff hdp hc
  have hplaced {p : Name} (hp : SpannedLeaf pre c p) : p ∈ k := hperm.mem_iff.mpr ((hmem p).mpr hp)
  -- The parts stand in the segment, and nowhere else.
  have hcount {p : Name} (hp : SpannedLeaf pre c p) : p ∉ k₁ ∧ p ∉ k₂ := by
    have honce := hmeasured.once p hp
    have hpos := List.count_pos_iff.mpr (hplaced hp)
    rw [hr, List.count_append, List.count_append] at honce
    rw [← List.count_eq_zero, ← List.count_eq_zero]
    omega
  have hin {p : Name} (hp : SpannedLeaf pre c p) : p ∈ r.solution := by
    rw [hr]
    simp [hplaced hp]
  have hout {p : Name} (hp : SpannedLeaf pre c p) : p ∉ l₁ ∧ p ∉ l₂ := by
    refine (hcount hp).imp (fun hk hl => hk ?_) fun hk hl => hk ?_
    · exact hk₁ ▸ List.mem_filter.mpr ⟨hl, by simpa using hin hp⟩
    · exact hk₂ ▸ List.mem_filter.mpr ⟨hl, by simpa using hin hp⟩
  obtain ⟨a, b, htiles⟩ := h.segment_tiles hs hkeys hsol fun hnil => by
    subst hnil
    rw [List.filter_nil] at hk₁
    rw [← hk₁, List.nil_append] at hr
    obtain ⟨f, k, rfl⟩ := List.exists_cons_of_ne_nil (List.ne_nil_of_mem (hperm.mem_iff.mpr hp₀))
    have hf := (hmem f).mp (hperm.mem_iff.mp (List.mem_cons_self ..))
    refine ⟨fun f' hf' hin' => ?_, hfresh⟩
    rw [hr, List.cons_append, List.head?_cons, Option.some.injEq] at hf'
    rw [hr, List.cons_append, List.tail_cons, ← hf'] at hin'
    have honce := hmeasured.once f hf
    rw [hr, List.cons_append, List.count_cons_self] at honce
    have := List.count_pos_iff.mpr hin'
    omega
  have hsub {p : Name} (hp : p ∈ k) : p ∈ l := List.mem_of_mem_filter (hk ▸ hp)
  have hnn : ∀ q ∈ l, ∀ z, size? s.reqs q = some z → 0 ≤ z := by
    intro q hq
    refine hmeasured.sizes q (by rw [hsol]; simp [hq]) ?_
    by_cases hqr : q ∈ r.solution
    · exact Or.inl ((hmem q).mp (hperm.mem_iff.mp (hk ▸ List.mem_filter.mpr ⟨hq, by simpa using hqr⟩)))
    · exact Or.inr hqr
  have hselected : l.filter (· ∈ spanOf r.reqs c) = k := by
    rw [← hk]
    refine List.filter_congr fun q hq => ?_
    rw [decide_eq_decide]
    refine ⟨fun hqs => hin ((hmem q).mp hqs), fun hqr => hperm.mem_iff.mp ?_⟩
    exact hk ▸ List.mem_filter.mpr ⟨hq, by simpa using hqr⟩
  have hcont := (htiles.cover_iff (· ∈ spanOf r.reqs c) hnn
    ⟨p₀, hsub (hperm.mem_iff.mpr hp₀), by simpa using hp₀, hpm⟩
    (fun p _ hp => hleast p (by simpa using hp))).mp ?_
  · intro u₁ e u₂ hu he hpos ⟨p, hp, hps⟩ q hq hqs z hz
    -- The inserted partition stands in the segment, too.
    obtain ⟨v₁, rfl, hv⟩ | ⟨v, rfl, hv⟩ : (∃ v, u₁ = l₁ ++ v ∧ l ++ l₂ = v ++ e :: u₂) ∨
        ∃ v, l₁ = u₁ ++ v ∧ e :: u₂ = v ++ (l ++ l₂) := by
      rw [hsol, List.append_assoc] at hu
      exact (List.append_eq_append_iff.mp hu).imp (fun ⟨v, h₁, h₂⟩ => ⟨v, h₁, h₂⟩)
        fun ⟨v, h₁, h₂⟩ => ⟨v, h₁, h₂⟩
    · obtain ⟨w, rfl, hw⟩ | ⟨w, rfl, hw⟩ := List.append_eq_append_iff.mp hv
      · refine absurd ?_ (hout hqs).2
        rw [hw]
        simp [hq]
      · cases w with
        | nil =>
          refine absurd ?_ (hout hqs).2
          rw [List.nil_append] at hw
          rw [← hw]
          simp [hq]
        | cons e' w =>
          obtain ⟨rfl, rfl⟩ := List.cons.inj hw
          have hps' : p ∈ v₁ := by
            rcases List.mem_append.mp hp with hp | hp
            · exact absurd hp (hout hps).1
            · exact hp
          have hqw : q ∈ w := by
            rcases List.mem_append.mp hq with hq | hq
            · exact hq
            · exact absurd hq (hout hqs).2
          refine hcont v₁ e w rfl (fun hes => he (hin ((hmem e).mp (by simpa using hes)))) hpos
            ⟨p, hps', by simpa using (hmem p).mpr hps⟩ q hqw (by simpa using (hmem q).mpr hqs) z hz
    · exact absurd (List.mem_append_left v hp) (hout hps).1
  · rw [hcovers] at hcovered
    intro x
    rw [selectedSize, hselected, (hperm.filterMap _).sum_eq, hcovered x]
    constructor
    · rintro ⟨p, hp, hx⟩
      exact ⟨p, hsub (hperm.mem_iff.mpr hp), by simpa using hp, hx⟩
    · rintro ⟨p, -, hp, hx⟩
      exact ⟨p, by simpa using hp, hx⟩

end Coverage

/-- A container over two neighbours in front of the dynamic partition; `aligns` is what the
placement of the second one asks for besides its position. -/
def pairOf (aligns : List (PlacementEntry YamlRefs))
    (h : ((.before (.str "app") :: aligns).map PlacementEntry.key).Nodup) : Reqs YamlRefs :=
  ⟨[("x", { size := some 256, placement := some ⟨[.before (.str "y")], by simp⟩ }),
    ("y", { size := some 256, placement := some ⟨.before (.str "app") :: aligns, h⟩ }),
    ("pair", { span := some (.list [.name "x", .name "y"]) }),
    ("app", { region := some "flash_primary" })], by simp⟩

/-- The placement entry `align: {start: 4096}`. -/
def alignStart : PlacementEntry YamlRefs := .align ⟨[("start", 4096)], by decide⟩

end SdkNrf.PartitionManager
