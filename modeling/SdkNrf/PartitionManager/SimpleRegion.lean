import SdkNrf.Framework.Tiling
import SdkNrf.PartitionManager.StaticGap

/-!
# Simple regions

A simple region is filled from one of its sides: first by the static partitions, then by the others,
and what is left becomes the partition of the region.
-/

namespace SdkNrf.PartitionManager

variable {R : Type}

def addressIn (d : Reqs R) (k : Name) : Option Int := (d.get? k).bind Req.address

def sizeIn (d : Reqs R) (k : Name) : Option Int := (d.get? k).bind Req.size

def staticPartitions (staticConf : Reqs R) : List (Req R) := staticConf.items.map Prod.snd

def nonStatic (pmConfig staticConf : Reqs R) : List Name := pmConfig.keys.filter (· ∉ staticConf.keys)

def staticSize (staticConf : Reqs R) : Int :=
  ((rangesOf (staticPartitions staticConf)).map fun r => r.upper - r.lower).sum

def requestedSize (pmConfig staticConf : Reqs R) : Int :=
  ((nonStatic pmConfig staticConf).filterMap (sizeIn pmConfig)).sum

def Packed (strategy : PlacementStrategy) (start size : Int) (partitions : List (Req R)) : Prop :=
  ∃ m, start ≤ m ∧ m ≤ start + size ∧ ∀ x, start ≤ x → x < start + size →
    (Free (rangesOf partitions) x ↔ match strategy with
      | .startToEnd => m ≤ x
      | .endToStart => x < m)

def Filled (start size : Int) (partitions : List (Req R)) : Prop :=
  ∀ x, start ≤ x → x < start + size → ¬ Free (rangesOf partitions) x

/-- The partitions to be placed have sizes that fit into what the static ones leave. -/
structure Fits (pmConfig staticConf : Reqs R) (size : Int) : Prop where
  sized : ∀ k ∈ nonStatic pmConfig staticConf, addressIn pmConfig k = none ∧
    ∃ z, sizeIn pmConfig k = some z ∧ 0 ≤ z
  sum_le : requestedSize pmConfig staticConf ≤ size - staticSize staticConf

/-- The partitions lie in the region, and every address of it belongs to exactly one of them; static ones
are where they were. -/
structure TilesRegion (pmConfig staticConf : Reqs R) (regionName : String) (start size : Int)
    (d : Reqs R) : Prop where
  keys : ∀ k, k ∈ d.keys ↔ k ∈ pmConfig.keys ∨ k ∈ staticConf.keys ∨ k = regionName
  static : ∀ k ∈ staticConf.keys, d.get? k = staticConf.get? k
  sizes : ∀ k ∈ nonStatic pmConfig staticConf, sizeIn d k = sizeIn pmConfig k
  inside : ∀ k ∈ d.keys, ∃ a z, addressIn d k = some a ∧ sizeIn d k = some z ∧
    0 ≤ z ∧ start ≤ a ∧ a + z ≤ start + size
  unique : ∀ x, start ≤ x → x < start + size → ∃! k, InRange (addressIn d) (sizeIn d) k x

/-- The specification of a region: a packed static configuration is accepted, and with it the region is
tiled whenever the sizes fit; one that is not packed is rejected. -/
structure SimpleRegionRight (pmConfig : Reqs R) (start size : Int) (strategy : PlacementStrategy)
    (regionName device : String) (staticConf : Reqs R) : Prop where
  accepted : Packed strategy start size (staticPartitions staticConf) → staticConf.items ≠ [] →
    verifyStaticConf size start strategy staticConf = .ok ()
  tiled : Packed strategy start size (staticPartitions staticConf) → Fits pmConfig staticConf size →
    ∃ d, solveSimpleRegion pmConfig start size strategy regionName device staticConf = .ok d ∧
      TilesRegion pmConfig staticConf regionName start size d
  rejected : ¬ Packed strategy start size (staticPartitions staticConf) →
    ∃ e, verifyStaticConf size start strategy staticConf = .error (.partitionError e)

/-- The static partitions name the region, and nothing else is named like it; or a static partition stands
for what is left, and it leaves nothing. -/
def RegionNamed (pmConfig : Reqs R) (size : Int) (regionName : String) (staticConf : Reqs R) : Prop :=
  (regionName ∉ staticConf.keys → regionName ∉ pmConfig.keys ∧
    ∀ v ∈ staticPartitions staticConf, v.region = some regionName) ∧
  (regionName ∈ staticConf.keys → requestedSize pmConfig staticConf = size - staticSize staticConf ∧
    (requestedSize pmConfig staticConf = 0 ∨ ∀ v ∈ staticPartitions staticConf, v.region = some regionName))

/-- A packed static configuration is used with `end_to_start`, or leaves no gap, and it names the region. -/
def StaticHeeded (pmConfig : Reqs R) (start size : Int) (strategy : PlacementStrategy) (regionName : String)
    (staticConf : Reqs R) : Prop :=
  Packed strategy start size (staticPartitions staticConf) →
    (staticConf.items = [] ∨ strategy = .endToStart ∨ Filled start size (staticPartitions staticConf)) ∧
    (Fits pmConfig staticConf size → RegionNamed pmConfig size regionName staticConf)

theorem exists_gap_of_free {lo hi x : Int} {l : List Range} (h : Ascending hi lo l) (hfree : Free l x)
    (hlo : lo ≤ x) (hhi : x < hi) : ∃ p ∈ gapsFrom hi lo l, p.1 ≤ x ∧ x < p.2 := by
  induction l generalizing lo with
  | nil => exact ⟨(lo, hi), by simp [gapsFrom, hlo.trans_lt hhi], hlo, hhi⟩
  | cons r l ih =>
    by_cases hbefore : x < r.lower
    · exact ⟨(lo, r.lower), by simp [gapsFrom, hlo.trans_lt hbefore], hlo, hbefore⟩
    · have hafter : r.upper ≤ x := by
        by_contra hnot
        exact hfree r (by simp) ⟨not_lt.mp hbefore, not_le.mp hnot⟩
      obtain ⟨p, hp, hx⟩ := ih h.2.2 (fun s hs => hfree s (by simp [hs])) hafter
      exact ⟨p, by simp [gapsFrom, hp], hx⟩

theorem gapsFrom_sum {lo hi : Int} {l : List Range} (h : Ascending hi lo l) :
    ((gapsFrom hi lo l).map fun p => p.2 - p.1).sum + (l.map fun r => r.upper - r.lower).sum = hi - lo := by
  induction l generalizing lo with
  | nil =>
    have hle : lo ≤ hi := h
    rw [gapsFrom]
    split
    · simp
    · simp
      omega
  | cons r l ih =>
    have hrest := ih h.2.2
    have hle := h.1
    rw [gapsFrom, List.map_append, List.sum_append, List.map_cons, List.sum_cons]
    split
    · simp only [List.map_cons, List.map_nil, List.sum_cons, List.sum_nil]
      omega
    · simp only [List.map_nil, List.sum_nil]
      omega

namespace PlacedApart

variable {lo hi : Int} {partitions : List (Req R)} {gaps : List (Int × Int)}

theorem gap_of_free (h : PlacedApart lo hi partitions) {x : Int} (hfree : Free (rangesOf partitions) x)
    (hlo : lo ≤ x) (hhi : x < hi) : ∃ p, FreeGap lo hi partitions p ∧ p.1 ≤ x ∧ x < p.2 := by
  have hfree' : Free (sortedRanges (rangesOf partitions)) x := by
    intro r hr
    exact hfree r ((sortedRanges_perm _).mem_iff.mp hr)
  obtain ⟨p, hp, hx⟩ := exists_gap_of_free h.laid.ascending hfree' hlo hhi
  rw [← h.laid.boundaryGaps_eq] at hp
  exact ⟨p, h.laid.mem_boundaryGaps_iff.mp hp, hx⟩

theorem gaps_sum (h : PlacedApart lo hi partitions)
    (hgaps : gapsBetween lo hi partitions = .ok gaps) :
    (gaps.map fun p => p.2 - p.1).sum + ((rangesOf partitions).map fun r => r.upper - r.lower).sum =
      hi - lo := by
  have heq : gapsBetween lo hi partitions = _ := gapsBetween_eq h.placed
  rw [hgaps, Except.ok.injEq, h.laid.boundaryGaps_eq] at heq
  have hsum := gapsFrom_sum h.laid.ascending
  rw [← heq, ((sortedRanges_perm (rangesOf partitions)).map _).sum_eq] at hsum
  exact hsum

theorem gaps_eq_nil_iff (h : PlacedApart lo hi partitions) (hgaps : gapsBetween lo hi partitions = .ok gaps) :
    gaps = [] ↔ ∀ x, lo ≤ x → x < hi → ¬ Free (rangesOf partitions) x := by
  obtain ⟨gaps', hgaps', -, hmem⟩ := h.gaps_eq
  obtain rfl : gaps' = gaps := Except.ok.inj (hgaps'.symm.trans hgaps)
  constructor
  · rintro rfl x hlo hhi hfree
    obtain ⟨p, hp, -⟩ := h.gap_of_free hfree hlo hhi
    exact absurd ((hmem p).mpr hp) List.not_mem_nil
  · intro hnone
    apply List.eq_nil_iff_forall_not_mem.mpr
    intro p hp
    have hgap := (hmem p).mp hp
    exact hnone p.1 hgap.lower (hgap.lt.trans_le hgap.upper) (hgap.free p.1 le_rfl hgap.lt)

theorem free_iff_of_gaps (h : PlacedApart lo hi partitions) {m : Int}
    (hgaps : gapsBetween lo hi partitions = .ok [(lo, m)]) :
    lo < m ∧ m ≤ hi ∧ ∀ x, lo ≤ x → x < hi → (Free (rangesOf partitions) x ↔ x < m) := by
  obtain ⟨gaps', hgaps', -, hmem⟩ := h.gaps_eq
  obtain rfl : gaps' = [(lo, m)] := Except.ok.inj (hgaps'.symm.trans hgaps)
  have hgap := (hmem (lo, m)).mp (by simp)
  refine ⟨hgap.lt, hgap.upper, fun x hlo hhi => ⟨fun hfree => ?_, fun hx => hgap.free x hlo hx⟩⟩
  obtain ⟨p, hp, hx⟩ := h.gap_of_free hfree hlo hhi
  rw [List.mem_singleton.mp ((hmem p).mpr hp)] at hx
  exact hx.2

theorem gaps_of_free_iff (h : PlacedApart lo hi partitions) {m : Int} (hm : lo ≤ m) (hm' : m ≤ hi)
    (hfree : ∀ x, lo ≤ x → x < hi → (Free (rangesOf partitions) x ↔ x < m)) :
    gapsBetween lo hi partitions = .ok (if lo < m then [(lo, m)] else []) := by
  obtain ⟨gaps, hgaps, horder, hmem⟩ := h.gaps_eq
  rw [hgaps]
  split
  · next hlt =>
    have hall : FreeRange lo hi (rangesOf partitions) lo m :=
      ⟨hlt, le_rfl, hm', fun x hx hx' => (hfree x hx (hx'.trans_le hm')).mpr hx'⟩
    have hle (g h : Int) (hr : FreeRange lo hi (rangesOf partitions) g h) : h ≤ m := by
      have hlast : h - 1 < m := by
        apply (hfree (h - 1) (by have := hr.lower; have := hr.lt; omega) (by have := hr.upper; omega)).mp
        exact hr.free (h - 1) (by have := hr.lt; omega) (by omega)
      omega
    have hgap : FreeGap lo hi partitions (lo, m) :=
      ⟨hall, fun g' h' hr hg hh => ⟨le_antisymm hg hr.lower, le_antisymm (hle g' h' hr) hh⟩⟩
    rw [Except.ok.injEq, gaps_eq_singleton_iff horder hmem]
    refine ⟨hgap, fun q hq => ?_⟩
    have heq := hq.maximal lo m hall hq.lower (hle q.1 q.2 hq.toFreeRange)
    exact Prod.ext heq.1.symm heq.2.symm
  · next hnot =>
    rw [Except.ok.injEq, h.gaps_eq_nil_iff hgaps]
    intro x hlo hhi hx
    have := (hfree x hlo hhi).mp hx
    omega

end PlacedApart

def StaticSide (strategy : PlacementStrategy) (start size total x : Int) : Prop :=
  match strategy with
  | .endToStart => start + size - total ≤ x
  | .startToEnd => x < start + total

def PlacedSide (strategy : PlacementStrategy) (start size reserved requested x : Int) : Prop :=
  match strategy with
  | .endToStart => start + size - reserved - requested ≤ x ∧ x < start + size - reserved
  | .startToEnd => start + reserved ≤ x ∧ x < start + reserved + requested

def RemainderSide (strategy : PlacementStrategy) (start size reserved requested x : Int) : Prop :=
  match strategy with
  | .endToStart => start ≤ x ∧ x < start + size - reserved - requested
  | .startToEnd => start + reserved + requested ≤ x ∧ x < start + size

def lastAddress (start size reserved requested : Int) : PlacementStrategy → Int
  | .endToStart => start + size - reserved - requested
  | .startToEnd => start + reserved + requested

section verifyStaticConf

variable {staticConf : Reqs R} {start size : Int} {strategy : PlacementStrategy}

theorem sizedPartitions_eq (hplaced : ∀ v ∈ staticPartitions staticConf, v.range?.isSome) :
    sizedPartitions staticConf = staticPartitions staticConf := by
  apply List.filter_eq_self.mpr
  intro v hv
  obtain ⟨r, hr⟩ := Option.isSome_iff_exists.mp (hplaced v hv)
  simp [(Req.range?_eq_some.mp hr).2]

variable (h : PlacedApart start (start + size) (staticPartitions staticConf))

include h

theorem verifyStaticConf_endToStart :
    (Packed .endToStart start size (staticPartitions staticConf) →
      verifyStaticConf size start .endToStart staticConf = .ok ()) ∧
    (¬ Packed .endToStart start size (staticPartitions staticConf) →
      verifyStaticConf size start .endToStart staticConf = .error (.partitionError .staticNotPacked)) := by
  have hbounds := h.laid.bounds
  rw [verifyStaticConf, sizedPartitions_eq h.placed]
  constructor
  · rintro ⟨m, hm, hm', hfree⟩
    rw [h.gaps_of_free_iff hm hm' hfree]
    split <;> simp [bind, Except.bind, pure, Except.pure]
  · intro hnot
    obtain ⟨gaps, hgaps, -⟩ := h.gaps_eq
    rw [hgaps]
    cases gaps with
    | nil =>
      refine absurd ⟨start, le_rfl, hbounds, fun x hlo hhi => ?_⟩ hnot
      have hused := (h.gaps_eq_nil_iff hgaps).mp rfl x hlo hhi
      exact ⟨fun hx => absurd hx hused, fun hx => absurd hx (not_lt.mpr hlo)⟩
    | cons gap gaps =>
      have hreject : gaps ≠ [] ∨ gap.1 ≠ start := by
        by_contra hboth
        rw [not_or, not_not, not_not] at hboth
        obtain ⟨rfl, rfl⟩ := hboth
        have hpacked := h.free_iff_of_gaps hgaps
        exact hnot ⟨gap.2, hpacked.1.le, hpacked.2.1, hpacked.2.2⟩
      simp [bind, Except.bind, hreject, throw, throwThe, MonadExceptOf.throw]

theorem verifyStaticConf_startToEnd :
    (Filled start size (staticPartitions staticConf) →
      verifyStaticConf size start .startToEnd staticConf = .ok ()) ∧
    (¬ Filled start size (staticPartitions staticConf) →
      verifyStaticConf size start .startToEnd staticConf = .error (.partitionError .staticNotPacked)) := by
  obtain ⟨gaps, hgaps, -, hmem⟩ := h.gaps_eq
  have hnil := h.gaps_eq_nil_iff hgaps
  rw [verifyStaticConf, sizedPartitions_eq h.placed, hgaps]
  constructor
  · intro hfilled
    rw [hnil.mpr hfilled]
    rfl
  · intro hnot
    cases gaps with
    | nil => exact absurd (hnil.mp rfl) hnot
    | cons gap gaps =>
      -- A gap never starts where the region ends.
      have hgap := (hmem gap).mp (by simp)
      have hreject : gap.1 ≠ start + size := by
        have := hgap.lt
        have := hgap.upper
        omega
      simp [bind, Except.bind, hreject, throw, throwThe, MonadExceptOf.throw]

theorem free_iff_staticSize (hpacked : Packed strategy start size (staticPartitions staticConf))
    (haccepted : staticConf.items = [] ∨ strategy = .endToStart ∨
      Filled start size (staticPartitions staticConf)) {x : Int} (hlo : start ≤ x) (hhi : x < start + size) :
    ¬ Free (rangesOf (staticPartitions staticConf)) x ↔
      StaticSide strategy start size (staticSize staticConf) x := by
  obtain ⟨m, hm, hm', hfree⟩ := hpacked
  cases strategy with
  | endToStart =>
    have hsum := h.gaps_sum (h.gaps_of_free_iff hm hm' hfree)
    have hsize : start + size - staticSize staticConf = m := by
      rw [staticSize]
      split at hsum
      · simp only [List.map_cons, List.map_nil, List.sum_cons, List.sum_nil] at hsum
        omega
      · simp only [List.map_nil, List.sum_nil] at hsum
        omega
    rw [hfree x hlo hhi, StaticSide, hsize, not_lt]
  | startToEnd =>
    rcases haccepted with hnil | hend | hfilled
    · have hempty : staticPartitions staticConf = [] := by rw [staticPartitions, hnil, List.map_nil]
      simp [StaticSide, staticSize, hempty, rangesOf, Free, hlo]
    · cases hend
    · obtain ⟨gaps, hgaps, -⟩ := h.gaps_eq
      have hsum := h.gaps_sum hgaps
      rw [(h.gaps_eq_nil_iff hgaps).mpr hfilled, List.map_nil, List.sum_nil] at hsum
      have hused := hfilled x hlo hhi
      rw [StaticSide, staticSize]
      exact iff_of_true hused (by omega)

end verifyStaticConf

structure PlacedFrom (strategy : PlacementStrategy) (ks : List Name) (a : Int) (d d' : Reqs R) (a' : Int) :
    Prop where
  keys : d'.keys = d.keys
  others : ∀ k ∉ ks, d'.get? k = d.get? k
  sizes : ∀ k, sizeIn d' k = sizeIn d k
  tiles : match strategy with
    | .endToStart => a' = a - (ks.filterMap (sizeIn d)).sum ∧ Tiles (addressIn d') (sizeIn d') ks.reverse a' a
    | .startToEnd => a' = a + (ks.filterMap (sizeIn d)).sum ∧ Tiles (addressIn d') (sizeIn d') ks a a'

theorem placePartitions_spec (strategy : PlacementStrategy) (device : String) {ks : List Name}
    (hnodup : ks.Nodup) {d : Reqs R} (hsized : ∀ k ∈ ks, (sizeIn d k).isSome) (a : Int) :
    ∃ d' a', placePartitions strategy device ks a d = .ok (d', a') ∧ PlacedFrom strategy ks a d d' a' := by
  induction ks generalizing d a with
  | nil =>
    refine ⟨d, a, rfl, rfl, fun _ _ => rfl, fun _ => rfl, ?_⟩
    cases strategy <;> simp [Tiles]
  | cons k ks ih =>
    rw [List.nodup_cons] at hnodup
    obtain ⟨z, hz⟩ := Option.isSome_iff_exists.mp (hsized k (by simp))
    have hsize (a₁ : Int) (k' : Name) : sizeIn (d.modify k (Req.place device a₁)) k' = sizeIn d k' := by
      rw [sizeIn, sizeIn, Dict.get?_modify]
      split
      · cases d.get? k' <;> rfl
      · rfl
    have hsum (a₁ : Int) : ((k :: ks).filterMap (sizeIn d)).sum =
        z + (ks.filterMap (sizeIn (d.modify k (Req.place device a₁)))).sum := by
      rw [List.filterMap_cons_some hz, List.sum_cons, funext (hsize a₁)]
    have hrest (a₁ : Int) (k' : Name) (hk' : k' ∈ ks) :
        (sizeIn (d.modify k (Req.place device a₁)) k').isSome := by
      rw [hsize]
      exact hsized k' (by simp [hk'])
    -- What is stored for `k` stays: the others are not `k`.
    have hstored {a₁ : Int} {d' : Reqs R}
        (hothers : ∀ k' ∉ ks, d'.get? k' = (d.modify k (Req.place device a₁)).get? k') :
        addressIn d' k = some a₁ ∧ sizeIn d' k = some z := by
      obtain ⟨v, hv, hvz⟩ := Option.bind_eq_some_iff.mp hz
      rw [addressIn, sizeIn, hothers k hnodup.1, Dict.get?_modify_self, hv]
      exact ⟨rfl, hvz⟩
    have hothers {a₁ : Int} {d' : Reqs R}
        (h : ∀ k' ∉ ks, d'.get? k' = (d.modify k (Req.place device a₁)).get? k')
        (k' : Name) (hk' : k' ∉ k :: ks) : d'.get? k' = d.get? k' := by
      rw [List.mem_cons, not_or] at hk'
      rw [h k' hk'.2, Dict.get?_modify_of_ne _ _ hk'.1]
    have hread : (d.get? k).bind Req.size = some z := hz
    cases strategy with
    | endToStart =>
      rw [placePartitions, hread]
      dsimp only
      obtain ⟨d', a', hplace, hplaced⟩ := ih hnodup.2 (hrest (a - z)) (a - z)
      have hk := hstored hplaced.others
      refine ⟨d', a', hplace, by rw [hplaced.keys, Dict.keys_modify], hothers hplaced.others,
        fun k' => (hplaced.sizes k').trans (hsize _ k'), ?_, ?_⟩
      · rw [hplaced.tiles.1, hsum (a - z)]
        omega
      · rw [List.reverse_cons, Tiles.append_iff]
        exact ⟨a - z, hplaced.tiles.2, z, hk.1, hk.2, by rw [Tiles]; omega⟩
    | startToEnd =>
      rw [placePartitions, hread]
      dsimp only
      obtain ⟨d', a', hplace, hplaced⟩ := ih hnodup.2 (hrest a) (a + z)
      have hk := hstored hplaced.others
      refine ⟨d', a', hplace, by rw [hplaced.keys, Dict.keys_modify], hothers hplaced.others,
        fun k' => (hplaced.sizes k').trans (hsize _ k'), ?_, ?_⟩
      · rw [hplaced.tiles.1, hsum a]
        omega
      · exact ⟨z, hk.1, hk.2, hplaced.tiles.2⟩

def Between (strategy : PlacementStrategy) (a a' x : Int) : Prop :=
  match strategy with
  | .endToStart => a' ≤ x ∧ x < a
  | .startToEnd => a ≤ x ∧ x < a'

structure Fills (d : Reqs R) (named : Name → Prop) (covered : Int → Prop) : Prop where
  covers : ∀ x, covered x ↔ ∃ k, named k ∧ InRange (addressIn d) (sizeIn d) k x
  unique : ∀ x k k', named k → named k' → InRange (addressIn d) (sizeIn d) k x →
    InRange (addressIn d) (sizeIn d) k' x → k = k'

theorem PlacedFrom.fills {strategy : PlacementStrategy} {ks : List Name} {a a' : Int} {d d' : Reqs R}
    (h : PlacedFrom strategy ks a d d' a')
    (hnn : ∀ k ∈ ks, ∀ z, sizeIn d k = some z → 0 ≤ z) : Fills d' (· ∈ ks) (Between strategy a a') := by
  have hnn' (k : Name) (hk : k ∈ ks) (z : Int) (hz : sizeIn d' k = some z) : 0 ≤ z :=
    hnn k hk z (h.sizes k ▸ hz)
  have htiles := h.tiles
  cases strategy with
  | endToStart =>
    have hnn'' : ∀ k ∈ ks.reverse, ∀ z, sizeIn d' k = some z → 0 ≤ z := by simpa using hnn'
    refine ⟨fun x => by simpa [Between] using htiles.2.inRange_iff hnn'' x, fun x k k' hk hk' hkx hkx' => ?_⟩
    exact htiles.2.inRange_unique hnn'' (by simpa using hk) (by simpa using hk') hkx hkx'
  | startToEnd =>
    exact ⟨htiles.2.inRange_iff hnn', fun x k k' hk hk' => htiles.2.inRange_unique hnn' hk hk'⟩

theorem PlacedFrom.bounds {strategy : PlacementStrategy} {ks : List Name} {a a' : Int} {d d' : Reqs R}
    (h : PlacedFrom strategy ks a d d' a') (hnn : ∀ k ∈ ks, ∀ z, sizeIn d k = some z → 0 ≤ z) {k : Name}
    (hk : k ∈ ks) : ∃ x z, addressIn d' k = some x ∧ sizeIn d' k = some z ∧ 0 ≤ z ∧
      min a a' ≤ x ∧ x + z ≤ max a a' := by
  have hnn' (k : Name) (hk : k ∈ ks) (z : Int) (hz : sizeIn d' k = some z) : 0 ≤ z :=
    hnn k hk z (h.sizes k ▸ hz)
  have htiles := h.tiles
  cases strategy with
  | endToStart =>
    have hnn'' : ∀ k ∈ ks.reverse, ∀ z, sizeIn d' k = some z → 0 ≤ z := by simpa using hnn'
    obtain ⟨x, z, hx, hz, hpos, hlo, hhi⟩ := htiles.2.mem_bounds hnn'' (by simpa using hk)
    exact ⟨x, z, hx, hz, hpos, (min_le_right _ _).trans hlo, hhi.trans (le_max_left _ _)⟩
  | startToEnd =>
    obtain ⟨x, z, hx, hz, hpos, hlo, hhi⟩ := htiles.2.mem_bounds hnn' hk
    exact ⟨x, z, hx, hz, hpos, (min_le_left _ _).trans hlo, hhi.trans (le_max_right _ _)⟩

theorem existsUnique_inRange_iff {d : Reqs R} {p₁ p₂ p₃ : Name → Prop} {q₁ q₂ q₃ : Int → Prop}
    (h₁ : Fills d p₁ q₁) (h₂ : Fills d p₂ q₂) (h₃ : Fills d p₃ q₃)
    (hall : ∀ k ∈ d.keys, p₁ k ∨ p₂ k ∨ p₃ k) (h₁₂ : ∀ k, p₁ k → ¬ p₂ k) (h₁₃ : ∀ k, p₁ k → ¬ p₃ k)
    (h₂₃ : ∀ k, p₂ k → ¬ p₃ k) (x : Int) : (∃! k, InRange (addressIn d) (sizeIn d) k x) ↔
      (q₁ x ∧ ¬ q₂ x ∧ ¬ q₃ x) ∨ (¬ q₁ x ∧ q₂ x ∧ ¬ q₃ x) ∨ (¬ q₁ x ∧ ¬ q₂ x ∧ q₃ x) := by
  have hkind {k : Name} (hk : InRange (addressIn d) (sizeIn d) k x) : p₁ k ∨ p₂ k ∨ p₃ k := by
    apply hall
    obtain ⟨a, z, ha, -⟩ := hk
    rw [addressIn, Option.bind_eq_some_iff] at ha
    obtain ⟨v, hv, -⟩ := ha
    exact Dict.mem_keys_of_get? hv
  constructor
  · rintro ⟨k, hk, hunique⟩
    have hnot {p p' : Name → Prop} {q' : Int → Prop} (h' : Fills d p' q') (hdisjoint : ∀ k, p k → ¬ p' k)
        (hkp : p k) : ¬ q' x := by
      intro hx
      obtain ⟨k', hk', hkx⟩ := (h'.covers x).mp hx
      exact hdisjoint k hkp (hunique k' hkx ▸ hk')
    rcases hkind hk with hp | hp | hp
    · exact Or.inl ⟨(h₁.covers x).mpr ⟨k, hp, hk⟩, hnot h₂ h₁₂ hp, hnot h₃ h₁₃ hp⟩
    · exact Or.inr (Or.inl ⟨hnot h₁ (fun k hk hk' => h₁₂ k hk' hk) hp, (h₂.covers x).mpr ⟨k, hp, hk⟩,
        hnot h₃ h₂₃ hp⟩)
    · exact Or.inr (Or.inr ⟨hnot h₁ (fun k hk hk' => h₁₃ k hk' hk) hp,
        hnot h₂ (fun k hk hk' => h₂₃ k hk' hk) hp, (h₃.covers x).mpr ⟨k, hp, hk⟩⟩)
  · have hone {p : Name → Prop} {q : Int → Prop} (h : Fills d p q) (hx : q x)
        (hothers : ∀ k, InRange (addressIn d) (sizeIn d) k x → p k) :
        ∃! k, InRange (addressIn d) (sizeIn d) k x := by
      obtain ⟨k, hp, hk⟩ := (h.covers x).mp hx
      exact ⟨k, hk, fun k' hk' => h.unique x k' k (hothers k' hk') hp hk' hk⟩
    have hnot {p : Name → Prop} {q : Int → Prop} (h : Fills d p q) (hx : ¬ q x) {k : Name}
        (hk : InRange (addressIn d) (sizeIn d) k x) : ¬ p k := fun hp => hx ((h.covers x).mpr ⟨k, hp, hk⟩)
    rintro (⟨hx₁, hx₂, hx₃⟩ | ⟨hx₁, hx₂, hx₃⟩ | ⟨hx₁, hx₂, hx₃⟩)
    · apply hone h₁ hx₁
      intro k hk
      rcases hkind hk with hp | hp | hp
      · exact hp
      · exact absurd hp (hnot h₂ hx₂ hk)
      · exact absurd hp (hnot h₃ hx₃ hk)
    · apply hone h₂ hx₂
      intro k hk
      rcases hkind hk with hp | hp | hp
      · exact absurd hp (hnot h₁ hx₁ hk)
      · exact hp
      · exact absurd hp (hnot h₃ hx₃ hk)
    · apply hone h₃ hx₃
      intro k hk
      rcases hkind hk with hp | hp | hp
      · exact absurd hp (hnot h₁ hx₁ hk)
      · exact absurd hp (hnot h₂ hx₂ hk)
      · exact hp

theorem reservedSize_spec (regionName : String) {vs : List (Req R)}
    (hplaced : ∀ v ∈ vs, ∃ r, v.range? = some r ∧ r.lower < r.upper) :
    ∃ reserved, reservedSize regionName vs = .ok reserved ∧ 0 ≤ reserved ∧
      reserved ≤ ((rangesOf vs).map fun r => r.upper - r.lower).sum ∧
      (reserved = ((rangesOf vs).map fun r => r.upper - r.lower).sum ↔
        ∀ v ∈ vs, v.region = some regionName) := by
  induction vs with
  | nil => exact ⟨0, rfl, le_rfl, by simp [rangesOf], by simp [rangesOf]⟩
  | cons v vs ih =>
    obtain ⟨reserved, hreserved, hnonneg, hle, hall⟩ := ih fun w hw => hplaced w (by simp [hw])
    obtain ⟨r, hr, hlt⟩ := hplaced v (by simp)
    have hsum : ((rangesOf (v :: vs)).map fun r => r.upper - r.lower).sum =
        (r.upper - r.lower) + ((rangesOf vs).map fun r => r.upper - r.lower).sum := by
      rw [rangesOf, List.filterMap_cons_some hr, List.map_cons, List.sum_cons]
      rfl
    rw [hsum, reservedSize]
    by_cases hregion : v.region = some regionName
    · rw [if_pos hregion, (Req.range?_eq_some.mp hr).2]
      refine ⟨(r.upper - r.lower) + reserved, by dsimp only; rw [hreserved]; rfl, by omega, by omega, ?_⟩
      rw [add_right_inj, hall]
      simp [hregion]
    · rw [if_neg hregion]
      refine ⟨reserved, hreserved, hnonneg, by omega, ⟨fun heq => by omega, fun hboth => ?_⟩⟩
      exact absurd (hboth v (by simp)) hregion

section static

variable {staticConf d : Reqs R} {lo hi : Int}

theorem static_range (h : PlacedApart lo hi (staticPartitions staticConf))
    (hd : ∀ k ∈ staticConf.keys, d.get? k = staticConf.get? k) {k : Name} (hk : k ∈ staticConf.keys) :
    ∃ v r, (k, v) ∈ staticConf.items ∧ v.range? = some r ∧ r ∈ rangesOf (staticPartitions staticConf) ∧
      addressIn d k = some r.lower ∧ sizeIn d k = some (r.upper - r.lower) := by
  obtain ⟨v, hv⟩ := Option.isSome_iff_exists.mp ((Dict.get?_isSome_iff staticConf k).mpr hk)
  have hitem := (Dict.get?_eq_some_iff staticConf k v).mp hv
  have hmem : v ∈ staticPartitions staticConf := List.mem_map_of_mem hitem
  obtain ⟨r, hr⟩ := Option.isSome_iff_exists.mp (h.placed v hmem)
  have hparts := Req.range?_eq_some.mp hr
  refine ⟨v, r, hitem, hr, List.mem_filterMap.mpr ⟨v, hmem, hr⟩, ?_, ?_⟩
  · rw [addressIn, hd k hk, hv]
    exact hparts.1
  · rw [sizeIn, hd k hk, hv]
    exact hparts.2

theorem inRange_iff_contains {k : Name} {r : Range} (ha : addressIn d k = some r.lower)
    (hz : sizeIn d k = some (r.upper - r.lower)) (x : Int) :
    InRange (addressIn d) (sizeIn d) k x ↔ r.Contains x := by
  constructor
  · rintro ⟨a, z, ha', hz', hlo, hhi⟩
    obtain rfl := Option.some.inj (ha'.symm.trans ha)
    obtain rfl := Option.some.inj (hz'.symm.trans hz)
    exact ⟨hlo, by omega⟩
  · rintro ⟨hlo, hhi⟩
    exact ⟨r.lower, r.upper - r.lower, ha, hz, hlo, by omega⟩

theorem static_fills (h : PlacedApart lo hi (staticPartitions staticConf))
    (hd : ∀ k ∈ staticConf.keys, d.get? k = staticConf.get? k) :
    Fills d (· ∈ staticConf.keys) fun x => ¬ Free (rangesOf (staticPartitions staticConf)) x := by
  have hapart := h.laid.apart
  rw [rangesOf, staticPartitions, List.filterMap_map, List.pairwise_filterMap] at hapart
  have : Std.Symm fun e e' : Name × Req R => ∀ r, (Req.range? ∘ Prod.snd) e = some r →
      ∀ r', (Req.range? ∘ Prod.snd) e' = some r' → r.Apart r' :=
    ⟨fun e e' hee' r hr r' hr' => (hee' r' hr' r hr).symm⟩
  refine ⟨fun x => ⟨fun hused => ?_, ?_⟩, fun x k k' hk hk' hkx hkx' => ?_⟩
  · simp only [Free, not_forall, not_not] at hused
    obtain ⟨r, hr, hcontains⟩ := hused
    obtain ⟨v, hv, hvr⟩ := List.mem_filterMap.mp hr
    obtain ⟨e, he, rfl⟩ := List.mem_map.mp hv
    have hk : e.1 ∈ staticConf.keys := List.mem_map_of_mem he
    obtain ⟨v, r', hitem, hr', -, ha, hz⟩ := static_range h hd hk
    have hv : v = e.2 := by
      have hget := (Dict.get?_eq_some_iff staticConf e.1 v).mpr hitem
      rw [(Dict.get?_eq_some_iff staticConf e.1 e.2).mpr he] at hget
      exact (Option.some.inj hget).symm
    obtain rfl : r' = r := Option.some.inj (hr'.symm.trans (hv ▸ hvr))
    exact ⟨e.1, hk, (inRange_iff_contains ha hz x).mpr hcontains⟩
  · rintro ⟨k, hk, hkx⟩ hfree
    obtain ⟨v, r, -, -, hmem, ha, hz⟩ := static_range h hd hk
    exact hfree r hmem ((inRange_iff_contains ha hz x).mp hkx)
  · by_contra hne
    obtain ⟨v, r, hitem, hr, -, ha, hz⟩ := static_range h hd hk
    obtain ⟨v', r', hitem', hr', -, ha', hz'⟩ := static_range h hd hk'
    have hdistinct : (k, v) ≠ (k', v') := fun heq => hne (congrArg Prod.fst heq)
    have hx := (inRange_iff_contains ha hz x).mp hkx
    have hx' := (inRange_iff_contains ha' hz' x).mp hkx'
    rcases hapart.forall hitem hitem' hdistinct r hr r' hr' with hbefore | hafter
    · have := hx.2
      have := hx'.1
      omega
    · have := hx.1
      have := hx'.2
      omega

end static

section solveSimpleRegion

variable {pmConfig staticConf : Reqs R} {start size : Int} {strategy : PlacementStrategy}
  {regionName device : String}

theorem mem_namesToPlace (hplaced : ∀ v ∈ staticPartitions staticConf, v.range?.isSome)
    (hfits : Fits pmConfig staticConf size) (k : Name) :
    k ∈ namesToPlace (pmConfig.update staticConf) ↔ k ∈ nonStatic pmConfig staticConf := by
  rw [namesToPlace, List.mem_filter, Dict.mem_keys_update, Dict.get?_update]
  constructor
  · rintro ⟨hk, hnone⟩
    have hstatic : k ∉ staticConf.keys := by
      intro hk
      obtain ⟨v, hv⟩ := Option.isSome_iff_exists.mp ((Dict.get?_isSome_iff staticConf k).mpr hk)
      have hmem : v ∈ staticPartitions staticConf :=
        List.mem_map_of_mem ((Dict.get?_eq_some_iff staticConf k v).mp hv)
      obtain ⟨r, hr⟩ := Option.isSome_iff_exists.mp (hplaced v hmem)
      simp [hv, (Req.range?_eq_some.mp hr).1] at hnone
    exact List.mem_filter.mpr ⟨hk.resolve_left hstatic, by simpa using hstatic⟩
  · intro hk
    have hk' := List.mem_filter.mp hk
    have hstatic : staticConf.get? k = none := (Dict.get?_eq_none_iff _ _).mpr (by simpa using hk'.2)
    refine ⟨Or.inr hk'.1, ?_⟩
    rw [hstatic, Option.none_or]
    exact Option.isNone_iff_eq_none.mpr (hfits.sized k hk).1

theorem namesToPlace_nodup : (namesToPlace (pmConfig.update staticConf)).Nodup := (Dict.keys_nodup _).filter _

theorem sum_namesToPlace (hplaced : ∀ v ∈ staticPartitions staticConf, v.range?.isSome)
    (hfits : Fits pmConfig staticConf size) :
    ((namesToPlace (pmConfig.update staticConf)).filterMap (sizeIn (pmConfig.update staticConf))).sum =
      requestedSize pmConfig staticConf := by
  have hperm : (namesToPlace (pmConfig.update staticConf)).Perm (nonStatic pmConfig staticConf) :=
    (List.perm_ext_iff_of_nodup namesToPlace_nodup ((Dict.keys_nodup _).filter _)).mpr
      (mem_namesToPlace hplaced hfits)
  rw [(hperm.filterMap _).sum_eq, requestedSize]
  congr 1
  apply List.filterMap_congr
  intro k hk
  have hstatic : staticConf.get? k = none :=
    (Dict.get?_eq_none_iff _ _).mpr (by simpa using (List.mem_filter.mp hk).2)
  rw [sizeIn, sizeIn, Dict.get?_update, hstatic, Option.none_or]

theorem sizeIn_nonStatic {k : Name} (hk : k ∈ nonStatic pmConfig staticConf) :
    sizeIn (pmConfig.update staticConf) k = sizeIn pmConfig k := by
  have hstatic : staticConf.get? k = none :=
    (Dict.get?_eq_none_iff _ _).mpr (by simpa using (List.mem_filter.mp hk).2)
  rw [sizeIn, sizeIn, Dict.get?_update, hstatic, Option.none_or]

theorem solveSimpleRegion_eq {reserved a' : Int} {d' : Reqs R}
    (haccepted : staticConf.items = [] ∨ verifyStaticConf size start strategy staticConf = .ok ())
    (hreserved : reservedSize regionName (staticPartitions staticConf) = .ok reserved)
    (hplace : placePartitions strategy device (namesToPlace (pmConfig.update staticConf))
      (firstAddress start size reserved strategy) (pmConfig.update staticConf) = .ok (d', a')) :
    solveSimpleRegion pmConfig start size strategy regionName device staticConf =
      if regionName ∈ staticConf.keys then .ok d'
      else if regionName ∈ d'.keys then .error (.partitionError (.reservedRegionName regionName))
      else .ok (d'.set regionName (remainderPartition start size a' strategy regionName)) := by
  rw [staticPartitions] at hreserved
  rw [solveSimpleRegion, hreserved]
  rcases haccepted with hnil | haccepted
  · rw [if_pos hnil]
    simp only [bind, Except.bind, hplace]
    rfl
  · rw [haccepted]
    simp only [bind, Except.bind, hplace, ite_self]
    rfl

theorem Fills.congr {d d' : Reqs R} {named : Name → Prop} {covered : Int → Prop} (h : Fills d named covered)
    (hd : ∀ k, named k → d'.get? k = d.get? k) : Fills d' named covered := by
  have hrange (k : Name) (hk : named k) (x : Int) :
      InRange (addressIn d') (sizeIn d') k x ↔ InRange (addressIn d) (sizeIn d) k x := by
    simp only [InRange, addressIn, sizeIn, hd k hk]
  refine ⟨fun x => ?_, fun x k k' hk hk' hkx hkx' => ?_⟩
  · rw [h.covers]
    exact exists_congr fun k => and_congr_right fun hk => (hrange k hk x).symm
  · exact h.unique x k k' hk hk' ((hrange k hk x).mp hkx) ((hrange k' hk' x).mp hkx')

variable {total reserved requested : Int}

variable (start strategy) in

theorem covered_once_iff (hreserved : 0 ≤ reserved) (hle : reserved ≤ total) (hrequested : 0 ≤ requested)
    (hsum : requested ≤ size - total) : (∀ x, start ≤ x → x < start + size →
      (StaticSide strategy start size total x ∧ ¬ PlacedSide strategy start size reserved requested x ∧
        ¬ RemainderSide strategy start size reserved requested x) ∨
      (¬ StaticSide strategy start size total x ∧ PlacedSide strategy start size reserved requested x ∧
        ¬ RemainderSide strategy start size reserved requested x) ∨
      (¬ StaticSide strategy start size total x ∧ ¬ PlacedSide strategy start size reserved requested x ∧
        RemainderSide strategy start size reserved requested x)) ↔ reserved = total := by
  cases strategy with
  | endToStart =>
    simp only [StaticSide, PlacedSide, RemainderSide]
    constructor
    · intro h
      by_contra hne
      have := h (start + size - reserved - 1) (by omega) (by omega)
      omega
    · intro heq x hlo hhi
      omega
  | startToEnd =>
    simp only [StaticSide, PlacedSide, RemainderSide]
    constructor
    · intro h
      by_contra hne
      have := h (start + reserved) (by omega) (by omega)
      omega
    · intro heq x hlo hhi
      omega

variable (start strategy) in

theorem covered_once_iff_full (hreserved : 0 ≤ reserved) (hle : reserved ≤ total) (hrequested : 0 ≤ requested)
    (hsum : requested ≤ size - total) : (∀ x, start ≤ x → x < start + size →
      (StaticSide strategy start size total x ∧ ¬ PlacedSide strategy start size reserved requested x) ∨
      (¬ StaticSide strategy start size total x ∧ PlacedSide strategy start size reserved requested x)) ↔
      requested = size - total ∧ (requested = 0 ∨ reserved = total) := by
  cases strategy with
  | endToStart =>
    simp only [StaticSide, PlacedSide]
    constructor
    · intro h
      have hfull : requested = size - total := by
        by_contra hne
        have := h start le_rfl (by omega)
        omega
      refine ⟨hfull, ?_⟩
      by_contra hne
      have := h (start + size - reserved - 1) (by omega) (by omega)
      omega
    · intro hfull x hlo hhi
      omega
  | startToEnd =>
    simp only [StaticSide, PlacedSide]
    constructor
    · intro h
      have hfull : requested = size - total := by
        by_contra hne
        have := h (start + size - 1) (by omega) (by omega)
        omega
      refine ⟨hfull, ?_⟩
      by_contra hne
      have := h (start + reserved) (by omega) (by omega)
      omega
    · intro hfull x hlo hhi
      omega

structure SettledLayout (pmConfig staticConf : Reqs R) (strategy : PlacementStrategy)
    (start size reserved : Int)
    (d : Reqs R) : Prop where
  keys : ∀ k, k ∈ d.keys ↔ k ∈ staticConf.keys ∨ k ∈ nonStatic pmConfig staticConf
  static : ∀ k ∈ staticConf.keys, d.get? k = staticConf.get? k
  sizes : ∀ k ∈ nonStatic pmConfig staticConf, sizeIn d k = sizeIn pmConfig k
  inside : ∀ k ∈ d.keys, ∃ a z, addressIn d k = some a ∧ sizeIn d k = some z ∧
    0 ≤ z ∧ start ≤ a ∧ a + z ≤ start + size
  statics : Fills d (· ∈ staticConf.keys) fun x => ¬ Free (rangesOf (staticPartitions staticConf)) x
  placed : Fills d (· ∈ nonStatic pmConfig staticConf)
    (PlacedSide strategy start size reserved (requestedSize pmConfig staticConf))

theorem requestedSize_nonneg (hfits : Fits pmConfig staticConf size) :
    0 ≤ requestedSize pmConfig staticConf := by
  apply List.sum_nonneg
  intro z hz
  obtain ⟨k, hk, hz⟩ := List.mem_filterMap.mp hz
  obtain ⟨z', hz', hpos⟩ := (hfits.sized k hk).2
  rw [hz', Option.some.injEq] at hz
  exact hz ▸ hpos

variable (strategy device) in

theorem placePartitions_settled (h : PlacedApart start (start + size) (staticPartitions staticConf))
    (hfits : Fits pmConfig staticConf size) (hreserved : 0 ≤ reserved)
    (hle : reserved ≤ staticSize staticConf) :
    ∃ d a', placePartitions strategy device (namesToPlace (pmConfig.update staticConf))
        (firstAddress start size reserved strategy) (pmConfig.update staticConf) = .ok (d, a') ∧
      SettledLayout pmConfig staticConf strategy start size reserved d ∧
      a' = lastAddress start size reserved (requestedSize pmConfig staticConf) strategy := by
  have hnames := mem_namesToPlace h.placed hfits
  have hsized (k : Name) (hk : k ∈ namesToPlace (pmConfig.update staticConf)) :
      ∃ z, sizeIn (pmConfig.update staticConf) k = some z ∧ 0 ≤ z := by
    have hk' := (hnames k).mp hk
    rw [sizeIn_nonStatic hk']
    exact (hfits.sized k hk').2
  have hnn (k : Name) (hk : k ∈ namesToPlace (pmConfig.update staticConf)) (z : Int)
      (hz : sizeIn (pmConfig.update staticConf) k = some z) : 0 ≤ z := by
    obtain ⟨z', hz', hpos⟩ := hsized k hk
    rw [hz, Option.some.injEq] at hz'
    exact hz' ▸ hpos
  obtain ⟨d, a', hplace, hplaced⟩ := placePartitions_spec strategy device
    (show (namesToPlace (pmConfig.update staticConf)).Nodup from namesToPlace_nodup)
    (fun k hk => Option.isSome_iff_exists.mpr ((hsized k hk).imp fun _ hz => hz.1))
    (firstAddress start size reserved strategy)
  have hsum := sum_namesToPlace h.placed hfits
  have hpos := requestedSize_nonneg hfits
  have hroom := hfits.sum_le
  have hend : a' = lastAddress start size reserved (requestedSize pmConfig staticConf) strategy := by
    have htiles := hplaced.tiles
    cases strategy with
    | endToStart => exact htiles.1.trans (by rw [hsum]; rfl)
    | startToEnd => exact htiles.1.trans (by rw [hsum]; rfl)
  have hstatic (k : Name) (hk : k ∈ staticConf.keys) : d.get? k = staticConf.get? k := by
    have hnot : k ∉ namesToPlace (pmConfig.update staticConf) := by
      rw [hnames, nonStatic, List.mem_filter]
      simp [hk]
    obtain ⟨v, hv⟩ := Option.isSome_iff_exists.mp ((Dict.get?_isSome_iff staticConf k).mpr hk)
    rw [hplaced.others k hnot, Dict.get?_update, hv, Option.some_or]
  have hkeys (k : Name) : k ∈ d.keys ↔ k ∈ staticConf.keys ∨ k ∈ nonStatic pmConfig staticConf := by
    rw [hplaced.keys, Dict.mem_keys_update, nonStatic, List.mem_filter]
    by_cases hk : k ∈ staticConf.keys <;> simp [hk]
  refine ⟨d, a', hplace, ⟨hkeys, hstatic, fun k hk => ?_, fun k hk => ?_, static_fills h hstatic, ?_⟩, hend⟩
  · rw [hplaced.sizes, sizeIn_nonStatic hk]
  · rcases (hkeys k).mp hk with hk | hk
    · obtain ⟨v, r, -, -, hmem, ha, hz⟩ := static_range h hstatic hk
      have := h.laid.proper r hmem
      have := h.laid.inside r hmem
      exact ⟨r.lower, r.upper - r.lower, ha, hz, by omega, by omega, by omega⟩
    · obtain ⟨a, z, ha, hz, hz0, hlo, hhi⟩ := hplaced.bounds hnn ((hnames k).mpr hk)
      refine ⟨a, z, ha, hz, hz0, ?_, ?_⟩
      · rw [hend] at hlo
        cases strategy <;> simp only [firstAddress, lastAddress] at hlo <;> omega
      · rw [hend] at hhi
        cases strategy <;> simp only [firstAddress, lastAddress] at hhi <;> omega
  · have hfills := hplaced.fills hnn
    refine ⟨fun x => ?_, fun x k k' hk hk' => hfills.unique x k k' ((hnames k).mpr hk) ((hnames k').mpr hk')⟩
    have hcovers := hfills.covers x
    simp only [hnames, hend] at hcovers
    rw [← hcovers]
    cases strategy <;> rfl

namespace SettledLayout

variable {d : Reqs R}

theorem nonStatic_disjoint {k : Name} (hk : k ∈ staticConf.keys) : k ∉ nonStatic pmConfig staticConf := by
  simp [nonStatic, hk]

theorem mem_or {k : Name} : k ∈ staticConf.keys ∨ k ∈ nonStatic pmConfig staticConf ↔
    k ∈ pmConfig.keys ∨ k ∈ staticConf.keys := by
  rw [nonStatic, List.mem_filter]
  by_cases hk : k ∈ staticConf.keys <;> simp [hk]

theorem tilesRegion_iff (hd : SettledLayout pmConfig staticConf strategy start size reserved d)
    (hname : regionName ∈ staticConf.keys) :
    TilesRegion pmConfig staticConf regionName start size d ↔ ∀ x, start ≤ x → x < start + size →
      (¬ Free (rangesOf (staticPartitions staticConf)) x ∧
        ¬ PlacedSide strategy start size reserved (requestedSize pmConfig staticConf) x) ∨
      (Free (rangesOf (staticPartitions staticConf)) x ∧
        PlacedSide strategy start size reserved (requestedSize pmConfig staticConf) x) := by
  have hnone : Fills d (fun _ => False) fun _ => False := ⟨fun x => by simp, fun x k k' hk => hk.elim⟩
  have honce (x : Int) := existsUnique_inRange_iff hd.statics hd.placed hnone
    (fun k hk => by simpa using (hd.keys k).mp hk) (fun _ => nonStatic_disjoint) (fun _ _ => not_false)
    (fun _ _ => not_false) x
  simp only [not_not, not_false_eq_true, and_true, and_false, or_false] at honce
  constructor
  · intro htiles x hlo hhi
    exact (honce x).mp (htiles.unique x hlo hhi)
  · intro hcovered
    refine ⟨fun k => ?_, hd.static, hd.sizes, hd.inside, fun x hlo hhi => (honce x).mpr (hcovered x hlo hhi)⟩
    rw [hd.keys, mem_or]
    constructor
    · exact fun hk => hk.imp_right Or.inl
    · rintro (hk | hk | rfl)
      · exact Or.inl hk
      · exact Or.inr hk
      · exact Or.inr hname

theorem tilesRegion_set_iff (hd : SettledLayout pmConfig staticConf strategy start size reserved d)
    (hname : regionName ∉ d.keys) (hnonneg : 0 ≤ reserved)
    (hrequested : 0 ≤ requestedSize pmConfig staticConf)
    (hroom : reserved + requestedSize pmConfig staticConf ≤ size) :
    TilesRegion pmConfig staticConf regionName start size (d.set regionName (remainderPartition start size
      (lastAddress start size reserved (requestedSize pmConfig staticConf) strategy) strategy regionName)) ↔
    ∀ x, start ≤ x → x < start + size →
      (¬ Free (rangesOf (staticPartitions staticConf)) x ∧
        ¬ PlacedSide strategy start size reserved (requestedSize pmConfig staticConf) x ∧
        ¬ RemainderSide strategy start size reserved (requestedSize pmConfig staticConf) x) ∨
      (Free (rangesOf (staticPartitions staticConf)) x ∧
        PlacedSide strategy start size reserved (requestedSize pmConfig staticConf) x ∧
        ¬ RemainderSide strategy start size reserved (requestedSize pmConfig staticConf) x) ∨
      (Free (rangesOf (staticPartitions staticConf)) x ∧
        ¬ PlacedSide strategy start size reserved (requestedSize pmConfig staticConf) x ∧
        RemainderSide strategy start size reserved (requestedSize pmConfig staticConf) x) := by
  set remainder := remainderPartition (R := R) start size
    (lastAddress start size reserved
      (requestedSize pmConfig staticConf) strategy) strategy regionName with hrem
  have hother {k : Name} (hk : k ∈ d.keys) : (d.set regionName remainder).get? k = d.get? k :=
    Dict.get?_set_of_ne _ _ fun heq => hname (heq ▸ hk)
  have hstatic (k : Name) (hk : k ∈ staticConf.keys) := hother ((hd.keys k).mpr (Or.inl hk))
  have hplaced (k : Name) (hk : k ∈ nonStatic pmConfig staticConf) := hother ((hd.keys k).mpr (Or.inr hk))
  -- The remainder starts and ends where its side does.
  obtain ⟨a, z, ha, hz, hz0, hlo, hhi, hside⟩ : ∃ a z, remainder.address = some a ∧ remainder.size = some z ∧
      0 ≤ z ∧ start ≤ a ∧ a + z ≤ start + size ∧ ∀ x, (a ≤ x ∧ x < a + z) ↔
        RemainderSide strategy start size reserved (requestedSize pmConfig staticConf) x := by
    cases strategy with
    | endToStart =>
      refine ⟨start, start + size - reserved - requestedSize pmConfig staticConf - start, rfl, rfl,
        by omega, le_rfl, by omega, fun x => ?_⟩
      rw [RemainderSide]
      omega
    | startToEnd =>
      refine ⟨start + reserved + requestedSize pmConfig staticConf,
        start + size - (start + reserved + requestedSize pmConfig staticConf), rfl, rfl,
        by omega, by omega, by omega, fun x => ?_⟩
      rw [RemainderSide]
      omega
  have haddress : addressIn (d.set regionName remainder) regionName = some a := by
    rw [addressIn, Dict.get?_set_self]
    exact ha
  have hsize : sizeIn (d.set regionName remainder) regionName = some z := by
    rw [sizeIn, Dict.get?_set_self]
    exact hz
  have hfills : Fills (d.set regionName remainder) (· = regionName)
      (RemainderSide strategy start size reserved (requestedSize pmConfig staticConf)) := by
    refine ⟨fun x => ?_, fun x k k' hk hk' _ _ => hk.trans hk'.symm⟩
    rw [← hside]
    constructor
    · intro hx
      exact ⟨regionName, rfl, a, z, haddress, hsize, hx⟩
    · rintro ⟨k, rfl, a', z', ha', hz', hx⟩
      obtain rfl := Option.some.inj (haddress.symm.trans ha')
      obtain rfl := Option.some.inj (hsize.symm.trans hz')
      exact hx
  have hkeys (k : Name) : k ∈ (d.set regionName remainder).keys ↔
      k ∈ staticConf.keys ∨ k ∈ nonStatic pmConfig staticConf ∨ k = regionName := by
    rw [Dict.mem_keys_set, hd.keys]
    tauto
  have honce (x : Int) := existsUnique_inRange_iff (hd.statics.congr hstatic) (hd.placed.congr hplaced) hfills
    (fun k hk => (hkeys k).mp hk) (fun _ => nonStatic_disjoint)
    (fun k hk heq => hname ((hd.keys _).mpr (Or.inl (heq ▸ hk))))
    (fun k hk heq => hname ((hd.keys _).mpr (Or.inr (heq ▸ hk)))) x
  simp only [not_not] at honce
  constructor
  · intro htiles x hlo hhi
    exact (honce x).mp (htiles.unique x hlo hhi)
  · intro hcovered
    refine ⟨fun k => ?_, fun k hk => (hstatic k hk).trans (hd.static k hk), fun k hk => ?_, fun k hk => ?_,
      fun x hlo hhi => (honce x).mpr (hcovered x hlo hhi)⟩
    · rw [hkeys, ← or_assoc, mem_or, or_assoc]
    · rw [sizeIn, hplaced k hk]
      exact hd.sizes k hk
    · by_cases hk' : k = regionName
      · subst hk'
        exact ⟨a, z, haddress, hsize, hz0, hlo, hhi⟩
      · have hmem : k ∈ d.keys := ((Dict.mem_keys_set _ _ _ _).mp hk).resolve_left hk'
        rw [addressIn, sizeIn, hother hmem]
        exact hd.inside k hmem

end SettledLayout

theorem tiled_iff (h : PlacedApart start (start + size) (staticPartitions staticConf))
    (hpacked : Packed strategy start size (staticPartitions staticConf))
    (haccepted : staticConf.items = [] ∨ strategy = .endToStart ∨
      Filled start size (staticPartitions staticConf)) (hfits : Fits pmConfig staticConf size) :
    (∃ d, solveSimpleRegion pmConfig start size strategy regionName device staticConf = .ok d ∧
      TilesRegion pmConfig staticConf regionName start size d) ↔
      RegionNamed pmConfig size regionName staticConf := by
  have hverified : staticConf.items = [] ∨ verifyStaticConf size start strategy staticConf = .ok () := by
    rcases haccepted with hnil | rfl | hfilled
    · exact Or.inl hnil
    · exact Or.inr ((verifyStaticConf_endToStart h).1 hpacked)
    · cases strategy with
      | endToStart => exact Or.inr ((verifyStaticConf_endToStart h).1 hpacked)
      | startToEnd => exact Or.inr ((verifyStaticConf_startToEnd h).1 hfilled)
  have hproper (v : Req R) (hv : v ∈ staticPartitions staticConf) :
      ∃ r, v.range? = some r ∧ r.lower < r.upper := by
    obtain ⟨r, hr⟩ := Option.isSome_iff_exists.mp (h.placed v hv)
    exact ⟨r, hr, h.laid.proper r (List.mem_filterMap.mpr ⟨v, hv, hr⟩)⟩
  obtain ⟨reserved, hreserved, hnonneg, hle, hall⟩ := reservedSize_spec regionName hproper
  obtain ⟨d, a', hplace, hd, rfl⟩ := placePartitions_settled strategy device h hfits
    hnonneg hle
  have hsolve := solveSimpleRegion_eq hverified hreserved hplace
  have hrequested := requestedSize_nonneg hfits
  have hroom := hfits.sum_le
  have hstaticSide {x : Int} (hlo : start ≤ x) (hhi : x < start + size) :=
    free_iff_staticSize h hpacked haccepted hlo hhi
  have hle' : reserved ≤ staticSize staticConf := hle
  by_cases hname : regionName ∈ staticConf.keys
  · have hiff : TilesRegion pmConfig staticConf regionName start size d ↔
        requestedSize pmConfig staticConf = size - staticSize staticConf ∧
          (requestedSize pmConfig staticConf = 0 ∨ reserved = staticSize staticConf) := by
      rw [hd.tilesRegion_iff hname, ← covered_once_iff_full start strategy hnonneg hle'
        hrequested hroom]
      refine forall_congr' fun x => forall_congr' fun hlo => forall_congr' fun hhi => ?_
      rw [← hstaticSide hlo hhi, not_not]
    rw [hsolve, if_pos hname]
    constructor
    · rintro ⟨d', hd', htiles⟩
      obtain rfl := Except.ok.inj hd'
      have hboth := hiff.mp htiles
      exact ⟨fun hnot => absurd hname hnot, fun _ => ⟨hboth.1, hboth.2.imp_right hall.mp⟩⟩
    · intro hnamed
      have hboth := hnamed.2 hname
      exact ⟨d, rfl, hiff.mpr ⟨hboth.1, hboth.2.imp_right hall.mpr⟩⟩
  · have hmem : regionName ∈ d.keys ↔ regionName ∈ pmConfig.keys := by
      rw [hd.keys, SettledLayout.mem_or]
      simp [hname]
    rw [hsolve, if_neg hname]
    by_cases hpm : regionName ∈ d.keys
    · rw [if_pos hpm]
      constructor
      · rintro ⟨d', hd', -⟩
        cases hd'
      · intro hnamed
        exact absurd (hmem.mp hpm) (hnamed.1 hname).1
    · have hiff := hd.tilesRegion_set_iff hpm hnonneg hrequested (by omega)
      have hcovered := covered_once_iff start strategy hnonneg hle' hrequested hroom
      have hsame : TilesRegion pmConfig staticConf regionName start size (d.set regionName
          (remainderPartition start size (lastAddress start size reserved (requestedSize pmConfig staticConf)
            strategy) strategy regionName)) ↔ reserved = staticSize staticConf := by
        rw [hiff, ← hcovered]
        refine forall_congr' fun x => forall_congr' fun hlo => forall_congr' fun hhi => ?_
        rw [← hstaticSide hlo hhi, not_not]
      rw [if_neg hpm]
      constructor
      · rintro ⟨d', hd', htiles⟩
        obtain rfl := Except.ok.inj hd'
        exact ⟨fun _ => ⟨fun hin => hpm (hmem.mpr hin), hall.mp (hsame.mp htiles)⟩, fun hin =>
          absurd hin hname⟩
      · intro hnamed
        exact ⟨_, rfl, hsame.mpr (hall.mpr (hnamed.1 hname).2)⟩

end solveSimpleRegion

/-- Static partitions in the region, not empty and not overlapping, are heeded exactly when they are
used with `end_to_start` or leave no gap, and name the region. -/
theorem simpleRegion_right_iff {pmConfig staticConf : Reqs R} {start size : Int}
    {strategy : PlacementStrategy}
    {regionName device : String} (h : PlacedApart start (start + size) (staticPartitions staticConf)) :
    SimpleRegionRight pmConfig start size strategy regionName device staticConf ↔
      StaticHeeded pmConfig start size strategy regionName staticConf := by
  constructor
  · intro hright hpacked
    have haccepted : staticConf.items = [] ∨ strategy = .endToStart ∨
        Filled start size (staticPartitions staticConf) := by
      by_cases hnil : staticConf.items = []
      · exact Or.inl hnil
      · cases strategy with
        | endToStart => exact Or.inr (Or.inl rfl)
        | startToEnd =>
          by_contra hnot
          rw [not_or, not_or] at hnot
          have hok := hright.accepted hpacked hnil
          rw [(verifyStaticConf_startToEnd h).2 hnot.2.2] at hok
          cases hok
    exact ⟨haccepted, fun hfits => (tiled_iff h hpacked haccepted hfits).mp (hright.tiled hpacked hfits)⟩
  · intro hheeded
    refine ⟨fun hpacked hne => ?_, fun hpacked hfits => ?_, fun hnot => ?_⟩
    · rcases (hheeded hpacked).1 with hnil | hend | hfilled
      · exact absurd hnil hne
      · subst hend
        exact (verifyStaticConf_endToStart h).1 hpacked
      · cases strategy with
        | endToStart => exact (verifyStaticConf_endToStart h).1 hpacked
        | startToEnd => exact (verifyStaticConf_startToEnd h).1 hfilled
    · exact (tiled_iff h hpacked (hheeded hpacked).1 hfits).mpr ((hheeded hpacked).2 hfits)
    · cases strategy with
      | endToStart => exact ⟨_, (verifyStaticConf_endToStart h).2 hnot⟩
      | startToEnd =>
        refine ⟨_, (verifyStaticConf_startToEnd h).2 fun hfilled =>
          hnot ⟨start + size, h.laid.bounds, le_rfl, ?_⟩⟩
        intro x hlo hhi
        exact iff_of_false (hfilled x hlo hhi) (not_le.mpr hhi)

def packedRam : Reqs (List Name) where
  items := [("s1", { address := some 2900, size := some 100, region := some "ram" }),
    ("s2", { address := some 2700, size := some 200, region := some "ram" })]
  nodupKeys := by decide

def unplacedRam : Reqs (List Name) where
  items := [("b", { size := some 100, region := some "ram" }),
    ("c", { size := some 200, region := some "ram" }),
    ("d", { size := some 300, region := some "ram" })]
  nodupKeys := by decide

theorem packedRam_right :
    SimpleRegionRight unplacedRam 2000 1000 .endToStart "ram" "" packedRam ∧
      Packed .endToStart 2000 1000 (staticPartitions packedRam) ∧ Fits unplacedRam packedRam 1000 := by
  have hranges : rangesOf (staticPartitions packedRam) = [⟨2900, 3000⟩, ⟨2700, 2900⟩] := by decide
  have h : PlacedApart 2000 (2000 + 1000) (staticPartitions packedRam) := by
    refine ⟨by decide, ?_⟩
    rw [hranges]
    exact ⟨by decide, by decide, by decide, by decide⟩
  have hnamed : RegionNamed unplacedRam 1000 "ram" packedRam :=
    ⟨fun _ => by decide, fun hin => absurd hin (by decide)⟩
  refine ⟨(simpleRegion_right_iff h).mpr fun _ => ⟨Or.inr (Or.inl rfl), fun _ => hnamed⟩, ?_, ?_⟩
  · refine ⟨2700, by decide, by decide, fun x hlo hhi => ?_⟩
    simp only [hranges, Free, Range.Contains, List.mem_cons, List.not_mem_nil, or_false, forall_eq_or_imp,
      forall_eq]
    omega
  · refine ⟨?_, by decide⟩
    intro k hk
    have hmem : k ∈ ["b", "c", "d"] := hk
    simp only [List.mem_cons, List.not_mem_nil, or_false] at hmem
    rcases hmem with rfl | rfl | rfl
    · exact ⟨rfl, 100, rfl, by decide⟩
    · exact ⟨rfl, 200, rfl, by decide⟩
    · exact ⟨rfl, 300, rfl, by decide⟩

def packedFlash : Reqs (List Name) where
  items := [("s", { address := some 0, size := some 10, region := some "flash" })]
  nodupKeys := by decide

theorem packedFlash_rejected : ¬ SimpleRegionRight unplacedRam 0 1000 .startToEnd "flash" "" packedFlash := by
  intro hright
  have hpacked : Packed .startToEnd 0 1000 (staticPartitions packedFlash) := by
    refine ⟨10, by decide, by decide, fun x hlo hhi => ?_⟩
    have hranges : rangesOf (staticPartitions packedFlash) = [⟨0, 10⟩] := by decide
    simp only [hranges, Free, Range.Contains, List.mem_cons, List.not_mem_nil, or_false, forall_eq]
    omega
  have hrejected : verifyStaticConf 1000 0 .startToEnd packedFlash = .error
    (.partitionError .staticNotPacked) := by
    decide
  rw [hright.accepted hpacked (by decide)] at hrejected
  cases hrejected

end SdkNrf.PartitionManager
