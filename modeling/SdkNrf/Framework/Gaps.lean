import Mathlib

/-!
# Free gaps between ranges

Half-open ranges of integers that do not overlap, and the maximal free ranges between two bounds that they
leave.
-/

namespace SdkNrf

/-- The integers from `lower` up to, but not including, `upper`. -/
structure Range where
  lower : Int
  upper : Int
  deriving DecidableEq, Repr

namespace Range

def Contains (r : Range) (x : Int) : Prop := r.lower ≤ x ∧ x < r.upper

def Apart (r s : Range) : Prop := r.upper ≤ s.lower ∨ s.upper ≤ r.lower

theorem Apart.symm {r s : Range} (h : Apart r s) : Apart s r := Or.symm h

instance (r : Range) (x : Int) : Decidable (r.Contains x) := inferInstanceAs (Decidable (_ ∧ _))

instance (r s : Range) : Decidable (r.Apart s) := inferInstanceAs (Decidable (_ ∨ _))

end Range

structure Laid (lo hi : Int) (l : List Range) : Prop where
  bounds : lo ≤ hi
  proper : ∀ r ∈ l, r.lower < r.upper
  inside : ∀ r ∈ l, lo ≤ r.lower ∧ r.upper ≤ hi
  apart : l.Pairwise Range.Apart

def Free (l : List Range) (x : Int) : Prop := ∀ r ∈ l, ¬ r.Contains x

structure FreeRange (lo hi : Int) (l : List Range) (g h : Int) : Prop where
  lt : g < h
  lower : lo ≤ g
  upper : h ≤ hi
  free : ∀ x, g ≤ x → x < h → Free l x

structure MaximalFree (lo hi : Int) (l : List Range) (g h : Int) : Prop extends FreeRange lo hi l g h where
  maximal : ∀ g' h', FreeRange lo hi l g' h' → g' ≤ g → h ≤ h' → g' = g ∧ h' = h

def sortedDiff (xs ys : List Int) : List Int := (xs.dedup.filter (· ∉ ys)).insertionSort (· ≤ ·)

@[simp] theorem mem_sortedDiff {xs ys : List Int} {x : Int} : x ∈ sortedDiff xs ys ↔ x ∈ xs ∧ x ∉ ys := by
  simp [sortedDiff]

theorem sortedDiff_pairwise (xs ys : List Int) : (sortedDiff xs ys).Pairwise (· < ·) := by
  have hnodup : (sortedDiff xs ys).Nodup :=
    (List.perm_insertionSort _ _).nodup_iff.mpr ((List.nodup_dedup xs).filter _)
  have hle : (sortedDiff xs ys).Pairwise (· ≤ ·) := List.pairwise_insertionSort _ _
  exact (hle.and hnodup).imp fun h => lt_of_le_of_ne h.1 h.2

theorem sortedDiff_eq {xs ys zs : List Int} (hsorted : zs.Pairwise (· < ·))
    (hmem : ∀ x, x ∈ zs ↔ x ∈ xs ∧ x ∉ ys) : sortedDiff xs ys = zs := by
  apply List.Pairwise.eq_of_mem_iff (sortedDiff_pairwise xs ys) hsorted
  simp [hmem]

def boundaryGaps (starts ends : List Int) : List (Int × Int) :=
  (sortedDiff ends starts).zip (sortedDiff starts ends)

def Ascending (hi : Int) : Int → List Range → Prop
  | lo, [] => lo ≤ hi
  | lo, r :: l => lo ≤ r.lower ∧ r.lower < r.upper ∧ Ascending hi r.upper l

namespace Ascending

variable {lo hi : Int} {l : List Range} {r : Range}

theorem le (h : Ascending hi lo l) : lo ≤ hi := by
  induction l generalizing lo with
  | nil => exact h
  | cons r l ih => exact h.1.trans (h.2.1.le.trans (ih h.2.2))

theorem bounds (h : Ascending hi lo l) (hr : r ∈ l) : lo ≤ r.lower ∧ r.lower < r.upper ∧ r.upper ≤ hi := by
  induction l generalizing lo with
  | nil => cases hr
  | cons s l ih =>
    rcases List.mem_cons.mp hr with rfl | hr
    · exact ⟨h.1, h.2.1, h.2.2.le⟩
    · have hrest := ih h.2.2 hr
      exact ⟨h.1.trans (h.2.1.le.trans hrest.1), hrest.2⟩

theorem of_pairwise (hbounds : lo ≤ hi) (hproper : ∀ r ∈ l, r.lower < r.upper)
    (hinside : ∀ r ∈ l, lo ≤ r.lower ∧ r.upper ≤ hi) (horder : l.Pairwise fun r s => r.upper ≤ s.lower) :
    Ascending hi lo l := by
  induction l generalizing lo with
  | nil => exact hbounds
  | cons r l ih =>
    rw [List.pairwise_cons] at horder
    refine ⟨(hinside r (by simp)).1, hproper r (by simp), ih (hinside r (by simp)).2 ?_ ?_ horder.2⟩
    · intro s hs
      exact hproper s (by simp [hs])
    · intro s hs
      exact ⟨horder.1 s hs, (hinside s (by simp [hs])).2⟩

end Ascending

def sortedRanges (l : List Range) : List Range := l.insertionSort fun r s => r.lower ≤ s.lower

theorem sortedRanges_perm (l : List Range) : (sortedRanges l).Perm l := List.perm_insertionSort _ l

theorem Laid.ascending {lo hi : Int} {l : List Range} (h : Laid lo hi l) :
    Ascending hi lo (sortedRanges l) := by
  have hmem (r : Range) (hr : r ∈ sortedRanges l) : r ∈ l := (sortedRanges_perm l).mem_iff.mp hr
  have : Std.Total fun r s : Range => r.lower ≤ s.lower := ⟨fun r s => le_total r.lower s.lower⟩
  have : IsTrans Range fun r s => r.lower ≤ s.lower := ⟨fun _ _ _ => le_trans⟩
  have hsorted : (sortedRanges l).Pairwise fun r s => r.lower ≤ s.lower := List.pairwise_insertionSort _ l
  have hapart : (sortedRanges l).Pairwise Range.Apart :=
    ((sortedRanges_perm l).pairwise_iff Range.Apart.symm).mpr h.apart
  apply Ascending.of_pairwise h.bounds (fun r hr => h.proper r (hmem r hr))
    fun r hr => h.inside r (hmem r hr)
  refine (hsorted.and hapart).imp_of_mem fun {r s} _ hs hrs => ?_
  rcases hrs.2 with hbefore | hafter
  · exact hbefore
  · have := h.proper s (hmem s hs)
    have := hrs.1
    omega

def gapsFrom (hi : Int) : Int → List Range → List (Int × Int)
  | lo, [] => if lo < hi then [(lo, hi)] else []
  | lo, r :: l => (if lo < r.lower then [(lo, r.lower)] else []) ++ gapsFrom hi r.upper l

section gapsFrom

variable {lo hi : Int} {l : List Range}

theorem mem_ite_singleton {p : Prop} [Decidable p] {α : Type} {x a : α} :
    (x ∈ if p then [a] else []) ↔ p ∧ x = a := by
  split <;> simp [*]

theorem gapsFrom_bounds (h : Ascending hi lo l) {p : Int × Int} (hp : p ∈ gapsFrom hi lo l) :
    lo ≤ p.1 ∧ p.1 < p.2 ∧ p.2 ≤ hi := by
  induction l generalizing lo with
  | nil =>
    obtain ⟨hlt, rfl⟩ := mem_ite_singleton.mp hp
    exact ⟨le_rfl, hlt, le_rfl⟩
  | cons r l ih =>
    rcases List.mem_append.mp hp with hp | hp
    · obtain ⟨hlt, rfl⟩ := mem_ite_singleton.mp hp
      exact ⟨le_rfl, hlt, h.2.1.le.trans h.2.2.le⟩
    · have hrest := ih h.2.2 hp
      exact ⟨h.1.trans (h.2.1.le.trans hrest.1), hrest.2⟩

theorem gapsFrom_pairwise (h : Ascending hi lo l) : (gapsFrom hi lo l).Pairwise fun p q => p.2 < q.1 := by
  induction l generalizing lo with
  | nil =>
    rw [gapsFrom]
    split <;> simp
  | cons r l ih =>
    refine List.pairwise_append.mpr ⟨by split <;> simp, ih h.2.2, fun p hp q hq => ?_⟩
    obtain ⟨-, rfl⟩ := mem_ite_singleton.mp hp
    exact h.2.1.trans_le (gapsFrom_bounds h.2.2 hq).1

theorem mem_gapsFrom_fst (h : Ascending hi lo l) (x : Int) : x ∈ (gapsFrom hi lo l).map Prod.fst ↔
    x ∈ lo :: l.map Range.upper ∧ x ∉ hi :: l.map Range.lower := by
  induction l generalizing lo with
  | nil =>
    have hle : lo ≤ hi := h
    by_cases hlt : lo < hi
    · simp [gapsFrom, hlt]
      omega
    · simp [gapsFrom, hlt]
      omega
  | cons r l ih =>
    have hrest := ih h.2.2
    -- What is found beyond `r` is neither its start nor the bound before it.
    have hbeyond (y : Int) (hy : y ∈ r.upper :: l.map Range.upper) : r.lower < y := by
      rcases List.mem_cons.mp hy with rfl | hy
      · exact h.2.1
      · obtain ⟨s, hs, rfl⟩ := List.mem_map.mp hy
        have := h.2.2.bounds hs
        have := h.2.1
        omega
    have hlo : lo ∉ hi :: l.map Range.lower := by
      intro hmem
      have hle := h.1
      have hlt := h.2.1
      rcases List.mem_cons.mp hmem with rfl | hmem
      · have := h.2.2.le
        omega
      · obtain ⟨s, hs, hs'⟩ := List.mem_map.mp hmem
        have := h.2.2.bounds hs
        omega
    rw [gapsFrom, List.map_append, List.mem_append, hrest, List.map_cons, List.map_cons]
    have hfirst : x ∈ (if lo < r.lower then [(lo, r.lower)] else []).map Prod.fst ↔ lo < r.lower ∧
      x = lo := by
      split <;> simp [*]
    rw [hfirst]
    constructor
    · rintro (⟨hlt, rfl⟩ | ⟨hin, hout⟩)
      · refine ⟨List.mem_cons_self, fun hmem => ?_⟩
        simp only [List.mem_cons, not_or] at hmem hlo
        rcases hmem with hmem | hmem | hmem
        · exact hlo.1 hmem
        · omega
        · exact hlo.2 hmem
      · refine ⟨List.mem_cons_of_mem _ hin, fun hmem => ?_⟩
        have := hbeyond x hin
        simp only [List.mem_cons, not_or] at hmem hout
        rcases hmem with hmem | hmem | hmem
        · exact hout.1 hmem
        · omega
        · exact hout.2 hmem
    · rintro ⟨hin, hout⟩
      simp only [List.mem_cons, not_or] at hout
      rcases List.mem_cons.mp hin with rfl | hin
      · exact Or.inl ⟨lt_of_le_of_ne h.1 hout.2.1, rfl⟩
      · exact Or.inr ⟨hin, by simp [hout]⟩

theorem mem_gapsFrom_snd (h : Ascending hi lo l) (x : Int) : x ∈ (gapsFrom hi lo l).map Prod.snd ↔
    x ∈ hi :: l.map Range.lower ∧ x ∉ lo :: l.map Range.upper := by
  induction l generalizing lo with
  | nil =>
    have hle : lo ≤ hi := h
    by_cases hlt : lo < hi
    · simp [gapsFrom, hlt]
      omega
    · simp [gapsFrom, hlt]
      omega
  | cons r l ih =>
    have hrest := ih h.2.2
    have hbeyond (y : Int) (hy : y ∈ hi :: l.map Range.lower) : lo < y := by
      have hle := h.1
      have hlt := h.2.1
      rcases List.mem_cons.mp hy with rfl | hy
      · have := h.2.2.le
        omega
      · obtain ⟨s, hs, rfl⟩ := List.mem_map.mp hy
        have := h.2.2.bounds hs
        omega
    have hlower : r.lower ∉ r.upper :: l.map Range.upper := by
      intro hmem
      have hlt := h.2.1
      rcases List.mem_cons.mp hmem with heq | hmem
      · omega
      · obtain ⟨s, hs, hs'⟩ := List.mem_map.mp hmem
        have := h.2.2.bounds hs
        omega
    rw [gapsFrom, List.map_append, List.mem_append, hrest, List.map_cons, List.map_cons]
    have hfirst : x ∈ (if lo < r.lower then [(lo, r.lower)] else []).map Prod.snd ↔
        lo < r.lower ∧ x = r.lower := by
      split <;> simp [*]
    rw [hfirst]
    constructor
    · rintro (⟨hlt, rfl⟩ | ⟨hin, hout⟩)
      · refine ⟨by simp, fun hmem => ?_⟩
        rcases List.mem_cons.mp hmem with hmem | hmem
        · omega
        · exact hlower hmem
      · have := hbeyond x hin
        refine ⟨by rw [List.mem_cons] at hin ⊢; simp only [List.mem_cons]; tauto, fun hmem => ?_⟩
        rcases List.mem_cons.mp hmem with hmem | hmem
        · omega
        · exact hout hmem
    · rintro ⟨hin, hout⟩
      rw [List.mem_cons, not_or] at hout
      simp only [List.mem_cons] at hin
      rcases hin with rfl | rfl | hin
      · exact Or.inr ⟨by simp, hout.2⟩
      · exact Or.inl ⟨lt_of_le_of_ne h.1 (Ne.symm hout.1), rfl⟩
      · exact Or.inr ⟨by simp [hin], hout.2⟩

variable {g h' : Int} {r : Range}

theorem FreeRange.tail (hr : r.upper ≤ g) (hfree : FreeRange lo hi (r :: l) g h') :
    FreeRange r.upper hi l g h' :=
  ⟨hfree.lt, hr, hfree.upper, fun x hx hx' s hs => hfree.free x hx hx' s (by simp [hs])⟩

theorem FreeRange.cons (hlo : lo ≤ r.upper) (hfree : FreeRange r.upper hi l g h') :
    FreeRange lo hi (r :: l) g h' := by
  refine ⟨hfree.lt, hlo.trans hfree.lower, hfree.upper, fun x hx hx' s hs => ?_⟩
  rcases List.mem_cons.mp hs with rfl | hs
  · intro hcontains
    have := hfree.lower
    have := hcontains.2
    omega
  · exact hfree.free x hx hx' s hs

/-- A free range ends before a range starts, or starts after it has ended. -/
theorem FreeRange.split (hr : r.lower < r.upper) (hfree : FreeRange lo hi (r :: l) g h') :
    h' ≤ r.lower ∨ r.upper ≤ g := by
  by_contra hmeet
  rw [not_or, not_le, not_le] at hmeet
  have hlt := hfree.lt
  apply hfree.free (max g r.lower) (le_max_left _ _) (max_lt hlt hmeet.1) r (by simp)
  exact ⟨le_max_right _ _, max_lt hmeet.2 hr⟩

theorem FreeRange.first (h : Ascending hi lo (r :: l)) (hlt : lo < r.lower) :
    FreeRange lo hi (r :: l) lo r.lower := by
  refine ⟨hlt, le_rfl, h.2.1.le.trans h.2.2.le, fun x _ hx s hs hcontains => ?_⟩
  rcases List.mem_cons.mp hs with rfl | hs
  · have := hcontains.1
    omega
  · have := h.2.2.bounds hs
    have := hcontains.1
    have := h.2.1
    omega

theorem mem_gapsFrom_iff (h : Ascending hi lo l) :
    (g, h') ∈ gapsFrom hi lo l ↔ MaximalFree lo hi l g h' := by
  induction l generalizing lo with
  | nil =>
    rw [gapsFrom, mem_ite_singleton, Prod.mk.injEq]
    constructor
    · rintro ⟨hlt, rfl, rfl⟩
      refine ⟨⟨hlt, le_rfl, le_rfl, fun _ _ _ _ hr => absurd hr List.not_mem_nil⟩,
        fun g' h'' hfree hg hh => ?_⟩
      exact ⟨le_antisymm hg hfree.lower, le_antisymm hfree.upper hh⟩
    · intro hmax
      have hlt := lt_of_le_of_lt hmax.lower (hmax.lt.trans_le hmax.upper)
      have hall : FreeRange lo hi [] lo hi :=
        ⟨hlt, le_rfl, le_rfl, fun _ _ _ _ hr => absurd hr List.not_mem_nil⟩
      have heq := hmax.maximal lo hi hall hmax.lower hmax.upper
      exact ⟨hlt, heq.1.symm, heq.2.symm⟩
  | cons r l ih =>
    rw [gapsFrom, List.mem_append, mem_ite_singleton, ih h.2.2, Prod.mk.injEq]
    have hlo : lo ≤ r.upper := h.1.trans h.2.1.le
    constructor
    · rintro (⟨hlt, rfl, rfl⟩ | hmax)
      · refine ⟨FreeRange.first h hlt, fun g' h'' hfree hg hh => ?_⟩
        rcases hfree.split h.2.1 with hbefore | hafter
        · exact ⟨le_antisymm hg hfree.lower, le_antisymm hbefore hh⟩
        · have := h.2.1
          omega
      · refine ⟨hmax.toFreeRange.cons hlo, fun g' h'' hfree hg hh => ?_⟩
        rcases hfree.split h.2.1 with hbefore | hafter
        · have := hmax.lower
          have := hmax.lt
          have := h.2.1
          omega
        · exact hmax.maximal g' h'' (hfree.tail hafter) hg hh
    · intro hmax
      rcases hmax.toFreeRange.split h.2.1 with hbefore | hafter
      · have hlt : lo < r.lower := lt_of_le_of_lt hmax.lower (hmax.lt.trans_le hbefore)
        have heq := hmax.maximal lo r.lower (FreeRange.first h hlt) hmax.lower hbefore
        exact Or.inl ⟨hlt, heq.1.symm, heq.2.symm⟩
      · refine Or.inr ⟨hmax.toFreeRange.tail hafter, fun g' h'' hfree hg hh => ?_⟩
        exact hmax.maximal g' h'' (hfree.cons hlo) hg hh

end gapsFrom

namespace Laid

variable {lo hi : Int} {l : List Range}

/-- The gaps between the boundaries of the ranges and of what lies between them. -/
theorem boundaryGaps_eq (h : Laid lo hi l) :
    boundaryGaps (hi :: l.map Range.lower) (lo :: l.map Range.upper) = gapsFrom hi lo (sortedRanges l) := by
  have hasc := h.ascending
  have hlower (x : Int) : x ∈ (sortedRanges l).map Range.lower ↔ x ∈ l.map Range.lower :=
    ((sortedRanges_perm l).map _).mem_iff
  have hupper (x : Int) : x ∈ (sortedRanges l).map Range.upper ↔ x ∈ l.map Range.upper :=
    ((sortedRanges_perm l).map _).mem_iff
  have hlt {p : Int × Int} (hp : p ∈ gapsFrom hi lo (sortedRanges l)) : p.1 < p.2 :=
    (gapsFrom_bounds hasc hp).2.1
  have hpairs := gapsFrom_pairwise hasc
  have hfst : sortedDiff (lo :: l.map Range.upper) (hi :: l.map Range.lower) =
      (gapsFrom hi lo (sortedRanges l)).map Prod.fst := by
    apply sortedDiff_eq
    · rw [List.pairwise_map]
      exact hpairs.imp_of_mem fun hp _ hpq => (hlt hp).trans hpq
    · intro x
      simp only [mem_gapsFrom_fst hasc, List.mem_cons, hlower, hupper]
  have hsnd : sortedDiff (hi :: l.map Range.lower) (lo :: l.map Range.upper) =
      (gapsFrom hi lo (sortedRanges l)).map Prod.snd := by
    apply sortedDiff_eq
    · rw [List.pairwise_map]
      exact hpairs.imp_of_mem fun _ hq hpq => hpq.trans (hlt hq)
    · intro x
      simp only [mem_gapsFrom_snd hasc, List.mem_cons, hlower, hupper]
  rw [boundaryGaps, hfst, hsnd, List.zip_map']
  simp

theorem mem_boundaryGaps_iff (h : Laid lo hi l) {g h' : Int} :
    (g, h') ∈ boundaryGaps (hi :: l.map Range.lower) (lo :: l.map Range.upper) ↔
        MaximalFree lo hi l g h' := by
  have hfree (x : Int) : Free (sortedRanges l) x ↔ Free l x := by
    simp only [Free, (sortedRanges_perm l).mem_iff]
  have hrange (g h' : Int) : FreeRange lo hi (sortedRanges l) g h' ↔ FreeRange lo hi l g h' :=
    ⟨fun hr => ⟨hr.lt, hr.lower, hr.upper, fun x hx hx' => (hfree x).mp (hr.free x hx hx')⟩,
      fun hr => ⟨hr.lt, hr.lower, hr.upper, fun x hx hx' => (hfree x).mpr (hr.free x hx hx')⟩⟩
  rw [h.boundaryGaps_eq, mem_gapsFrom_iff h.ascending]
  constructor
  · intro hmax
    exact ⟨(hrange g h').mp hmax.toFreeRange, fun g' h'' hr => hmax.maximal g' h'' ((hrange g' h'').mpr hr)⟩
  · intro hmax
    exact ⟨(hrange g h').mpr hmax.toFreeRange, fun g' h'' hr => hmax.maximal g' h'' ((hrange g' h'').mp hr)⟩

theorem boundaryGaps_pairwise (h : Laid lo hi l) :
    (boundaryGaps (hi :: l.map Range.lower) (lo :: l.map Range.upper)).Pairwise fun p q => p.2 < q.1 :=
  h.boundaryGaps_eq ▸ gapsFrom_pairwise h.ascending

end Laid

end SdkNrf
