import SdkNrf.PartitionManager.Regions

/-!
# The gap of a static configuration

The pairs of `get_dynamic_area_start_and_size` are the maximal free ranges that the static partitions leave,
in ascending order, so the area it returns is the only free range there is.
-/

namespace SdkNrf.PartitionManager

variable {R : Type}

/-- The partitions have an address and a size, are not empty, do not overlap and lie between two
addresses. -/
structure PlacedApart (lo hi : Int) (partitions : List (Req R)) : Prop where
  placed : ∀ v ∈ partitions, v.range?.isSome
  laid : Laid lo hi (rangesOf partitions)

/-- A free range between the partitions that no other one exceeds. -/
def FreeGap (lo hi : Int) (partitions : List (Req R)) (p : Int × Int) : Prop :=
  MaximalFree lo hi (rangesOf partitions) p.1 p.2

namespace PlacedApart

variable {lo hi : Int} {partitions : List (Req R)}

theorem gaps_eq (h : PlacedApart lo hi partitions) :
    ∃ gaps, gapsBetween lo hi partitions = .ok gaps ∧ (gaps.Pairwise fun p q => p.2 < q.1) ∧
      ∀ p, p ∈ gaps ↔ FreeGap lo hi partitions p :=
  ⟨_, gapsBetween_eq h.placed, h.laid.boundaryGaps_pairwise, fun _ => h.laid.mem_boundaryGaps_iff⟩

theorem gaps_eq_singleton_iff {gaps : List (Int × Int)} (horder : gaps.Pairwise fun p q => p.2 < q.1)
    (hmem : ∀ p, p ∈ gaps ↔ FreeGap lo hi partitions p) (p : Int × Int) :
    gaps = [p] ↔ FreeGap lo hi partitions p ∧ ∀ q, FreeGap lo hi partitions q → q = p := by
  constructor
  · rintro rfl
    exact ⟨(hmem p).mp (by simp), fun q hq => List.mem_singleton.mp ((hmem q).mpr hq)⟩
  · rintro ⟨hp, hunique⟩
    have hall (q : Int × Int) (hq : q ∈ gaps) : q = p := hunique q ((hmem q).mp hq)
    have hp' := (hmem p).mpr hp
    cases gaps with
    | nil => cases hp'
    | cons q rest =>
      cases rest with
      | nil => rw [hall q (by simp)]
      | cons q' rest =>
        -- A second gap would start behind the first one, but both are `p`.
        have hlt := (List.pairwise_cons.mp horder).1 q' (by simp)
        rw [hall q (by simp), hall q' (by simp)] at hlt
        have := hp.lt
        omega

end PlacedApart

/-- The pairs of ends and starts are the free gaps in ascending order; the only one there is, is
returned, and it is an error if there is none or another one. -/
theorem getDynamicAreaStartAndSize_freeGap {staticConfig : Reqs R} {flashSize : Int} {dp : Name}
    (h : PlacedApart 0 flashSize (properPartitions staticConfig dp)) :
    (∃ gaps, gapsBetween 0 flashSize (properPartitions staticConfig dp) = .ok gaps ∧
      (gaps.Pairwise fun p q => p.2 < q.1) ∧
      ∀ p, p ∈ gaps ↔ FreeGap 0 flashSize (properPartitions staticConfig dp) p) ∧
    (∀ p, FreeGap 0 flashSize (properPartitions staticConfig dp) p →
      (∀ q, FreeGap 0 flashSize (properPartitions staticConfig dp) q → q = p) →
      getDynamicAreaStartAndSize staticConfig flashSize dp = .ok (p.1, p.2 - p.1)) ∧
    ((¬ ∃ p, FreeGap 0 flashSize (properPartitions staticConfig dp) p ∧
      ∀ q, FreeGap 0 flashSize (properPartitions staticConfig dp) q → q = p) →
      getDynamicAreaStartAndSize staticConfig flashSize dp =
        .error (.partitionError .incorrectAmountOfGaps)) := by
  obtain ⟨gaps, hgaps, horder, hmem⟩ := h.gaps_eq
  have hsingle := PlacedApart.gaps_eq_singleton_iff horder hmem
  refine ⟨⟨gaps, hgaps, horder, hmem⟩, fun p hp hunique => ?_, fun hnone => ?_⟩
  · rw [getDynamicAreaStartAndSize, hgaps, (hsingle p).mpr ⟨hp, hunique⟩]
    rfl
  · rw [getDynamicAreaStartAndSize, hgaps]
    have hnot (p : Int × Int) : gaps ≠ [p] := fun heq => hnone ⟨p, (hsingle p).mp heq⟩
    cases gaps with
    | nil => rfl
    | cons p rest =>
      cases rest with
      | nil => exact absurd rfl (hnot p)
      | cons q rest => rfl

/-- Two static partitions around the gap of a third one that has been deleted, and a container over one
of them. -/
def twoStatic : Reqs (List Name) where
  items := [("first", { address := some 0, size := some 10 }),
    ("app", { address := some 20, size := some 10 }),
    ("group", { address := some 0, size := some 10, span := some ["first"] }),
    ("fourth", { address := some 40, size := some 60 })]
  nodupKeys := by decide

theorem twoStatic_freeGap :
    getDynamicAreaStartAndSize twoStatic 100 "app" = .ok (10, 30) ∧
      FreeGap 0 100 (properPartitions twoStatic "app") (10, 40) := by
  have hranges : rangesOf (properPartitions twoStatic "app") = [⟨0, 10⟩, ⟨40, 100⟩] := by decide
  have h : PlacedApart 0 100 (properPartitions twoStatic "app") := by
    refine ⟨by decide, ?_⟩
    rw [hranges]
    exact ⟨by decide, by decide, by decide, by decide⟩
  obtain ⟨⟨gaps, hgaps, -, hmem⟩, hone, -⟩ := getDynamicAreaStartAndSize_freeGap h
  have hpairs : gapsBetween 0 100 (properPartitions twoStatic "app") = .ok [(10, 40)] := by decide
  rw [hpairs, Except.ok.injEq] at hgaps
  subst hgaps
  have hgap := (hmem (10, 40)).mp (by simp)
  exact ⟨hone (10, 40) hgap fun q hq => List.mem_singleton.mp ((hmem q).mpr hq), hgap⟩

end SdkNrf.PartitionManager
