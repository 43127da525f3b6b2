import SdkNrf.PartitionManager.AddressChain

/-!
# Placements are honoured

A partition that is placed by `solve_direction` lands next to the partition that its list names first, or next
to the outermost placed part of the container named first.
-/

namespace SdkNrf.PartitionManager

open Relation

def Direction.opposite : Direction → Direction
  | .before => .after
  | .after => .before

/-- The end of the region that `solve_first_last` looks for in the lists of a keyword. -/
def Direction.edge : Direction → Name
  | .before => "end"
  | .after => "start"

/-- `x` comes before, or after, `y`. -/
def Ordered : Direction → Name → Name → List Name → Prop
  | .before, x, y, l => Precedes l x y
  | .after, x, y, l => Precedes l y x

theorem Ordered.of_sublist {ab : Direction} {x y : Name} {l m : List Name} (h : Ordered ab x y l)
    (hlm : l.Sublist m) : Ordered ab x y m := by
  cases ab <;> exact Precedes.of_sublist h hlm

theorem ordered_insertNextTo (ab : Direction) (x : Name) {anchor : Name} {solution : List Name}
    (h : anchor ∈ solution) : Ordered ab x anchor (insertNextTo ab anchor x solution) := by
  cases ab with
  | before => exact precedes_insertIdx_idxOf x h
  | after => exact precedes_insertIdx_succ_idxOf x h

theorem PlaceRun.placed {reqs : PlainReqs} {subs : List Name} {st st' : SolveState} {x : Name}
    (hrun : PlaceRun reqs subs st st') (hx : x ∈ st.unsolved) (hx' : x ∉ st'.unsolved) :
    ∃ mid ab current anchor, PlaceRun reqs subs st mid ∧ itemIsPlaced reqs ab current x = true ∧
      (current ∈ mid.solution ∨ current ∈ subs) ∧
      anchorOf reqs ab current mid.solution = .ok anchor ∧ Ordered ab x anchor st'.solution := by
  induction hrun using ReflTransGen.head_induction_on with
  | refl => exact absurd hx hx'
  | @head s t hstep hrest ih =>
    cases hstep with
    | @place ab current anchor y hy hitem hcurrent hanchor =>
      by_cases hxy : x = y
      · subst hxy
        have hord := ordered_insertNextTo ab x (mem_of_anchorOf hanchor)
        exact ⟨s, ab, current, anchor, .refl, hitem, hcurrent, hanchor,
          hord.of_sublist (PlaceRun.sublist hrest)⟩
      · obtain ⟨mid, ab', current', anchor', hmid, hplaced⟩ :=
          ih ((List.mem_erase_of_ne hxy).mpr hx)
        exact ⟨mid, ab', current', anchor', .head (.place hy hitem hcurrent hanchor) hmid, hplaced⟩

theorem itemIsPlaced_iff {reqs : PlainReqs} {ab : Direction} {item x : Name} :
    itemIsPlaced reqs ab item x = true ↔ ∃ rest, placementRefs reqs ab x = some (item :: rest) := by
  rw [itemIsPlaced, beq_iff_eq]
  cases placementRefs reqs ab x with
  | none => simp
  | some l =>
    cases l with
    | nil => simp
    | cons a l => simp

variable {solution span : List Name}

theorem indicesOf_eq_ok {is : List Nat} (h : indicesOf solution span = .ok is) :
    is = span.map solution.idxOf ∧ ∀ p ∈ span, p ∈ solution := by
  induction span generalizing is with
  | nil =>
    cases h
    simp
  | cons p ps ih =>
    rw [indicesOf] at h
    split at h
    next hp =>
      simp only [bind_eq_ok, pure_eq_ok] at h
      obtain ⟨js, hjs, rfl⟩ := h
      obtain ⟨rfl, hin⟩ := ih hjs
      refine ⟨rfl, fun q hq => ?_⟩
      rcases List.mem_cons.mp hq with rfl | hq
      · exact hp
      · exact hin q hq
    next => cases h

theorem validateSpans_mem {reqs : PlainReqs} {solution subs : List Name}
    (h : validateSpans reqs solution subs = .ok ()) {c : Name} (hc : c ∈ subs) :
    validateSpan solution c (spanOf reqs c) = .ok () := by
  induction subs with
  | nil => simp at hc
  | cons d subs ih =>
    simp only [validateSpans, bind_eq_ok] at h
    obtain ⟨⟨⟩, hd, h⟩ := h
    rcases List.mem_cons.mp hc with rfl | hc
    · exact hd
    · exact ih h hc

theorem validateSpan_eq_ok {c : Name} (h : validateSpan solution c span = .ok ()) :
    (∀ p ∈ span, p ∈ solution) ∧ consecutive (span.map solution.idxOf) = true := by
  simp only [validateSpan, bind_eq_ok] at h
  obtain ⟨is, his, h⟩ := h
  obtain ⟨rfl, hin⟩ := indicesOf_eq_ok his
  refine ⟨hin, ?_⟩
  by_contra hne
  rw [Bool.not_eq_true] at hne
  simp [hne] at h

/-- A valid span is a segment of the solution. -/
theorem validateSpan_segment {c : Name} (hnd : span.Nodup)
    (h : validateSpan solution c span = .ok ()) :
    ∃ l₁ l l₂, solution = l₁ ++ l ++ l₂ ∧ l.Perm span := by
  obtain ⟨hin, hcons⟩ := validateSpan_eq_ok h
  have hbounds (p : Name) (hp : p ∈ span) :
      (span.map solution.idxOf).foldl min ((span.map solution.idxOf).headD 0) ≤ solution.idxOf p ∧
        solution.idxOf p ≤ (span.map solution.idxOf).foldl max 0 :=
    ⟨(foldl_min_le _ _).2 _ (List.mem_map_of_mem hp), (le_foldl_max _ _).2 _ (List.mem_map_of_mem hp)⟩
  refine exists_segment hnd hin (fun p hp => (hbounds p hp).1) fun p hp => ?_
  have hne : (span.map solution.idxOf).isEmpty = false := by
    rw [List.isEmpty_eq_false_iff]
    exact List.ne_nil_of_mem (List.mem_map_of_mem hp)
  rw [consecutive, hne, Bool.false_or, beq_iff_eq, List.length_map] at hcons
  have := hbounds p hp
  omega

/-- From the first part of a valid span to the last one there are parts only. -/
theorem validateSpan_between {c : Name} (hnd : span.Nodup)
    (h : validateSpan solution c span = .ok ()) {p q : Name} (hp : p ∈ span) (hq : q ∈ span)
    {i : Nat} {x : Name} (hx : solution[i]? = some x) (hpi : solution.idxOf p ≤ i)
    (hiq : i ≤ solution.idxOf q) : x ∈ span := by
  obtain ⟨hin, hcons⟩ := validateSpan_eq_ok h
  have hne : (span.map solution.idxOf).isEmpty = false := by
    rw [List.isEmpty_eq_false_iff]
    exact List.ne_nil_of_mem (List.mem_map_of_mem hp)
  rw [consecutive, hne, Bool.false_or, beq_iff_eq] at hcons
  have hinj : (span.map solution.idxOf).Nodup := by
    refine List.Nodup.map_on ?_ hnd
    intro a ha b _ hab
    exact (List.idxOf_inj (hin a ha)).mp hab
  have hmem := mem_of_between hinj hcons (List.mem_map_of_mem hp) (List.mem_map_of_mem hq) hpi hiq
  obtain ⟨y, hy, rfl⟩ := List.mem_map.mp hmem
  rw [List.getElem?_idxOf (hin y hy), Option.some.injEq] at hx
  exact hx ▸ hy

/-- What comes next to one part of a valid span without being a part comes on the same side of all
parts. In front of the parts, this takes a part that is placed once. -/
theorem ordered_all_parts {c x anchor : Name} {ab : Direction} (hnd : span.Nodup)
    (h : validateSpan solution c span = .ok ()) (hxs : x ∉ span) (ha : anchor ∈ span)
    (honce : ab = .before → solution.count anchor ≤ 1) (hord : Ordered ab x anchor solution)
    {p : Name} (hp : p ∈ span) :
    Ordered ab x p solution := by
  have hin := (validateSpan_eq_ok h).1
  have hpos (q : Name) (hq : q ∈ span) : solution[solution.idxOf q]? = some q :=
    List.getElem?_idxOf (hin q hq)
  cases ab with
  | before =>
    obtain ⟨i, j, hij, hi, hj⟩ := precedes_iff_getElem?.mp hord
    rw [eq_idxOf_of_count_le_one (honce rfl) hj] at hij
    refine precedes_iff_getElem?.mpr ⟨i, solution.idxOf p, ?_, hi, hpos p hp⟩
    by_contra hle
    exact hxs (validateSpan_between hnd h hp ha hi (by omega) (by omega))
  | after =>
    obtain ⟨i, j, hij, hi, hj⟩ := precedes_iff_getElem?.mp hord
    have hanchor : solution.idxOf anchor ≤ i := idxOf_le_of_getElem? hi
    refine precedes_iff_getElem?.mpr ⟨solution.idxOf p, j, ?_, hpos p hp, hj⟩
    by_contra hle
    exact hxs (validateSpan_between hnd h ha hp hj (by omega) (by omega))

section Order

variable {ord : SetOrder Name} {fuel : Nat} {reqs : Reqs YamlRefs} {dp : Name}
  {pre cleaned : PlainReqs} {unsolved : List Name} {r : Resolved} {x y : Name} {ab : Direction}
  {rest : List Name} {w : Waiting}

theorem placementRefs_congr {reqs reqs' : PlainReqs} {x : Name}
    (h : (reqs'.get? x).bind Req.placement = (reqs.get? x).bind Req.placement) (ab : Direction) :
    placementRefs reqs' ab x = placementRefs reqs ab x := by
  rw [placementRefs, placementRefs, h]

/-- A partition that `solve_first_last` does not take is left for `solve_direction`. -/
private theorem mem_solveFirstLast_unsolved {reqs : PlainReqs} {leaves : List Name}
    {st : SolveState} (hx : x ∈ st.unsolved)
    (hfirst : (firstOrLast reqs leaves .after "start").head? ≠ some x)
    (hlast : (firstOrLast reqs leaves .before "end").head? ≠ some x) :
    x ∈ (solveFirstLast reqs leaves st).unsolved := by
  have hmid : x ∈ (solveFirst reqs leaves st).unsolved := by
    rw [solveFirst]
    split
    next => exact hx
    next z rest hz =>
      apply (List.mem_erase_of_ne _).mpr hx
      rintro rfl
      exact hfirst (by rw [hz]; rfl)
  rw [solveFirstLast, solveLast]
  split
  next => exact hmid
  next z rest hz =>
    apply (List.mem_erase_of_ne _).mpr hmid
    rintro rfl
    exact hlast (by rw [hz]; rfl)

private theorem firstOrLast_head_ne {reqs : PlainReqs} (leaves : List Name) {ab : Direction}
    (target : Name) {x : Name} (h : placementRefs reqs ab x = none) :
    (firstOrLast reqs leaves ab target).head? ≠ some x := by
  intro hhead
  have hmem := List.mem_of_mem_head? (Option.mem_def.mpr hhead)
  rw [firstOrLast, List.mem_filter, h] at hmem
  simp at hmem

end Order

def twoAfter (refs : YamlRefs) : Reqs YamlRefs :=
  ⟨[("x", { size := some 100, placement := some ⟨[.after refs], by simp⟩ }),
    ("a", { size := some 100, placement := some ⟨[.after (.str "app")], by decide⟩ }),
    ("app", { region := some "flash_primary" })], by simp⟩

end SdkNrf.PartitionManager
