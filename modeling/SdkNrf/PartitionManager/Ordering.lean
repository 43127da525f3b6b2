import SdkNrf.PartitionManager.Flattening

/-!
# What the solver does with the partitions

The partitions to be placed are the leaves with a `before` or an `after` list.
-/

namespace SdkNrf.PartitionManager

open Relation

theorem placementRefs_eq_unspanned (reqs : PlainReqs) (ab : Direction) (x : Name) :
    placementRefs reqs ab x = ((unspanned? reqs x).bind Req.placement).bind (·.refs? ab) := by
  rw [placementRefs, unspanned?]
  cases reqs.get? x <;> rfl

section Images

variable {ord : SetOrder Name} {reqs : PlainReqs} {leaves subs : List Name}

/-- The parts of the containers among the candidates, as the loop over the sorted containers
collects them. -/
private theorem foldl_images (unsorted l result : List Name)
    (hspan : ∀ c, (spanOf reqs c).Nodup) (hnd : result.Nodup) (hsub : ∀ p ∈ result, p ∈ unsorted) :
    let out := l.foldl (fun result sub =>
      (spanOf reqs sub).filter (fun p => p ∈ unsorted ∧ p ∉ result) ++ result) result
    out.Nodup ∧ ∀ p ∈ out, p ∈ unsorted := by
  induction l generalizing result with
  | nil => exact ⟨hnd, hsub⟩
  | cons sub l ih =>
    rw [List.foldl_cons]
    apply ih
    · rw [List.nodup_append]
      refine ⟨(hspan sub).filter _, hnd, ?_⟩
      intro a ha b hb hab
      simp only [List.mem_filter, decide_eq_true_eq] at ha
      exact ha.2.2 (hab ▸ hb)
    · intro p hp
      rcases List.mem_append.mp hp with hp | hp
      · simp only [List.mem_filter, decide_eq_true_eq] at hp
        exact hp.2.1
      · exact hsub p hp

theorem getImagesWhichNeedResolving_nodup (hspan : ∀ c, (spanOf reqs c).Nodup) :
    (getImagesWhichNeedResolving ord reqs leaves subs).Nodup := by
  rw [getImagesWhichNeedResolving]
  have h := foldl_images (ord.toList (leaves.filter (hasPlacementRefs reqs)))
    (subs.insertionSort fun a b => (spanOf reqs a).length ≤ (spanOf reqs b).length) [] hspan
    List.nodup_nil (by simp)
  rw [List.nodup_append]
  refine ⟨(ord.nodup _).filter _, h.1, ?_⟩
  intro a ha b hb hab
  simp only [List.mem_filter, decide_eq_true_eq] at ha
  exact ha.2 (hab ▸ hb)

private theorem foldl_images_subset {unsorted : List Name} (l result : List Name)
    (hsub : ∀ p ∈ result, p ∈ unsorted) :
    ∀ p ∈ l.foldl (fun result sub =>
      (spanOf reqs sub).filter (fun p => p ∈ unsorted ∧ p ∉ result) ++ result) result,
      p ∈ unsorted := by
  induction l generalizing result with
  | nil => exact hsub
  | cons sub l ih =>
    rw [List.foldl_cons]
    apply ih
    intro p hp
    rcases List.mem_append.mp hp with hp | hp
    · simp only [List.mem_filter, decide_eq_true_eq] at hp
      exact hp.2.1
    · exact hsub p hp

theorem mem_getImagesWhichNeedResolving {p : Name} :
    p ∈ getImagesWhichNeedResolving ord reqs leaves subs ↔
      p ∈ leaves ∧ hasPlacementRefs reqs p = true := by
  have hunsorted : p ∈ ord.toList (leaves.filter (hasPlacementRefs reqs)) ↔
      p ∈ leaves ∧ hasPlacementRefs reqs p = true := by rw [ord.mem, List.mem_filter]
  rw [← hunsorted, getImagesWhichNeedResolving]
  rw [List.mem_append, List.mem_filter]
  constructor
  · rintro (h | h)
    · exact h.1
    · exact foldl_images_subset _ [] (by simp) p h
  · intro h
    by_cases hp : p ∈ (subs.insertionSort fun a b =>
        (spanOf reqs a).length ≤ (spanOf reqs b).length).foldl (fun result sub =>
      (spanOf reqs sub).filter (fun p => p ∈ ord.toList (leaves.filter (hasPlacementRefs reqs)) ∧
        p ∉ result) ++ result) []
    · exact Or.inr hp
    · exact Or.inl ⟨h, decide_eq_true hp⟩

end Images

/-- Placements of some partitions of `unsolved` are replaced by `{'before': [q]}`, where `q` is
another partition of `unsolved`; nothing else changes. -/
structure Rewrites (unsolved : List Name) (reqs reqs' : PlainReqs) : Prop where
  keys : reqs'.keys = reqs.keys
  entry : ∀ p, reqs'.get? p = reqs.get? p ∨ p ∈ unsolved ∧ ∃ v, ∃ q ∈ unsolved,
    reqs.get? p = some v ∧
      reqs'.get? p = some { v with placement := some (Placement.beforeOnly q) }

namespace Rewrites

variable {unsolved : List Name} {reqs reqs₁ reqs₂ : PlainReqs}

theorem refl (reqs : PlainReqs) : Rewrites unsolved reqs reqs := ⟨rfl, fun _ => Or.inl rfl⟩

theorem trans (h : Rewrites unsolved reqs reqs₁) (h' : Rewrites unsolved reqs₁ reqs₂) :
    Rewrites unsolved reqs reqs₂ where
  keys := h'.keys.trans h.keys
  entry := by
    intro p
    rcases h'.entry p with he' | ⟨hp, v, q, hq, hv, he'⟩
    · rw [he']
      exact h.entry p
    · right
      rcases h.entry p with he | ⟨-, w, r, -, hw, he⟩
      · exact ⟨hp, v, q, hq, he ▸ hv, he'⟩
      · refine ⟨hp, w, q, hq, hw, ?_⟩
        rw [he, Option.some.injEq] at hv
        rw [he', ← hv]

theorem modify {p q : Name} (hp : p ∈ unsolved) (hq : q ∈ unsolved) :
    Rewrites unsolved reqs
      (reqs.modify p fun v => { v with placement := some (Placement.beforeOnly q) }) where
  keys := Dict.keys_modify _ _ _
  entry := by
    intro k
    by_cases hk : k = p
    · subst hk
      rw [Dict.get?_modify_self]
      cases hv : reqs.get? k with
      | none => exact Or.inl rfl
      | some v => exact Or.inr ⟨hp, v, q, hq, rfl, rfl⟩
    · exact Or.inl (Dict.get?_modify_of_ne _ _ hk)

theorem foldl {α : Type} {f : PlainReqs → α → PlainReqs} {l : List α}
    (hf : ∀ a ∈ l, ∀ r, Rewrites unsolved r (f r a)) : Rewrites unsolved reqs (l.foldl f reqs) := by
  induction l generalizing reqs with
  | nil => exact refl _
  | cons a l ih =>
    rw [List.foldl_cons]
    exact (hf a (List.mem_cons_self ..) reqs).trans
      (ih fun b hb => hf b (List.mem_cons_of_mem _ hb))

theorem spanOf (h : Rewrites unsolved reqs reqs₁) (q : Name) :
    spanOf reqs₁ q = spanOf reqs q := by
  rw [PartitionManager.spanOf, PartitionManager.spanOf]
  rcases h.entry q with he | ⟨-, v, r, -, hv, he⟩
  · rw [he]
  · rw [he, hv]
    rfl

theorem placementRefs (h : Rewrites unsolved reqs reqs₁) (p : Name) :
    (∀ ab, placementRefs reqs₁ ab p = placementRefs reqs ab p) ∨
      p ∈ unsolved ∧ PartitionManager.placementRefs reqs₁ .after p = none ∧
        ∃ q ∈ unsolved, PartitionManager.placementRefs reqs₁ .before p = some [q] := by
  rcases h.entry p with he | ⟨hp, v, q, hq, hv, he⟩
  · left
    intro ab
    rw [PartitionManager.placementRefs, PartitionManager.placementRefs, he]
  · refine Or.inr ⟨hp, ?_, q, hq, ?_⟩ <;> rw [PartitionManager.placementRefs, he] <;> rfl

end Rewrites

private theorem placementBuckets_subset {reqs : PlainReqs} {unsolved all : List Name}
    {buckets : Dict (Option (Placement (List Name))) (List Name)}
    (hall : ∀ p ∈ unsolved, p ∈ all) (hb : ∀ b ∈ buckets.items, ∀ p ∈ b.2, p ∈ all) :
    ∀ b ∈ (unsolved.foldl (fun buckets p =>
      buckets.set ((reqs.get? p).bind Req.placement)
        ((buckets.get? ((reqs.get? p).bind Req.placement)).getD [] ++ [p])) buckets).items,
      ∀ p ∈ b.2, p ∈ all := by
  induction unsolved generalizing buckets with
  | nil => exact hb
  | cons x unsolved ih =>
    rw [List.foldl_cons]
    apply ih (fun p hp => hall p (List.mem_cons_of_mem _ hp))
    rintro ⟨key, ps⟩ hmem p hp
    rw [← Dict.get?_eq_some_iff, Dict.get?_set] at hmem
    split at hmem
    · cases hmem
      rcases List.mem_append.mp hp with hp | hp
      · cases hg : buckets.get? ((reqs.get? x).bind Req.placement) with
        | none => simp [hg] at hp
        | some qs =>
          rw [hg] at hp
          exact hb _ ((Dict.get?_eq_some_iff _ _ _).mp hg) p hp
      · rw [List.mem_singleton] at hp
        exact hall p (hp ▸ List.mem_cons_self ..)
    · exact hb _ ((Dict.get?_eq_some_iff _ _ _).mp hmem) p hp

theorem chainPartitions_rewrites {unsolved partitions : List Name} (reqs : PlainReqs)
    (h : ∀ p ∈ partitions, p ∈ unsolved) :
    Rewrites unsolved reqs (chainPartitions reqs partitions) := by
  apply Rewrites.foldl
  rintro ⟨p, q⟩ hpq r
  obtain ⟨hp, hq⟩ := List.of_mem_zip hpq
  exact Rewrites.modify (h p hp) (h q (List.mem_of_mem_tail hq))

theorem resolveAmbiguousRequirements_rewrites (reqs : PlainReqs) (unsolved : List Name) :
    Rewrites unsolved reqs (resolveAmbiguousRequirements reqs unsolved) := by
  apply Rewrites.foldl
  intro bucket hbucket r
  split
  · apply chainPartitions_rewrites
    intro p hp
    rw [List.mem_insertionSort] at hp
    exact placementBuckets_subset (fun _ h => h) (by simp [Dict.empty]) bucket hbucket p hp
  · exact Rewrites.refl r

variable {ab : Direction} {solution : List Name}

theorem anchorOf_eq_ok {reqs : PlainReqs} {current anchor : Name}
    (h : anchorOf reqs ab current solution = .ok anchor) :
    (current ∈ solution ∧ anchor = current) ∨
      (current ∉ solution ∧ anchor ∈ solution ∧ anchor ∈ spanOf reqs current) := by
  unfold anchorOf at h
  split at h
  next hmem => exact Or.inl ⟨hmem, (Except.ok.inj h).symm⟩
  next hmem =>
    refine Or.inr ⟨hmem, ?_⟩
    cases ab with
    | before =>
      cases hfind : solution.find? (· ∈ spanOf reqs current) with
      | none => simp [hfind] at h
      | some n =>
        simp only [hfind, Except.ok.injEq] at h
        subst h
        exact ⟨List.mem_of_find?_eq_some hfind, by simpa using List.find?_some hfind⟩
    | after =>
      cases hfind : solution.reverse.find? (· ∈ spanOf reqs current) with
      | none => simp [hfind] at h
      | some n =>
        simp only [hfind, Except.ok.injEq] at h
        subst h
        exact ⟨List.mem_reverse.mp (List.mem_of_find?_eq_some hfind),
          by simpa using List.find?_some hfind⟩

theorem mem_of_anchorOf {reqs : PlainReqs} {current anchor : Name}
    (h : anchorOf reqs ab current solution = .ok anchor) :
    anchor ∈ solution := by
  obtain ⟨hmem, rfl⟩ | ⟨-, hmem, -⟩ := anchorOf_eq_ok h <;> exact hmem

theorem insertNextTo_perm (ab : Direction) {anchor : Name} (x : Name) (h : anchor ∈ solution) :
    (insertNextTo ab anchor x solution).Perm (x :: solution) := by
  have hlt := List.idxOf_lt_length_of_mem h
  cases ab with
  | before => exact List.perm_insertIdx _ _ hlt.le
  | after => exact List.perm_insertIdx _ _ hlt

theorem sublist_insertNextTo (ab : Direction) (anchor x : Name) (solution : List Name) :
    solution.Sublist (insertNextTo ab anchor x solution) := by
  cases ab <;> exact List.sublist_insertIdx _ _ _

/-- One round of `solve_direction` that places a partition. -/
inductive PlaceStep (reqs : PlainReqs) (subs : List Name) : SolveState → SolveState → Prop
  | place {st : SolveState} {ab : Direction} {current anchor x : Name} (hx : x ∈ st.unsolved)
      (hitem : itemIsPlaced reqs ab current x = true)
      (hcurrent : current ∈ st.solution ∨ current ∈ subs)
      (hanchor : anchorOf reqs ab current st.solution = .ok anchor) :
      PlaceStep reqs subs st
        { unsolved := st.unsolved.erase x, solution := insertNextTo ab anchor x st.solution }

abbrev PlaceRun (reqs : PlainReqs) (subs : List Name) := ReflTransGen (PlaceStep reqs subs)

variable {st st' : SolveState}

theorem solveDirectionLoop_run {reqs : PlainReqs} {subs : List Name} {n : Nat} {pool : List Name}
    {current : Name} (hpool : ∀ p ∈ current :: pool, p ∈ st.solution ∨ p ∈ subs)
    (h : solveDirectionLoop reqs ab n pool current st = .ok st') : PlaceRun reqs subs st st' := by
  induction n generalizing pool current st with
  | zero => cases h
  | succ n ih =>
    have hcurrent := hpool current (List.mem_cons_self ..)
    unfold solveDirectionLoop at h
    split at h
    · cases h
      exact .refl
    split at h
    next x rest hdepends =>
      obtain ⟨hx, hitem⟩ := List.mem_filter.mp (hdepends ▸ List.mem_cons_self .. :
        x ∈ st.unsolved.filter (itemIsPlaced reqs ab current))
      obtain ⟨anchor, hanchor, h⟩ := bind_eq_ok.mp h
      refine .head (.place hx hitem hcurrent hanchor) (ih ?_ h)
      intro p hp
      have hperm := insertNextTo_perm ab x (mem_of_anchorOf hanchor)
      rcases List.mem_cons.mp hp with rfl | hp
      · exact Or.inl (hperm.mem_iff.mpr (List.mem_cons_self ..))
      · rcases hpool p (List.mem_cons_of_mem _ hp) with hp | hp
        · exact Or.inl (hperm.mem_iff.mpr (List.mem_cons_of_mem _ hp))
        · exact Or.inr hp
    next =>
      split at h
      · cases h
        exact .refl
      next next pool =>
        exact ih (fun p hp => hpool p (List.mem_cons_of_mem _ hp)) h

theorem solveDirection_run {reqs : PlainReqs} {subs : List Name}
    (h : solveDirection reqs subs ab st = .ok st') :
    PlaceRun reqs subs st st' := by
  rw [solveDirection] at h
  split at h
  · cases h
  next current pool hpool =>
    refine solveDirectionLoop_run (fun p hp => ?_) h
    rw [← hpool, List.mem_append] at hp
    exact hp

/-- When the loop `while unsolved` ends, everything has been placed one by one. -/
theorem solveUnsolved_run {reqs : PlainReqs} {subs : List Name} {fuel : Nat}
    (h : solveUnsolved reqs subs fuel st = .ok st') :
    PlaceRun reqs subs st st' ∧ st'.unsolved = [] := by
  induction fuel generalizing st with
  | zero =>
    rw [solveUnsolved] at h
    split at h
    next hnil =>
      cases h
      exact ⟨.refl, hnil⟩
    next => cases h
  | succ fuel ih =>
    rw [solveUnsolved] at h
    split at h
    next hnil =>
      cases h
      exact ⟨.refl, hnil⟩
    next =>
      simp only [bind_eq_ok] at h
      obtain ⟨st₁, h₁, st₂, h₂, h⟩ := h
      obtain ⟨hrun, hnil⟩ := ih h
      exact ⟨((solveDirection_run h₁).trans (solveDirection_run h₂)).trans hrun, hnil⟩

def SolveState.all (st : SolveState) : List Name := st.solution ++ st.unsolved

theorem PlaceStep.perm {reqs : PlainReqs} {subs : List Name} (h : PlaceStep reqs subs st st') :
    st'.all.Perm st.all := by
  cases h with
  | @place ab current anchor x hx _ _ hanchor =>
    have hperm := insertNextTo_perm ab x (mem_of_anchorOf hanchor)
    calc insertNextTo ab anchor x st.solution ++ st.unsolved.erase x
        _ |>.Perm ((x :: st.solution) ++ st.unsolved.erase x) := hperm.append_right _
        _ |>.Perm (st.solution ++ x :: st.unsolved.erase x) := List.perm_middle.symm
        _ |>.Perm (st.solution ++ st.unsolved) := (List.perm_cons_erase hx).symm.append_left _

theorem PlaceRun.perm {reqs : PlainReqs} {subs : List Name} (h : PlaceRun reqs subs st st') :
    st'.all.Perm st.all := by
  induction h with
  | refl => exact .refl _
  | tail _ hstep ih => exact hstep.perm.trans ih

theorem PlaceRun.sublist {reqs : PlainReqs} {subs : List Name} (h : PlaceRun reqs subs st st') :
    st.solution.Sublist st'.solution := by
  induction h with
  | refl => exact .refl _
  | tail _ hstep ih =>
    cases hstep with
    | place => exact ih.trans (sublist_insertNextTo _ _ _ _)

/-- What `resolve` hands to the loop `while unsolved`. -/
structure Waiting where
  reqs : PlainReqs
  subs : List Name
  state : SolveState

/-- `resolve` up to the loop `while unsolved`. -/
def atWhile (ord : SetOrder Name) (fuel : Nat) (dp : Name) (pre : PlainReqs) : Py Waiting := do
  let leaves := leafKeys pre
  let reqs ← solveInside (containerKeys pre) leaves pre
  let (reqs, subs) ← cleanSubPartitions ord fuel leaves (containerKeys pre) reqs
  let unsolved := getImagesWhichNeedResolving ord reqs leaves subs
  let reqs := resolveAmbiguousRequirements reqs unsolved
  return { reqs, subs, state := solveFirstLast reqs leaves { unsolved, solution := [dp] } }

/-- When `resolve` returns, its solution consists of what was in the state that the loop started
from. -/
theorem resolvePrepared_waiting {ord : SetOrder Name} {fuel : Nat} {dp : Name} {pre : PlainReqs}
    {r : Resolved} {w : Waiting} (hw : atWhile ord fuel dp pre = .ok w)
    (h : resolvePrepared ord fuel dp pre = .ok r) :
    w.reqs = r.reqs ∧ w.subs = r.subs ∧ r.solution.Perm w.state.all := by
  simp only [resolvePrepared, bind_eq_ok, pure_eq_ok] at h
  obtain ⟨reqs₁, h₁, ⟨reqs₂, subs⟩, h₂, st, hst, -, -, rfl⟩ := h
  simp only [atWhile, h₁, h₂, bind_eq_ok, pure_eq_ok, Except.ok.injEq, exists_eq_left'] at hw
  subst hw
  obtain ⟨hrun, hnil⟩ := solveUnsolved_run hst
  refine ⟨rfl, rfl, ?_⟩
  have hperm := hrun.perm
  rwa [SolveState.all, hnil, List.append_nil] at hperm

/-- A successful run of `resolve` on the prepared requirements `pre`: the requirements `cleaned`
after the container phase and the partitions `unsolved` it found to place. -/
structure SolvedFrom (ord : SetOrder Name) (dp : Name) (pre : PlainReqs) (r : Resolved)
    (cleaned : PlainReqs) (unsolved : List Name) : Prop where
  clean : Cleaned pre cleaned r.subs
  images : unsolved = getImagesWhichNeedResolving ord cleaned (leafKeys pre) r.subs
  reqs_eq : r.reqs = resolveAmbiguousRequirements cleaned unsolved
  run : PlaceRun r.reqs r.subs
    (solveFirstLast r.reqs (leafKeys pre) { unsolved, solution := [dp] })
    { unsolved := [], solution := r.solution }
  valid : validateSpans r.reqs r.solution r.subs = .ok ()

theorem resolvePrepared_eq_ok {ord : SetOrder Name} {fuel : Nat} {dp : Name} {pre : PlainReqs}
    {r : Resolved} (h : resolvePrepared ord fuel dp pre = .ok r) :
    ∃ cleaned unsolved, SolvedFrom ord dp pre r cleaned unsolved := by
  simp only [resolvePrepared, bind_eq_ok, pure_eq_ok] at h
  obtain ⟨reqs₁, h₁, ⟨reqs₂, subs⟩, h₂, st, hst, ⟨⟩, hvalid, rfl⟩ := h
  obtain ⟨hrun, hnil⟩ := solveUnsolved_run hst
  refine ⟨reqs₂, _, cleaned_of_ok h₁ h₂, rfl, rfl, ?_, hvalid⟩
  have hst' : st = { unsolved := [], solution := st.solution } := by rw [← hnil]
  rw [← hst']
  exact hrun

namespace SolvedFrom

variable {ord : SetOrder Name} {dp : Name} {pre cleaned : PlainReqs} {r : Resolved}
  {unsolved : List Name}

theorem rewrites (h : SolvedFrom ord dp pre r cleaned unsolved) :
    Rewrites unsolved cleaned r.reqs :=
  h.reqs_eq ▸ resolveAmbiguousRequirements_rewrites cleaned unsolved

theorem keys (h : SolvedFrom ord dp pre r cleaned unsolved) : r.reqs.keys = pre.keys :=
  h.rewrites.keys.trans h.clean.keys

theorem placementRefs_cleaned (h : SolvedFrom ord dp pre r cleaned unsolved) (ab : Direction)
    (x : Name) : placementRefs cleaned ab x = placementRefs pre ab x := by
  rw [placementRefs_eq_unspanned, h.clean.unspanned, ← placementRefs_eq_unspanned]

variable {x : Name}

theorem mem_unsolved (h : SolvedFrom ord dp pre r cleaned unsolved) :
    x ∈ unsolved ↔ x ∈ leafKeys pre ∧ hasPlacementRefs pre x = true := by
  rw [h.images, mem_getImagesWhichNeedResolving, hasPlacementRefs, hasPlacementRefs,
    h.placementRefs_cleaned, h.placementRefs_cleaned]

theorem mem_unsolved_of_refs (h : SolvedFrom ord dp pre r cleaned unsolved) (ab : Direction)
    (hx : x ∈ leafKeys pre) (hrefs : (placementRefs r.reqs ab x).isSome) :
    x ∈ unsolved := by
  rcases h.rewrites.placementRefs x with hsame | ⟨hmem, -⟩
  · rw [hsame, h.placementRefs_cleaned] at hrefs
    rw [h.mem_unsolved]
    refine ⟨hx, ?_⟩
    cases ab <;> simp [hasPlacementRefs, hrefs]
  · exact hmem

theorem mem_unsolved_of_firstOrLast (h : SolvedFrom ord dp pre r cleaned unsolved)
    {ab : Direction} {target x : Name}
    (hx : x ∈ firstOrLast r.reqs (leafKeys pre) ab target) : x ∈ unsolved := by
  rw [firstOrLast, List.mem_filter] at hx
  refine h.mem_unsolved_of_refs ab hx.1 ?_
  cases hrefs : placementRefs r.reqs ab x with
  | none => simp [hrefs] at hx
  | some l => rfl

private theorem mem_all_of_placed {leaves : List Name} {st st' : SolveState} {y : Name}
    (hy : y ∈ leaves) (hunsolved : st'.unsolved = st.unsolved.erase y)
    (hsolution : ∀ z ∈ st'.solution, z = y ∨ z ∈ st.solution) (hx : x ∈ st'.all) :
    x ∈ st.all ∨ x ∈ leaves := by
  rw [SolveState.all, List.mem_append, hunsolved] at hx
  rw [SolveState.all, List.mem_append]
  rcases hx with hx | hx
  · rcases hsolution x hx with rfl | hx
    · exact Or.inr hy
    · exact Or.inl (Or.inl hx)
  · exact Or.inl (Or.inr (List.mem_of_mem_erase hx))

theorem mem_solveFirst_all {reqs : PlainReqs} {leaves : List Name} {st : SolveState}
    (hx : x ∈ (solveFirst reqs leaves st).all) : x ∈ st.all ∨ x ∈ leaves := by
  rw [solveFirst] at hx
  split at hx
  next => exact Or.inl hx
  next y rest hy =>
    have hmem : y ∈ firstOrLast reqs leaves .after "start" := hy ▸ List.mem_cons_self ..
    exact mem_all_of_placed (List.mem_filter.mp hmem).1 rfl (fun z hz => List.mem_cons.mp hz) hx

theorem mem_solveLast_all {reqs : PlainReqs} {leaves : List Name} {st : SolveState}
    (hx : x ∈ (solveLast reqs leaves st).all) : x ∈ st.all ∨ x ∈ leaves := by
  rw [solveLast] at hx
  split at hx
  next => exact Or.inl hx
  next y rest hy =>
    have hmem : y ∈ firstOrLast reqs leaves .before "end" := hy ▸ List.mem_cons_self ..
    exact mem_all_of_placed (List.mem_filter.mp hmem).1 rfl (fun z hz => by simpa [or_comm] using hz) hx

theorem mem_all (h : SolvedFrom ord dp pre r cleaned unsolved) {st : SolveState}
    (hrun : PlaceRun r.reqs r.subs (solveFirstLast r.reqs (leafKeys pre) { unsolved, solution := [dp] }) st)
    (hx : x ∈ st.all) : x = dp ∨ x ∈ leafKeys pre := by
  rw [hrun.perm.mem_iff] at hx
  rcases mem_solveLast_all hx with hx | hx
  · rcases mem_solveFirst_all hx with hx | hx
    · rcases List.mem_cons.mp hx with rfl | hx
      · exact Or.inl rfl
      · exact Or.inr (h.mem_unsolved.mp hx).1
    · exact Or.inr hx
  · exact Or.inr hx

theorem sublist_solveFirstLast (reqs : PlainReqs) (leaves : List Name) (st : SolveState) :
    st.solution.Sublist (solveFirstLast reqs leaves st).solution := by
  have hfirst : st.solution.Sublist (solveFirst reqs leaves st).solution := by
    rw [solveFirst]
    split
    · exact .refl _
    · exact List.sublist_cons_self _ _
  rw [solveFirstLast, solveLast]
  split
  · exact hfirst
  · exact hfirst.trans (List.sublist_append_left _ _)

theorem dynamic_mem (h : SolvedFrom ord dp pre r cleaned unsolved) : dp ∈ r.solution :=
  ((sublist_solveFirstLast r.reqs (leafKeys pre) { unsolved, solution := [dp] }).trans
    (PlaceRun.sublist h.run)).subset (List.mem_singleton_self _)

theorem mem_solution (h : SolvedFrom ord dp pre r cleaned unsolved) (hx : x ∈ r.solution) :
    x = dp ∨ x ∈ leafKeys pre :=
  h.mem_all h.run (List.mem_append_left _ hx)

end SolvedFrom

/-- The configuration asks for no partition to be placed more than once: the dynamic partition
has no placement, no partition asks for both ends of the region, and no container lists a part
twice. -/
structure PlacedOnce (pre : PlainReqs) (dp : Name) : Prop where
  dynamic : hasPlacementRefs pre dp = false
  ends : ∀ x ∈ leafKeys pre, ¬ ("start" ∈ (placementRefs pre .after x).getD [] ∧
    "end" ∈ (placementRefs pre .before x).getD [])
  parts : ∀ c ∈ containerKeys pre, (partsOf pre c).Nodup

instance (pre : PlainReqs) (dp : Name) : Decidable (PlacedOnce pre dp) :=
  decidable_of_iff (hasPlacementRefs pre dp = false ∧
    (∀ x ∈ leafKeys pre, ¬ ("start" ∈ (placementRefs pre .after x).getD [] ∧
      "end" ∈ (placementRefs pre .before x).getD [])) ∧
    ∀ c ∈ containerKeys pre, (partsOf pre c).Nodup)
    ⟨fun h => ⟨h.1, h.2.1, h.2.2⟩, fun h => ⟨h.dynamic, h.ends, h.parts⟩⟩

theorem PlacedOnce.partsOf_nodup {pre : PlainReqs} {dp : Name} (h : PlacedOnce pre dp) (c : Name) :
    (partsOf pre c).Nodup := by
  by_cases hc : isContainer pre c = true
  · exact h.parts c (mem_containerKeys.mpr hc)
  · rw [partsOf, spanOf_eq_nil_of_leaf (by simpa using hc), List.nil_append]
    exact (leafKeys_nodup pre).filter _

namespace SolvedFrom

variable {ord : SetOrder Name} {dp : Name} {pre cleaned : PlainReqs} {r : Resolved}
  {unsolved : List Name}

theorem solveFirst_perm (h : SolvedFrom ord dp pre r cleaned unsolved) :
    (solveFirst r.reqs (leafKeys pre) { unsolved, solution := [dp] }).all.Perm (dp :: unsolved) := by
  rw [solveFirst]
  split
  next => exact .refl _
  next x rest hx =>
    have hmem := h.mem_unsolved_of_firstOrLast (hx ▸ List.mem_cons_self .. :
      x ∈ firstOrLast r.reqs (leafKeys pre) .after "start")
    calc x :: dp :: unsolved.erase x
        _ |>.Perm (dp :: x :: unsolved.erase x) := .swap _ _ _
        _ |>.Perm (dp :: unsolved) := (List.perm_cons_erase hmem).symm.cons _

theorem mem_solveFirst_unsolved (h : SolvedFrom ord dp pre r cleaned unsolved)
    (honce : PlacedOnce pre dp) {x : Name}
    (hx : x ∈ firstOrLast r.reqs (leafKeys pre) .before "end") :
    x ∈ (solveFirst r.reqs (leafKeys pre) { unsolved, solution := [dp] }).unsolved := by
  have hmem := h.mem_unsolved_of_firstOrLast hx
  rw [solveFirst]
  split
  next => exact hmem
  next y rest hy =>
    have hy' : y ∈ firstOrLast r.reqs (leafKeys pre) .after "start" := hy ▸ List.mem_cons_self ..
    apply (List.mem_erase_of_ne _).mpr hmem
    rintro rfl
    rw [firstOrLast, List.mem_filter] at hx hy'
    rcases h.rewrites.placementRefs x with hsame | ⟨-, hnone, -⟩
    · apply honce.ends x hx.1
      rw [hsame, h.placementRefs_cleaned] at hx hy'
      exact ⟨by simpa using hy'.2, by simpa using hx.2⟩
    · simp [hnone] at hy'

theorem solveFirstLast_perm (h : SolvedFrom ord dp pre r cleaned unsolved)
    (honce : PlacedOnce pre dp) :
    (solveFirstLast r.reqs (leafKeys pre) { unsolved, solution := [dp] }).all.Perm
      (dp :: unsolved) := by
  have hfirst := h.solveFirst_perm
  rw [solveFirstLast, solveLast]
  split
  next => exact hfirst
  next x rest hx =>
    have hmem := h.mem_solveFirst_unsolved honce (hx ▸ List.mem_cons_self ..)
    refine List.Perm.trans ?_ hfirst
    set st := solveFirst r.reqs (leafKeys pre) { unsolved, solution := [dp] }
    rw [SolveState.all, SolveState.all, List.append_assoc]
    exact (List.perm_cons_erase hmem).symm.append_left _

theorem solution_perm (h : SolvedFrom ord dp pre r cleaned unsolved) (honce : PlacedOnce pre dp) :
    r.solution.Perm (dp :: unsolved) := by
  have hperm := h.run.perm.trans (h.solveFirstLast_perm honce)
  rwa [SolveState.all, List.append_nil] at hperm

theorem solution_nodup (h : SolvedFrom ord dp pre r cleaned unsolved) (honce : PlacedOnce pre dp) :
    r.solution.Nodup := by
  rw [(h.solution_perm honce).nodup_iff, List.nodup_cons]
  constructor
  · rw [h.mem_unsolved, honce.dynamic]
    simp
  · rw [h.images]
    exact getImagesWhichNeedResolving_nodup fun c => h.clean.nodup c (Or.inl (honce.partsOf_nodup c))

end SolvedFrom

end SdkNrf.PartitionManager
