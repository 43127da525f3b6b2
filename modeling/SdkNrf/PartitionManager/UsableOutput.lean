import SdkNrf.PartitionManager.Regions
import SdkNrf.PartitionManager.SizeSharing
import SdkNrf.PartitionManager.SpanBackup
import SdkNrf.PartitionManager.ZeroSize

/-!
# What the output can be used for

The files that are generated from the result read the address and the size of every partition.
-/

namespace SdkNrf.PartitionManager

open Relation

def Usable {R : Type} (reqs : Reqs R) (k : Name) : Prop :=
  ((reqs.get? k).bind Req.address).isSome ∧ ((reqs.get? k).bind Req.size).isSome

def AllUsable {R : Type} (reqs : Reqs R) : Prop := ∀ k ∈ reqs.keys, Usable reqs k

inductive Vacant (pre : PlainReqs) : Name → Prop
  | mk {c : Name} (hc : isContainer pre c = true) (h : ∀ p ∈ partsOf pre c, Vacant pre p) :
    Vacant pre c

section Resolved

variable {ord : SetOrder Name} {fuel : Nat} {dp : Name} {pre cleaned : PlainReqs} {r : Resolved}
  {unsolved : List Name}

theorem mem_subs_iff (h : resolvePrepared ord fuel dp pre = .ok r) (c : Name) :
    c ∈ r.subs ↔ isContainer pre c = true ∧ ¬ Vacant pre c := by
  simp only [resolvePrepared, bind_eq_ok, pure_eq_ok] at h
  obtain ⟨reqs₁, h₁, ⟨reqs₂, subs⟩, h₂, st, -, ⟨⟩, -, rfl⟩ := h
  obtain ⟨-, -, -, hspan⟩ := solveInside_spec (fun c hc => mem_containerKeys.mp hc) h₁
  simp only [cleanSubPartitions, bind_eq_ok, pure_eq_ok, Prod.mk.injEq] at h₂
  obtain ⟨flat, -, rfl, rfl⟩ := h₂
  have hin : ∀ c ∈ containerKeys pre, isContainer pre c = true := fun c hc => mem_containerKeys.mp hc
  set del := keysToDelete reqs₁ (containerKeys pre) ((containerKeys pre).length + 1) [] with hdel
  have hvacant : ∀ d ∈ del, Vacant pre d :=
    keysToDelete_forall _ (fun d hd => absurd hd List.not_mem_nil) fun c hc hparts =>
      .mk (hin c hc) fun p hp => hparts p (by rwa [hspan])
  have hoccupied : ∀ c ∈ containerKeys pre, c ∉ del → ∃ p ∈ spanOf reqs₁ c, p ∉ del :=
    keysToDelete_occupied List.nodup_nil (by simp) (by simp)
  have hdeleted (d : Name) (hd : Vacant pre d) : d ∈ del := by
    induction hd with
    | mk hc _ ih =>
      by_contra hleft
      obtain ⟨p, hp, hpleft⟩ := hoccupied _ (mem_containerKeys.mpr hc) hleft
      rw [hspan] at hp
      exact hpleft (ih p hp)
  rw [List.mem_filter, mem_containerKeys, decide_eq_true_eq]
  exact and_congr_right fun _ => not_congr ⟨hvacant c, hdeleted c⟩

theorem mem_solveFirst {reqs : PlainReqs} {leaves : List Name} {st : SolveState} {x : Name}
    (hx : x ∈ st.all) : x ∈ (solveFirst reqs leaves st).all := by
  rw [solveFirst]
  split
  · exact hx
  next y rest hy =>
    rw [SolveState.all, List.mem_append] at hx ⊢
    by_cases heq : x = y
    · exact .inl (heq ▸ List.mem_cons_self ..)
    · exact hx.imp (List.mem_cons_of_mem y) fun h => (List.mem_erase_of_ne heq).mpr h

theorem mem_solveLast {reqs : PlainReqs} {leaves : List Name} {st : SolveState} {x : Name}
    (hx : x ∈ st.all) : x ∈ (solveLast reqs leaves st).all := by
  rw [solveLast]
  split
  · exact hx
  next y rest hy =>
    rw [SolveState.all, List.mem_append] at hx ⊢
    by_cases heq : x = y
    · exact .inl (List.mem_append_right _ (heq ▸ List.mem_singleton_self _))
    · exact hx.imp (List.mem_append_left [y]) fun h => (List.mem_erase_of_ne heq).mpr h

namespace SolvedFrom

theorem mem_solution_iff (h : SolvedFrom ord dp pre r cleaned unsolved) (x : Name) :
    x ∈ r.solution ↔ x = dp ∨ isContainer pre x = false ∧ hasPlacementRefs pre x = true := by
  have hall : x ∈ r.solution ↔
      x ∈ (solveFirstLast r.reqs (leafKeys pre) { unsolved, solution := [dp] }).all := by
    rw [← h.run.perm.mem_iff, SolveState.all, List.append_nil]
  have hunsolved : x ∈ unsolved ↔ isContainer pre x = false ∧ hasPlacementRefs pre x = true := by
    rw [h.mem_unsolved, mem_leafKeys]
    refine ⟨fun hx => ⟨hx.1.2, hx.2⟩, fun hx => ⟨⟨?_, hx.1⟩, hx.2⟩⟩
    by_contra hmem
    rw [← Dict.get?_isSome_iff, Bool.not_eq_true, Option.isSome_eq_false_iff,
      Option.isNone_iff_eq_none] at hmem
    simp [hasPlacementRefs, placementRefs, hmem] at hx
  rw [hall, ← hunsolved]
  have hfirst : x ∈ ({ unsolved, solution := [dp] } : SolveState).all ↔ x = dp ∨ x ∈ unsolved := by
    simp [SolveState.all]
  constructor
  · intro hx
    by_contra hnot
    have hrefs (ab : Direction) (target : Name) :
        x ∉ firstOrLast r.reqs (leafKeys pre) ab target := fun hmem =>
      hnot (.inr (h.mem_unsolved_of_firstOrLast hmem))
    rw [solveFirstLast, solveLast] at hx
    have hx' : x ∈ (solveFirst r.reqs (leafKeys pre) { unsolved, solution := [dp] }).all := by
      split at hx
      · exact hx
      next y rest hy =>
        have hne : x ≠ y := fun heq => hrefs .before "end" (by rw [hy, heq]; exact List.mem_cons_self ..)
        simp only [SolveState.all, List.mem_append, List.mem_singleton, hne, or_false] at hx
        rw [SolveState.all, List.mem_append]
        exact hx.imp_right List.mem_of_mem_erase
    rw [solveFirst] at hx'
    split at hx'
    · exact hnot (hfirst.mp hx')
    next y rest hy =>
      have hne : x ≠ y := fun heq => hrefs .after "start" (by rw [hy, heq]; exact List.mem_cons_self ..)
      simp only [SolveState.all, List.mem_append, List.mem_cons, hne, false_or] at hx'
      refine hnot (hfirst.mp ?_)
      rw [SolveState.all, List.mem_append]
      exact hx'.imp (fun hx => List.mem_cons.mpr hx) List.mem_of_mem_erase
  · exact fun hx => mem_solveLast (mem_solveFirst (hfirst.mpr hx))

end SolvedFrom

end Resolved

section Sizes

variable {fuel : Nat} {reqs reqs' : PlainReqs} {totalSize : Int} {dp : Name}

theorem isSome_size?_setSize (reqs : PlainReqs) (k q : Name) (z : Int) :
    (size? (setSize reqs k z) q).isSome ↔ (size? reqs q).isSome ∨ q = k ∧ q ∈ reqs.keys := by
  by_cases hq : q = k
  · subst hq
    by_cases hmem : q ∈ reqs.keys
    · simp [size?_setSize_self z hmem, hmem]
    · have hnone : reqs.get? q = none := (Dict.get?_eq_none_iff reqs q).mpr hmem
      simp [size?, setSize, hnone, hmem]
  · simp [size?_setSize_of_ne reqs z hq, hq]

theorem isSome_size?_foldl_setSize (sizes : List (Name × Int)) (reqs : PlainReqs) (q : Name) :
    (size? (sizes.foldl (fun reqs e => setSize reqs e.1 e.2) reqs) q).isSome ↔
      (size? reqs q).isSome ∨ q ∈ sizes.map Prod.fst ∧ q ∈ reqs.keys := by
  induction sizes generalizing reqs with
  | nil => simp
  | cons e sizes ih =>
    rw [List.foldl_cons, ih, isSome_size?_setSize, keys_setSize, List.map_cons, List.mem_cons]
    tauto

theorem isSome_size?_setStaticSizes {ks : List Name}
    (h : setStaticSizes totalSize dp ks reqs = .ok reqs') (q : Name) :
    (size? reqs' q).isSome ↔ (size? reqs q).isSome ∨ q ∈ ks ∧ q ∈ reqs.keys := by
  induction ks generalizing reqs with
  | nil =>
    cases h
    simp
  | cons req rest ih =>
    rw [setStaticSizes] at h
    split at h
    · obtain ⟨z, -, h⟩ := bind_eq_ok.mp h
      rw [ih h, isSome_size?_setSize, keys_setSize, List.mem_cons]
      tauto
    · simp at h

theorem isSome_size?_setSharedSize (h : setSharedSize fuel reqs totalSize dp = .ok reqs')
    (q : Name) : (size? reqs' q).isSome ↔
      (size? reqs q).isSome ∨ ((reqs.get? q).bind Req.shareSize).isSome := by
  simp only [setSharedSize, bind_eq_ok, pure_eq_ok] at h
  obtain ⟨counted, hcount, static, hstatic, sizes, hsizes, rfl⟩ := h
  have hkeys := (countSharers_sharesOnly hcount).keys
  have hsharer : (shareSource counted q).isSome ↔ ((reqs.get? q).bind Req.shareSize).isSome := by
    refine ⟨isSome_shareSize_of_counted hcount, fun hshare => ?_⟩
    obtain ⟨s, hs, -⟩ :=
      countSharers_source reqs.keys_nodup hcount (mem_keys_of_shareSize hshare) hshare
    rw [hs]
    rfl
  have hin : (shareSource counted q).isSome → q ∈ counted.keys := fun hs => by
    rw [hkeys]
    exact mem_keys_of_shareSize (hsharer.mp hs)
  rw [isSome_size?_foldl_setSize, isSome_size?_setStaticSizes hstatic, countSharers_size hcount,
    newSizes_keys hsizes, (setStaticSizes_sharesOnly hstatic).keys, or_assoc, ← or_and_right,
    ← hsharer]
  refine or_congr_right ⟨?_, fun hs => ⟨?_, hin hs⟩⟩
  · rintro ⟨hmem | hmem, -⟩
    · rw [staticSizeSharers, List.mem_filter, Bool.and_eq_true] at hmem
      exact hmem.2.1
    · rw [getDependentPartitions, List.mem_filter, Option.any_eq_true_iff_get] at hmem
      obtain ⟨-, hs, -⟩ := hmem
      exact hs
  · by_cases hdep : q ∈ getDependentPartitions counted dp
    · exact .inr hdep
    · left
      rw [staticSizeSharers, List.mem_filter, Bool.and_eq_true, decide_eq_true_eq]
      exact ⟨hin hs, hs, hdep⟩

end Sizes

structure Grows (reqs reqs' : PlainReqs) : Prop where
  keys : ∀ k ∈ reqs.keys, k ∈ reqs'.keys
  new : ∀ k ∈ reqs'.keys, k ∉ reqs.keys → Usable reqs' k
  address : ∀ k, (address? reqs k).isSome → (address? reqs' k).isSome
  size : ∀ k, (size? reqs k).isSome → (size? reqs' k).isSome

namespace Grows

variable {reqs reqs₁ reqs₂ : PlainReqs}

theorem refl (reqs : PlainReqs) : Grows reqs reqs :=
  ⟨fun _ h => h, fun _ h hnot => absurd h hnot, fun _ h => h, fun _ h => h⟩

theorem usable (h : Grows reqs reqs₁) {k : Name} (hk : Usable reqs k) : Usable reqs₁ k :=
  ⟨h.address k hk.1, h.size k hk.2⟩

theorem trans (h : Grows reqs reqs₁) (h' : Grows reqs₁ reqs₂) : Grows reqs reqs₂ where
  keys k hk := h'.keys k (h.keys k hk)
  new k hk hnot := by
    by_cases hmem : k ∈ reqs₁.keys
    · exact h'.usable (h.new k hmem hnot)
    · exact h'.new k hk hmem
  address k hk := h'.address k (h.address k hk)
  size k hk := h'.size k (h.size k hk)

theorem setAddress (reqs : PlainReqs) (p : Name) (a : Int) :
    Grows reqs (PartitionManager.setAddress reqs p a) where
  keys k hk := by rwa [keys_setAddress]
  new k hk hnot := by
    rw [keys_setAddress] at hk
    exact absurd hk hnot
  address k hk := by
    by_cases hkp : k = p
    · subst hkp
      obtain ⟨a₀, ha₀⟩ := Option.isSome_iff_exists.mp hk
      rw [address?_setAddress_self a (mem_keys_of_address? ha₀)]
      rfl
    · rwa [address?_setAddress_of_ne reqs a hkp]
  size k hk := by rwa [size?_setAddress]

theorem setSize (reqs : PlainReqs) (p : Name) (z : Int) :
    Grows reqs (PartitionManager.setSize reqs p z) where
  keys k hk := by rwa [keys_setSize]
  new k hk hnot := by
    rw [keys_setSize] at hk
    exact absurd hk hnot
  address k hk := by rwa [address?_setSize]
  size k hk := by
    rw [isSome_size?_setSize]
    exact .inl hk

theorem shrinkDynamic {e : Name} {count : Nat} {ps : List Name}
    (h : PartitionManager.shrinkDynamic e count ps reqs = .ok reqs₁) : Grows reqs reqs₁ := by
  induction ps generalizing reqs with
  | nil =>
    cases h
    exact refl _
  | cons p ps ih =>
    simp only [PartitionManager.shrinkDynamic, bind_eq_ok] at h
    obtain ⟨z, -, ez, -, h⟩ := h
    exact (setSize reqs p _).trans (ih h)

theorem set (reqs : PlainReqs) (e : Name) {v : Req (List Name)} (ha : v.address.isSome)
    (hz : v.size.isSome) : Grows reqs (reqs.set e v) where
  keys k hk := (Dict.mem_keys_set reqs e k v).mpr (.inr hk)
  new k hk hnot := by
    obtain rfl := ((Dict.mem_keys_set reqs e k v).mp hk).resolve_right hnot
    rw [Usable, Dict.get?_set_self]
    exact ⟨ha, hz⟩
  address k hk := by
    rw [address?, Dict.get?_set]
    split
    · exact ha
    · exact hk
  size k hk := by
    rw [size?, Dict.get?_set]
    split
    · exact hz
    · exact hk

theorem alignIfRequired {ctx : LayoutContext} {i : Nat} {moveUp : Bool} {s s' : LayoutState}
    (h : PartitionManager.alignIfRequired ctx i moveUp s = .ok (some s')) : Grows s.reqs s'.reqs := by
  obtain ⟨current, align, off, ea, ez, moved, region, -, -, -, -, hroom, hshrink⟩ :=
    alignIfRequired_eq_some h
  have hmoved : Grows s.reqs moved := by
    obtain ⟨-, -, ⟨a, rfl⟩ | rfl⟩ | ⟨-, rfl, -⟩ := makeRoom_cases hroom
    · exact setAddress _ _ _
    · exact refl _
    · exact refl _
  exact (hmoved.trans (set moved _ rfl rfl)).trans (shrinkDynamic hshrink)

theorem run {ctx : LayoutContext} {s s' : LayoutState} (hrun : LayoutRun ctx s s') :
    Grows s.reqs s'.reqs := by
  induction hrun with
  | refl => exact refl _
  | tail _ hstep ih =>
    apply ih.trans
    cases hstep with
    | assign a _ _ => exact setAddress _ _ _
    | insert _ hins => exact alignIfRequired hins

end Grows

structure LeftAlone (ctx : LayoutContext) (s s' : LayoutState) (k : Name) : Prop where
  fresh : FreshEmptyNames s'.reqs
  mem : k ∈ s'.reqs.keys
  unplaced : k ∉ s'.solution
  address : address? s'.reqs k = address? s.reqs k
  size : k ∉ ctx.dynamicPartitions → size? s'.reqs k = size? s.reqs k

theorem LayoutRun.leftAlone {ctx : LayoutContext} {s s' : LayoutState} (hrun : LayoutRun ctx s s')
    (hfresh : FreshEmptyNames s.reqs) {k : Name} (hk : k ∈ s.reqs.keys) (hout : k ∉ s.solution) :
    LeftAlone ctx s s' k := by
  induction hrun with
  | refl => exact ⟨hfresh, hk, hout, rfl, fun _ => rfl⟩
  | tail _ hstep ih =>
    cases hstep with
    | assign a _ hp =>
      have hne : k ≠ _ := fun heq => ih.unplaced (heq ▸ List.mem_of_getElem? hp)
      refine ⟨ih.fresh.congr (keys_setAddress _ _ _), ?_, ih.unplaced, ?_, fun hdyn => ?_⟩
      · rw [LayoutState.assign, keys_setAddress]
        exact ih.mem
      · rw [LayoutState.assign, address?_setAddress_of_ne _ _ hne, ih.address]
      · rw [LayoutState.assign, size?_setAddress, ih.size hdyn]
    | insert _ hins =>
      obtain ⟨_, _, _, _, _, he⟩ := alignIfRequired_some hins
      have hempty : k ≠ emptyName _ := fun heq => ih.fresh.emptyName (heq ▸ ih.mem)
      have hcur : k ≠ _ := fun heq => ih.unplaced (heq ▸ List.mem_of_getElem? he.current_eq)
      refine ⟨ih.fresh.insert (he.keys_fresh ih.fresh), ?_, ?_, ?_, fun hdyn => ?_⟩
      · rw [he.keys_fresh ih.fresh]
        exact List.mem_append_left _ ih.mem
      · rw [he.solution_perm.mem_iff, List.mem_cons, not_or]
        exact ⟨hempty, ih.unplaced⟩
      · rw [he.address_eq k hempty (.inl hcur), ih.address]
      · rw [he.size_eq k hempty hdyn, ih.size hdyn]

section Layout

variable {fuel depth : Nat} {r : Resolved} {size start : Int} {dp : Name} {s : LayoutState}

def Configured (reqs : PlainReqs) (k : Name) : Prop :=
  (address? reqs k).isSome ∧ ((size? reqs k).isSome ∨ ((reqs.get? k).bind Req.shareSize).isSome)

theorem SharesOnly.address {reqs reqs' : PlainReqs} (h : SharesOnly reqs reqs') (p : Name) :
    address? reqs' p = address? reqs p := by
  have := congrArg (fun o => o.bind Req.address) (h.unshared p)
  simpa [address?, Option.bind_map, Function.comp_def, Req.unshared] using this

section Before

variable {shared : PlainReqs} {first : Name}

theorem isSome_address?_beforeAssignment (hshared : setSharedSize fuel r.reqs size dp = .ok shared)
    (hfirst : first ∈ shared.keys) (k : Name) :
    (address? (beforeAssignment shared size dp first start) k).isSome ↔
      k = first ∨ (address? r.reqs k).isSome := by
  rw [beforeAssignment]
  by_cases hk : k = first
  · have hmem : first ∈ (setSize shared dp (dynamicPartitionsSize shared size dp)).keys := by
      rwa [keys_setSize]
    simp [hk, address?_setAddress_self start hmem]
  · rw [address?_setAddress_of_ne _ _ hk, address?_setSize,
      (setSharedSize_sharesOnly hshared).address]
    simp [hk]

theorem isSome_size?_beforeAssignment (hshared : setSharedSize fuel r.reqs size dp = .ok shared)
    (hdp : dp ∈ shared.keys) (k : Name) :
    (size? (beforeAssignment shared size dp first start) k).isSome ↔
      k = dp ∨ (size? r.reqs k).isSome ∨ ((r.reqs.get? k).bind Req.shareSize).isSome := by
  rw [beforeAssignment, size?_setAddress, isSome_size?_setSize, isSome_size?_setSharedSize hshared,
    and_iff_left_of_imp fun hk => hk ▸ hdp, or_comm]

end Before

structure LaidOut (r : Resolved) (s : LayoutState) : Prop where
  keys : ∀ k ∈ r.reqs.keys, k ∈ s.reqs.keys
  new : ∀ k ∈ s.reqs.keys, k ∉ r.reqs.keys → Usable s.reqs k
  placed : ∀ k ∈ r.solution, Usable s.reqs k
  configured : ∀ k, Configured r.reqs k → Usable s.reqs k
  only : FreshEmptyNames r.reqs → ∀ k ∈ r.reqs.keys, Usable s.reqs k →
    k ∈ r.solution ∨ Configured r.reqs k

theorem setAddressesAndAlign_laidOut (h : setAddressesAndAlign fuel depth r size dp start = .ok s)
    (hdpsol : dp ∈ r.solution) (hmem : ∀ p ∈ r.solution, p ∈ r.reqs.keys) : LaidOut r s := by
  obtain ⟨shared, first, hshared, hdp, hfirst, hfirstmem, hcases⟩ := setAddressesAndAlign_eq_ok h
  have hkeys := (setSharedSize_sharesOnly hshared).keys
  have haddr (k : Name) : (address? (beforeAssignment shared size dp first start) k).isSome ↔ _ :=
    isSome_address?_beforeAssignment hshared hfirstmem k
  have hsize (k : Name) : (size? (beforeAssignment shared size dp first start) k).isSome ↔ _ :=
    isSome_size?_beforeAssignment hshared hdp k
  have hkeys₀ : (beforeAssignment shared size dp first start).keys = r.reqs.keys := by
    rw [beforeAssignment, keys_setAddress, keys_setSize, hkeys]
  have hfirstsol : first ∈ r.solution := List.mem_of_head? hfirst
  split_ifs at hcases with hlen
  · obtain ⟨hassign, hverify⟩ := hcases
    have hrun := assignAddresses_run hassign
    have hgrows := Grows.run hrun
    have hplaced : ∀ p ∈ s.solution, Usable s.reqs p := by
      obtain ⟨ps, hps⟩ := List.head?_eq_some_iff.mp ((LayoutRun.head hrun).trans hfirst)
      rw [hps] at hverify ⊢
      obtain ⟨z, b, hz, hb, -⟩ := verifyLayout_eq_ok hverify
      rw [List.forall_mem_cons]
      refine ⟨⟨hgrows.address first ((haddr first).mpr (.inl rfl)), ?_⟩, hb.isSome⟩
      rw [← size?, hz]
      rfl
    exact {
      keys := fun k hk => hgrows.keys k (hkeys₀ ▸ hk)
      new := fun k hk hnot => hgrows.new k hk (hkeys₀ ▸ hnot)
      placed := fun k hk => hplaced k (LayoutRun.mem_solution hrun hk)
      configured := fun k hk => hgrows.usable ⟨(haddr k).mpr (.inr hk.1), (hsize k).mpr (.inr hk.2)⟩
      only := by
        intro hfresh k hk hu
        by_cases hsol : k ∈ r.solution
        · exact .inl hsol
        · have hleft := LayoutRun.leftAlone hrun (hfresh.congr hkeys₀) (hkeys₀ ▸ hk) hsol
          have hne (p : Name) (hp : p ∈ r.solution) : k ≠ p := fun heq => hsol (heq ▸ hp)
          refine .inr ⟨((haddr k).mp ?_).resolve_left (hne first hfirstsol), ?_⟩
          · rw [← hleft.address]
            exact hu.1
          · by_cases hdyn : k ∈ dp :: getDependentPartitions shared dp
            · right
              by_contra hnone
              rw [Bool.not_eq_true, Option.isSome_eq_false_iff, Option.isNone_iff_eq_none] at hnone
              have hdep := (List.mem_cons.mp hdyn).resolve_left (hne dp hdpsol)
              rw [getDependentPartitions, List.mem_filter, shareSource,
                setSharedSize_shareSize hnone hshared] at hdep
              simp at hdep
            · refine ((hsize k).mp ?_).resolve_left (hne dp hdpsol)
              rw [← hleft.size hdyn]
              exact hu.2 }
  · subst hcases
    have hsingle : ∀ p ∈ r.reqs.keys, p = dp := by
      obtain ⟨k, hk⟩ : ∃ k, shared.keys = [k] := by
        rw [← List.length_eq_one_iff]
        have := List.length_pos_of_mem hdp
        omega
      rw [← hkeys, hk]
      rw [hk, List.mem_singleton] at hdp
      intro p hp
      rw [List.mem_singleton.mp hp, hdp]
    have hfirstdp := hsingle first (hmem first hfirstsol)
    exact {
      keys := fun k hk => hkeys₀ ▸ hk
      new := fun k hk hnot => absurd (hkeys₀ ▸ hk) hnot
      placed := by
        intro k hk
        have hkdp := hsingle k (hmem k hk)
        exact ⟨(haddr k).mpr (.inl (hkdp.trans hfirstdp.symm)), (hsize k).mpr (.inl hkdp)⟩
      configured := fun k hk => ⟨(haddr k).mpr (.inr hk.1), (hsize k).mpr (.inr hk.2)⟩
      only := fun _ k hk _ => .inl (hsingle k hk ▸ hdpsol) }

end Layout

theorem setSubPartitionAddressAndSize_usable {subs : List Name} {reqs final : PlainReqs}
    (hmem : ∀ c ∈ subs, c ∈ reqs.keys) (h : setSubPartitionAddressAndSize subs reqs = .ok final) :
    (∀ k, Usable reqs k → Usable final k) ∧ ∀ c ∈ subs, Usable final c := by
  induction subs generalizing reqs with
  | nil =>
    cases h
    exact ⟨fun _ hk => hk, fun c hc => absurd hc List.not_mem_nil⟩
  | cons d subs ih =>
    simp only [setSubPartitionAddressAndSize, bind_eq_ok] at h
    obtain ⟨reqs₁, h₁, h⟩ := h
    obtain ⟨hsame, m, hd⟩ := setContainer_eq_ok (hmem d (List.mem_cons_self ..)) h₁
    have hdusable : Usable reqs₁ d := by
      constructor
      · rw [← address?, hd.address]
        rfl
      · rw [← size?, hd.size]
        rfl
    have hkeep (k : Name) (hk : Usable reqs k) : Usable reqs₁ k := by
      by_cases hkd : k = d
      · exact hkd ▸ hdusable
      · rwa [Usable, hsame k hkd]
    have hmem₁ : ∀ c ∈ subs, c ∈ reqs₁.keys := by
      intro c hc
      by_cases hcd : c = d
      · exact mem_keys_of_address? (hcd ▸ hd.address)
      · rw [← Dict.get?_isSome_iff, hsame c hcd, Dict.get?_isSome_iff]
        exact hmem c (List.mem_cons_of_mem _ hc)
    obtain ⟨hrest, hsubs⟩ := ih hmem₁ h
    rw [List.forall_mem_cons]
    exact ⟨fun k hk => hrest k (hkeep k hk), hrest d hdusable, hsubs⟩

theorem SolvedFrom.field_eq {ord : SetOrder Name} {dp : Name} {pre cleaned : PlainReqs} {r : Resolved}
    {unsolved : List Name} {α : Type} {f : Req (List Name) → Option α}
    (h : SolvedFrom ord dp pre r cleaned unsolved) (hspan : ∀ v, f v.unspanned = f v)
    (hplacement : ∀ v placement, f { v with placement } = f v) (q : Name) :
    (r.reqs.get? q).bind f = (pre.get? q).bind f := by
  have hclean : (cleaned.get? q).bind f = (pre.get? q).bind f := by
    have := congrArg (fun o => o.bind f) (h.clean.unspanned q)
    simp only [unspanned?, Option.bind_map, Function.comp_def, hspan] at this
    exact this
  rcases h.rewrites.entry q with he | ⟨-, v, p, -, hv, he⟩
  · rw [he, hclean]
  · rw [← hclean, he, hv]
    exact hplacement v _

/-- The partition is none of the empty containers that are dropped, and it is a container, has a
reference to be placed by or is configured with its address. -/
def Settles (pre : PlainReqs) (dp k : Name) : Prop :=
  k = dp ∨ ¬ Vacant pre k ∧
    (isContainer pre k = true ∨ hasPlacementRefs pre k = true ∨ Configured pre k)

section Area

variable {ord : SetOrder Name} {fuel depth : Nat} {dp : Name} {pre : PlainReqs} {r : Resolved}
  {size start : Int} {s : LayoutState} {final : PlainReqs}

theorem Vacant.isContainer {c : Name} (h : Vacant pre c) : isContainer pre c = true := by
  cases h with
  | mk hc _ => exact hc

structure AreaResult {R : Type} (pre : PlainReqs) (dp : Name) (final : Reqs R) : Prop where
  keys : ∀ k ∈ pre.keys, k ∈ final.keys
  new : ∀ k ∈ final.keys, k ∉ pre.keys → Usable final k
  settled : ∀ k, Settles pre dp k → Usable final k
  only : FreshEmptyNames pre → ∀ k ∈ pre.keys, Usable final k → ¬ Vacant pre k → Settles pre dp k

theorem layout_areaResult (hr : resolvePrepared ord fuel dp pre = .ok r)
    (hs : setAddressesAndAlign fuel depth r size dp start = .ok s)
    (hfinal : setSubPartitionAddressAndSize r.subs s.reqs = .ok final) : AreaResult pre dp final := by
  obtain ⟨cleaned, unsolved, hsolved⟩ := resolvePrepared_eq_ok hr
  have hsol := hsolved.mem_solution_iff
  have hsubs := mem_subs_iff hr
  have hkeys : r.reqs.keys = pre.keys := hsolved.keys
  have hconf (k : Name) : Configured r.reqs k ↔ Configured pre k := by
    rw [Configured, Configured, address?, address?, size?, size?,
      hsolved.field_eq (fun _ => rfl) (fun _ _ => rfl), hsolved.field_eq (fun _ => rfl) (fun _ _ => rfl),
      hsolved.field_eq (fun _ => rfl) (fun _ _ => rfl)]
  have hdp : dp ∈ r.reqs.keys := by
    obtain ⟨shared, -, hshared, hdp, -⟩ := setAddressesAndAlign_eq_ok hs
    rwa [(setSharedSize_sharesOnly hshared).keys] at hdp
  have hsolmem : ∀ p ∈ r.solution, p ∈ r.reqs.keys := by
    intro p hp
    rcases (hsolved.mem_solution hp) with rfl | hp
    · exact hdp
    · exact hkeys ▸ (mem_leafKeys.mp hp).1
  have hlaid := setAddressesAndAlign_laidOut hs ((hsol dp).mpr (.inl rfl)) hsolmem
  have hsubmem : ∀ c ∈ r.subs, c ∈ s.reqs.keys := fun c hc =>
    hlaid.keys c (hkeys ▸ mem_keys_of_isContainer ((hsubs c).mp hc).1)
  obtain ⟨hkeep, hcontainers⟩ := setSubPartitionAddressAndSize_usable hsubmem hfinal
  have hsame := (setSubPartitionAddressAndSize_span hsolved.clean.subs_nodup hfinal).2
  have hmem (k : Name) : k ∈ final.keys ↔ k ∈ s.reqs.keys := by
    by_cases hk : k ∈ r.subs
    · refine iff_of_true ?_ (hsubmem k hk)
      obtain ⟨a, ha⟩ := Option.isSome_iff_exists.mp (hcontainers k hk).1
      exact mem_keys_of_address? ha
    · rw [← Dict.get?_isSome_iff, hsame k hk, Dict.get?_isSome_iff]
  exact {
    keys := fun k hk => (hmem k).mpr (hlaid.keys k (hkeys ▸ hk))
    new := fun k hk hnot => hkeep k (hlaid.new k ((hmem k).mp hk) (hkeys ▸ hnot))
    settled := by
      rintro k (rfl | ⟨hvacant, hcont | hrefs | hk⟩)
      · exact hkeep k (hlaid.placed k ((hsol k).mpr (.inl rfl)))
      · exact hcontainers k ((hsubs k).mpr ⟨hcont, hvacant⟩)
      · by_cases hcont : isContainer pre k = true
        · exact hcontainers k ((hsubs k).mpr ⟨hcont, hvacant⟩)
        · rw [Bool.not_eq_true] at hcont
          exact hkeep k (hlaid.placed k ((hsol k).mpr (.inr ⟨hcont, hrefs⟩)))
      · exact hkeep k (hlaid.configured k ((hconf k).mpr hk))
    only := by
      intro hfresh k hk hu hvacant
      by_cases hsub : k ∈ r.subs
      · exact .inr ⟨hvacant, .inl ((hsubs k).mp hsub).1⟩
      · rw [Usable, hsame k hsub] at hu
        rcases hlaid.only (hfresh.congr hkeys) k (hkeys ▸ hk) hu with hplaced | hk
        · exact ((hsol k).mp hplaced).imp_right fun h => ⟨hvacant, .inr (.inl h.2)⟩
        · exact .inr ⟨hvacant, .inr (.inr ((hconf k).mp hk))⟩ }

end Area

theorem prepare_notContainer {reqs : Reqs YamlRefs} {dp p : Name} {pre : PlainReqs}
    (h : prepare reqs dp = .ok pre) (hp : (reqs.get? p).bind Req.span = none) :
    isContainer pre p = false := by
  rw [isContainer, Option.isSome_eq_false_iff, Option.isNone_iff_eq_none, Option.bind_eq_none_iff]
  intro w hw
  obtain ⟨zeroFree, resolved, rfl, hresolved, rfl⟩ := prepare_eq_ok h
  rw [Dict.get?_mapValues, Option.map_eq_some_iff] at hw
  obtain ⟨w', hw', rfl⟩ := hw
  obtain ⟨v, hv, hvw⟩ := Dict.get?_mapValuesM hresolved hw'
  rw [get?_removeAll _ _ (Dict.mem_keys_of_get? hv), Dict.get?_mapValues, Option.map_map,
    Option.map_eq_some_iff] at hv
  obtain ⟨u, hu, rfl⟩ := hv
  rw [hu, Option.bind_some] at hp
  simp only [Req.resolveOneOf, Req.leave, Req.map, Function.comp_apply, hp, Option.map_none, mapOption,
    bind_eq_ok, pure_eq_ok] at hvw
  obtain ⟨_, _, _, ⟨⟩, _, _, _, _, rfl⟩ := hvw
  rfl

section Region

variable {ord : SetOrder Name} {fuel depth : Nat} {pmConfig staticConf out area : Reqs YamlRefs}
  {dp : Name} {size start : Int}

theorem solveArea_areaResult (h : solveArea ord fuel depth pmConfig start size dp = .ok out) :
    ∃ pre, prepare pmConfig dp = .ok pre ∧ AreaResult pre dp out := by
  simp only [solveArea, resolve, bind_eq_ok, pure_eq_ok] at h
  obtain ⟨r, ⟨pre, hprep, hr⟩, s, hs, final, hfinal, rfl⟩ := h
  have hresult := layout_areaResult hr hs hfinal
  have husable (k : Name) : Usable (final.mapValues (Req.map plainRefs)) k ↔ Usable final k := by
    rw [Usable, Usable, Dict.get?_mapValues]
    cases final.get? k <;> rfl
  refine ⟨pre, hprep, ?_, ?_, ?_, ?_⟩
  · simpa using hresult.keys
  · simpa [husable] using hresult.new
  · simpa [husable] using hresult.settled
  · simpa [husable] using hresult.only

theorem usable_update (area staticConf : Reqs YamlRefs) (dp k : Name) :
    Usable (area.update (staticConf.filter fun k _ => k ≠ dp)) k ↔
      if k ∈ staticConf.keys ∧ k ≠ dp then Usable staticConf k else Usable area k := by
  rw [Usable, Dict.get?_update, Dict.get?_filter]
  by_cases hk : k ∈ staticConf.keys
  · obtain ⟨v, hv⟩ := Option.isSome_iff_exists.mp ((Dict.get?_isSome_iff _ _).mpr hk)
    by_cases hdp : k = dp
    · subst hdp
      simp [hv, Option.filter, Usable]
    · simp [hk, hdp, hv, Usable, Option.filter]
  · have hnone : staticConf.get? k = none := (Dict.get?_eq_none_iff _ _).mpr hk
    simp [hk, hnone, Usable]

/-- Everything in the result can be used, and no container is left that is empty. -/
def UsableResult (pmConfig staticConf : Reqs YamlRefs) (dp : Name) (out : Reqs YamlRefs) : Prop :=
  AllUsable out ∧ ∀ pre, prepare pmConfig dp = .ok pre → ∀ c, Vacant pre c →
    c ∉ staticConf.keys → c ∉ out.keys

/-- Static partitions have an address and a size, and of the others none is an empty container or is
left without a place. -/
def UsableWhen (pmConfig staticConf : Reqs YamlRefs) (dp : Name) : Prop :=
  (∀ k ∈ staticConf.keys, k ≠ dp → Usable staticConf k) ∧
    ∀ pre, prepare pmConfig dp = .ok pre → ∀ k ∈ pre.keys, k ∉ staticConf.keys ∨ k = dp →
      Settles pre dp k

private theorem update_usable_iff (staticConf : Reqs YamlRefs) {pre : PlainReqs}
    (hprep : prepare pmConfig dp = .ok pre) (hdp : isContainer pre dp = false)
    (harea : AreaResult pre dp area) :
    (UsableWhen pmConfig staticConf dp → UsableResult pmConfig staticConf dp
      (area.update (staticConf.filter fun k _ => k ≠ dp))) ∧
    (FreshEmptyNames pre → UsableResult pmConfig staticConf dp
      (area.update (staticConf.filter fun k _ => k ≠ dp)) → UsableWhen pmConfig staticConf dp) := by
  have hkeys (k : Name) : k ∈ (area.update (staticConf.filter fun k _ => k ≠ dp)).keys ↔
      k ∈ staticConf.keys ∧ k ≠ dp ∨ k ∈ area.keys := by
    rw [Dict.mem_keys_update, Dict.mem_keys_filter, ← Dict.get?_isSome_iff staticConf,
      Option.isSome_iff_exists]
    simp
  have husable := usable_update area staticConf dp
  have hleaf {c : Name} (hc : Vacant pre c) : c ≠ dp := by
    rintro rfl
    rw [hc.isContainer] at hdp
    cases hdp
  constructor
  · rintro ⟨hstatic, hsettles⟩
    refine ⟨fun k hk => ?_, fun pre' hpre' c hc hcs hmem => ?_⟩
    · rw [husable]
      split
      next h => exact hstatic k h.1 h.2
      next h =>
        have harean := ((hkeys k).mp hk).resolve_left h
        rw [not_and, ne_eq, not_not] at h
        by_cases hpre : k ∈ pre.keys
        · exact harea.settled k (hsettles pre hprep k hpre (or_iff_not_imp_left.mpr fun hs =>
            h (not_not.mp hs)))
        · exact harea.new k harean hpre
    · rw [hprep, Except.ok.injEq] at hpre'
      subst hpre'
      have hcmem := mem_keys_of_isContainer hc.isContainer
      exact ((hsettles pre hprep c hcmem (.inl hcs)).resolve_left (hleaf hc)).1 hc
  · rintro hfresh ⟨hall, hnone⟩
    refine ⟨fun k hk hne => ?_, fun pre' hpre' k hk hks => ?_⟩
    · have := hall k ((hkeys k).mpr (.inl ⟨hk, hne⟩))
      rwa [husable, if_pos ⟨hk, hne⟩] at this
    · rw [hprep, Except.ok.injEq] at hpre'
      subst hpre'
      rcases hks with hks | rfl
      · have hmem := (hkeys k).mpr (.inr (harea.keys k hk))
        have hu := hall k hmem
        rw [husable, if_neg fun h => hks h.1] at hu
        exact harea.only hfresh k hk hu fun hv => hnone pre hprep k hv hks hmem
      · exact .inl rfl

private theorem single_usable_iff (staticConf : Reqs YamlRefs) {v : Req YamlRefs}
    (f : Req YamlRefs → Req YamlRefs) (hf : ∀ v, (f v).address.isSome ∧ (f v).size.isSome)
    (hdp : pmConfig.get? dp = some v) (hspan : v.span = none) (hlen : pmConfig.keys.length = 1) :
    UsableResult pmConfig staticConf dp ((pmConfig.update staticConf).modify dp f) ↔
      UsableWhen pmConfig staticConf dp := by
  have hsingle (k : Name) : k ∈ pmConfig.keys ↔ k = dp := by
    obtain ⟨q, hq⟩ := List.length_eq_one_iff.mp hlen
    have hmem := Dict.mem_keys_of_get? hdp
    rw [hq, List.mem_singleton] at hmem ⊢
    rw [hmem]
  have hkeys (k : Name) : k ∈ ((pmConfig.update staticConf).modify dp f).keys ↔
      k ∈ staticConf.keys ∨ k = dp := by
    rw [Dict.keys_modify, Dict.mem_keys_update, hsingle]
  have hself : Usable ((pmConfig.update staticConf).modify dp f) dp := by
    have hsome := (Dict.get?_isSome_iff (pmConfig.update staticConf) dp).mpr
      ((Dict.mem_keys_update _ _ _).mpr (.inr ((hsingle dp).mpr rfl)))
    obtain ⟨w, hw⟩ := Option.isSome_iff_exists.mp hsome
    rw [Usable, Dict.get?_modify_self, hw]
    exact hf w
  have hstatic (k : Name) (hne : k ≠ dp) (hk : k ∈ staticConf.keys) :
      Usable ((pmConfig.update staticConf).modify dp f) k ↔ Usable staticConf k := by
    obtain ⟨w, hw⟩ := Option.isSome_iff_exists.mp ((Dict.get?_isSome_iff _ _).mpr hk)
    rw [Usable, Usable, Dict.get?_modify_of_ne _ _ hne, Dict.get?_update, hw]
    rfl
  have hpre (pre : PlainReqs) (hprep : prepare pmConfig dp = .ok pre) (k : Name) (hk : k ∈ pre.keys) :
      k = dp := by
    obtain ⟨w, hw⟩ := Option.isSome_iff_exists.mp ((Dict.get?_isSome_iff _ _).mpr hk)
    obtain ⟨u, hu, -⟩ := prepare_get? hprep hw
    exact (hsingle k).mp (Dict.mem_keys_of_get? hu)
  constructor
  · rintro ⟨hall, -⟩
    refine ⟨fun k hk hne => (hstatic k hne hk).mp (hall k ((hkeys k).mpr (.inl hk))), ?_⟩
    exact fun pre hprep k hk _ => .inl (hpre pre hprep k hk)
  · rintro ⟨husable, -⟩
    refine ⟨fun k hk => ?_, fun pre hprep c hc _ _ => ?_⟩
    · by_cases hne : k = dp
      · exact hne ▸ hself
      · have hks := ((hkeys k).mp hk).resolve_right hne
        exact (hstatic k hne hks).mpr (husable k hks hne)
    · have hcont := hc.isContainer
      rw [hpre pre hprep c (mem_keys_of_isContainer hcont),
        prepare_notContainer hprep (by rw [hdp]; exact hspan)] at hcont
      cases hcont

/-- Everything that `solve_complex_region` returns can be used if it is configured so, and only then
where no partition bears a name that is still to be given to an empty partition. -/
theorem solveComplexRegion_usable_iff {v : Req YamlRefs} (hdp : pmConfig.get? dp = some v)
    (hspan : v.span = none)
    (h : solveComplexRegion ord fuel depth pmConfig start size staticConf dp = .ok out) :
    (UsableWhen pmConfig staticConf dp → UsableResult pmConfig staticConf dp out) ∧
    ((∀ pre, prepare pmConfig dp = .ok pre → FreshEmptyNames pre) →
      UsableResult pmConfig staticConf dp out → UsableWhen pmConfig staticConf dp) := by
  have hleaf {pre : PlainReqs} (hprep : prepare pmConfig dp = .ok pre) : isContainer pre dp = false :=
    prepare_notContainer hprep (by rw [hdp]; exact hspan)
  rw [solveComplexRegion] at h
  split at h
  next hnil =>
    obtain ⟨pre, hprep, harea⟩ := solveArea_areaResult h
    have hupdate : out.update (staticConf.filter fun k _ => k ≠ dp) = out := by
      simp [Dict.update, Dict.filter, hnil]
    have hiff := update_usable_iff staticConf hprep (hleaf hprep) harea
    rw [hupdate] at hiff
    exact ⟨hiff.1, fun hfresh => hiff.2 (hfresh pre hprep)⟩
  next hstatic =>
    simp only [bind_eq_ok] at h
    obtain ⟨⟨start', freeSize⟩, -, h⟩ := h
    split at h
    next hlen =>
      split at h
      · rw [pure_eq_ok] at h
        subst h
        have hiff := single_usable_iff staticConf
          (fun v => { v with address := some start', size := some freeSize }) (fun _ => ⟨rfl, rfl⟩)
          hdp hspan hlen
        exact ⟨hiff.mpr, fun _ => hiff.mp⟩
      · cases h
    next =>
      simp only [bind_eq_ok, pure_eq_ok] at h
      obtain ⟨area, harea, rfl⟩ := h
      obtain ⟨pre, hprep, hresult⟩ := solveArea_areaResult harea
      have hiff := update_usable_iff staticConf hprep (hleaf hprep) hresult
      exact ⟨hiff.1, fun hfresh => hiff.2 (hfresh pre hprep)⟩

end Region

theorem alignedFirst_usable : ∃ out, solveComplexRegion (SetOrder.dedup Name) 3 5 alignedFirst 0 1000
    Dict.empty "app" = .ok out ∧ UsableResult alignedFirst Dict.empty "app" out := by
  obtain ⟨out, hout, -⟩ := exists_of_returnsWith (x := solveComplexRegion (SetOrder.dedup Name) 3 5
    alignedFirst 0 1000 Dict.empty "app") (fun _ => true) (by decide)
  obtain ⟨pre, hpre, hcheck⟩ := exists_of_returnsWith (x := prepare alignedFirst "app")
    (fun pre => decide (∀ k ∈ pre.keys, k = "app" ∨
      isContainer pre k = false ∧ hasPlacementRefs pre k = true)) (by decide)
  rw [decide_eq_true_iff] at hcheck
  refine ⟨out, hout, (solveComplexRegion_usable_iff rfl rfl hout).1 ⟨?_, fun pre' hpre' k hk _ => ?_⟩⟩
  · exact fun k hk => absurd hk List.not_mem_nil
  · rw [hpre, Except.ok.injEq] at hpre'
    subst hpre'
    refine (hcheck k hk).imp_right fun h => ⟨fun hv => ?_, .inr (.inl h.2)⟩
    rw [hv.isContainer] at h
    cases h.1

def emptiedContainer : Reqs YamlRefs :=
  ⟨[("log", { shareSize := some (.str "settings") }),
    ("storage", { span := some (.str "log") }),
    ("app", { region := some "flash_primary" })], by simp⟩

/-- The container is dropped as empty, and stays in the result without address and size. -/
theorem emptiedContainer_not_usable : ∃ pre out, prepare emptiedContainer "app" = .ok pre ∧
    solveComplexRegion (SetOrder.dedup Name) 3 5 emptiedContainer 0 1000 Dict.empty "app" = .ok out ∧
    Vacant pre "storage" ∧ "storage" ∈ out.keys ∧ ¬ AllUsable out := by
  obtain ⟨pre, hpre, hcheck⟩ := exists_of_returnsWith (x := prepare emptiedContainer "app")
    (fun pre => decide (isContainer pre "storage" = true ∧ partsOf pre "storage" = []))
    (by decide)
  obtain ⟨out, hout, hmem⟩ := exists_of_returnsWith (x := solveComplexRegion (SetOrder.dedup Name) 3 5
    emptiedContainer 0 1000 Dict.empty "app") (fun out => decide ("storage" ∈ out.keys ∧
      ((out.get? "storage").bind Req.address).isSome = false)) (by decide)
  rw [decide_eq_true_iff] at hcheck hmem
  refine ⟨pre, out, hpre, hout, .mk hcheck.1 fun p hp => ?_, hmem.1, fun hall => ?_⟩
  · rw [hcheck.2] at hp
    cases hp
  · have := (hall "storage" hmem.1).1
    rw [hmem.2] at this
    cases this

end SdkNrf.PartitionManager
