import SdkNrf.Framework.ListOrder
import SdkNrf.Framework.Tiling
import SdkNrf.PartitionManager.LayoutSteps
import SdkNrf.PartitionManager.Ordering

/-!
# The partitions tile the region

`verify_layout` compares every address but the first with the sum of the sizes before it.
-/

namespace SdkNrf.PartitionManager

/-- The name `EMPTY_n`. -/
def emptyNumbered (n : Nat) : Name := "EMPTY_" ++ toString n

theorem emptyNumbered_injective {m n : Nat} (h : emptyNumbered m = emptyNumbered n) : m = n := by
  have hlist := congrArg String.toList h
  simp only [emptyNumbered, String.toList_append, List.append_cancel_left_eq,
    Nat.toString_eq_repr, Nat.toList_repr] at hlist
  have hvalue := congrArg (fun l => Nat.ofDigitChars 10 l 0) hlist
  simpa using hvalue

theorem containsEmpty_emptyNumbered (n : Nat) : containsEmpty (emptyNumbered n) = true := by
  rw [containsEmpty, decide_eq_true_iff, emptyNumbered, String.toList_append]
  exact ⟨[], "_".toList ++ (toString n).toList, rfl⟩

/-- No partition bears a name that is still to be given to an empty partition. -/
def FreshEmptyNames (reqs : PlainReqs) : Prop :=
  ∀ n, (reqs.keys.filter containsEmpty).length ≤ n → emptyNumbered n ∉ reqs.keys

theorem FreshEmptyNames.emptyName {reqs : PlainReqs} (h : FreshEmptyNames reqs) :
    emptyName reqs ∉ reqs.keys := h _ le_rfl

theorem FreshEmptyNames.congr {reqs reqs' : PlainReqs} (h : FreshEmptyNames reqs)
    (hkeys : reqs'.keys = reqs.keys) : FreshEmptyNames reqs' := by
  rw [FreshEmptyNames, hkeys]
  exact h

theorem FreshEmptyNames.insert {reqs reqs' : PlainReqs} (h : FreshEmptyNames reqs)
    (hkeys : reqs'.keys = reqs.keys ++ [PartitionManager.emptyName reqs]) :
    FreshEmptyNames reqs' := by
  intro n hn
  have hcontains : containsEmpty (PartitionManager.emptyName reqs) = true :=
    containsEmpty_emptyNumbered _
  rw [hkeys, List.filter_append, List.filter_cons_of_pos hcontains, List.filter_nil,
    List.length_append, List.length_singleton] at hn
  rw [hkeys, List.mem_append, List.mem_singleton]
  rintro (hmem | heq)
  · exact h n (by omega) hmem
  · have := emptyNumbered_injective heq
    omega

theorem freshEmptyNames_of_none {reqs : PlainReqs}
    (h : ∀ k ∈ reqs.keys, containsEmpty k = false) : FreshEmptyNames reqs := by
  intro n _ hmem
  have := h _ hmem
  rw [containsEmpty_emptyNumbered] at this
  cases this

structure Named (s : LayoutState) : Prop where
  placed : ∀ p ∈ s.solution, p ∈ s.reqs.keys
  fresh : FreshEmptyNames s.reqs

theorem Named.empty_notMem {s : LayoutState} (h : Named s) : emptyName s.reqs ∉ s.solution :=
  fun hmem => h.fresh.emptyName (h.placed _ hmem)

theorem Named.assign {s : LayoutState} (h : Named s) (p : Name) (a : Int) :
    Named (s.assign p a) where
  placed := by
    intro q hq
    rw [LayoutState.assign, keys_setAddress]
    exact h.placed q hq
  fresh := h.fresh.congr (keys_setAddress _ _ _)

structure LayoutInv (s : LayoutState) : Prop extends Named s where
  nodup : s.solution.Nodup

theorem LayoutInv.assign {s : LayoutState} (h : LayoutInv s) (p : Name) (a : Int) :
    LayoutInv (s.assign p a) := ⟨h.toNamed.assign p a, h.nodup⟩

section Insert

variable {ctx : LayoutContext} {i : Nat} {moveUp : Bool} {s s' : LayoutState} {current : Name}
  {align : Align} {off ea ez : Int}

theorem EmptyInserted.keys_fresh (he : EmptyInserted ctx i moveUp s s' current align off ea ez)
    (h : FreshEmptyNames s.reqs) : s'.reqs.keys = s.reqs.keys ++ [emptyName s.reqs] := by
  rw [he.keys_eq, if_neg h.emptyName]

theorem EmptyInserted.position_le (he : EmptyInserted ctx i moveUp s s' current align off ea ez) :
    (if moveUp then i else i + 1) ≤ s.solution.length := by
  obtain ⟨hlt, -⟩ := List.getElem?_eq_some_iff.mp he.current_eq
  split <;> omega

theorem EmptyInserted.solution_perm
    (he : EmptyInserted ctx i moveUp s s' current align off ea ez) :
    s'.solution.Perm (emptyName s.reqs :: s.solution) := by
  rw [he.solution_eq]
  exact List.perm_insertIdx _ _ he.position_le

theorem Named.insert (h : Named s)
    (he : EmptyInserted ctx i moveUp s s' current align off ea ez) : Named s' where
  placed := by
    intro p hp
    rw [he.solution_perm.mem_iff, List.mem_cons] at hp
    rw [he.keys_fresh h.fresh, List.mem_append, List.mem_singleton]
    exact hp.symm.imp (h.placed p) id
  fresh := h.fresh.insert (he.keys_fresh h.fresh)

theorem LayoutInv.insert (h : LayoutInv s)
    (he : EmptyInserted ctx i moveUp s s' current align off ea ez) : LayoutInv s' := by
  refine ⟨h.toNamed.insert he, ?_⟩
  rw [he.solution_perm.nodup_iff, List.nodup_cons]
  exact ⟨h.empty_notMem, h.nodup⟩

theorem EmptyInserted.head (he : EmptyInserted ctx i moveUp s s' current align off ea ez)
    (hi : moveUp = true → i ≠ 0) : s'.solution.head? = s.solution.head? := by
  have hpos : (if moveUp then i else i + 1) ≠ 0 := by
    cases moveUp with
    | true => simpa using hi
    | false => simp
  obtain ⟨k, hk⟩ := Nat.exists_eq_succ_of_ne_zero hpos
  rw [he.solution_eq, hk]
  cases s.solution with
  | nil => rfl
  | cons f rest => rfl

end Insert

theorem LayoutStep.named {ctx : LayoutContext} {s s' : LayoutState} (hstep : LayoutStep ctx s s')
    (h : Named s) : Named s' := by
  cases hstep with
  | assign a hi hp => exact h.assign _ _
  | insert hi hins =>
    obtain ⟨_, _, _, _, _, he⟩ := alignIfRequired_some hins
    exact h.insert he

theorem LayoutStep.head {ctx : LayoutContext} {s s' : LayoutState} (hstep : LayoutStep ctx s s') :
    s'.solution.head? = s.solution.head? := by
  cases hstep with
  | assign => rfl
  | insert hi hins =>
    obtain ⟨_, _, _, _, _, he⟩ := alignIfRequired_some hins
    exact he.head hi

theorem LayoutRun.named {ctx : LayoutContext} {s s' : LayoutState} (hrun : LayoutRun ctx s s')
    (h : Named s) : Named s' := by
  induction hrun with
  | refl => exact h
  | tail _ hstep ih => exact hstep.named ih

theorem LayoutRun.head {ctx : LayoutContext} {s s' : LayoutState} (hrun : LayoutRun ctx s s') :
    s'.solution.head? = s.solution.head? := by
  induction hrun with
  | refl => rfl
  | tail _ hstep ih => exact hstep.head.trans ih

variable {p : Name}

theorem LayoutRun.fixed_of_mem {ctx : LayoutContext} {s s' : LayoutState}
    (hrun : LayoutRun ctx s s') (h : Named s) (hp : p ∈ s.reqs.keys) :
    p ∈ s'.reqs.keys ∧ fixed? s'.reqs p = fixed? s.reqs p := by
  induction hrun with
  | refl => exact ⟨hp, rfl⟩
  | tail hrun hstep ih =>
    have hinv := LayoutRun.named hrun h
    cases hstep with
    | assign a _ _ =>
      rw [LayoutState.assign, keys_setAddress, fixed?_setAddress]
      exact ih
    | insert hi hins =>
      obtain ⟨_, _, _, _, _, he⟩ := alignIfRequired_some hins
      have hne : p ≠ emptyName _ := fun heq => hinv.fresh.emptyName (heq ▸ ih.1)
      rw [he.keys_fresh hinv.fresh, he.fixed_eq p hne]
      exact ⟨List.mem_append_left _ ih.1, ih.2⟩

/-- The partition `f` is the first one and stands nowhere else in the solution. -/
structure FirstAlone (f : Name) (s : LayoutState) : Prop extends Named s where
  head : s.solution.head? = some f
  alone : f ∉ s.solution.tail

namespace FirstAlone

variable {ctx : LayoutContext} {f : Name} {s s' : LayoutState}

theorem getElem?_zero (h : FirstAlone f s) : s.solution[0]? = some f := by
  rw [← List.head?_eq_getElem?, h.head]

theorem ne_of_index (h : FirstAlone f s) {i : Nat} {p : Name} (hp : s.solution[i]? = some p)
    (hi : i ≠ 0) : p ≠ f := by
  rintro rfl
  obtain ⟨j, rfl⟩ := Nat.exists_eq_succ_of_ne_zero hi
  rw [← List.getElem?_tail] at hp
  exact h.alone (List.mem_of_getElem? hp)

theorem assign (h : FirstAlone f s) (p : Name) (a : Int) : FirstAlone f (s.assign p a) :=
  ⟨h.toNamed.assign p a, h.head, h.alone⟩

/-- An empty partition comes somewhere behind the first partition. -/
theorem solution_insert (h : FirstAlone f s) {i : Nat} {moveUp : Bool} {current : Name}
    {align : Align} {off ea ez : Int} (hi : moveUp = true → i ≠ 0)
    (he : EmptyInserted ctx i moveUp s s' current align off ea ez) :
    ∃ rest k, (if moveUp then i else i + 1) = k + 1 ∧ s.solution = f :: rest ∧
      s'.solution = f :: rest.insertIdx k (emptyName s.reqs) := by
  obtain ⟨rest, hrest⟩ := List.head?_eq_some_iff.mp h.head
  obtain ⟨k, hk⟩ : ∃ k, (if moveUp then i else i + 1) = k + 1 := by
    apply Nat.exists_eq_succ_of_ne_zero
    cases moveUp with
    | true => simpa using hi
    | false => simp
  refine ⟨rest, k, hk, hrest, ?_⟩
  rw [he.solution_eq, hk, hrest, List.insertIdx_succ_cons]

theorem step (h : FirstAlone f s) (hstep : LayoutStep ctx s s') : FirstAlone f s' := by
  refine ⟨hstep.named h.toNamed, hstep.head.trans h.head, ?_⟩
  cases hstep with
  | assign => exact h.alone
  | insert hi hins =>
    obtain ⟨_, _, _, _, _, he⟩ := alignIfRequired_some hins
    obtain ⟨rest, k, -, hrest, hsol⟩ := h.solution_insert hi he
    have halone := h.alone
    have hempty := h.empty_notMem
    rw [hrest] at halone hempty
    rw [hsol]
    intro hin
    rcases List.eq_or_mem_of_mem_insertIdx hin with rfl | hin
    · exact hempty (List.mem_cons_self ..)
    · exact halone hin

theorem run (h : FirstAlone f s) (hrun : LayoutRun ctx s s') : FirstAlone f s' := by
  induction hrun with
  | refl => exact h
  | tail _ hstep ih => exact ih.step hstep

theorem address_dynamic (h : FirstAlone f s) (hdyn : f ∈ ctx.dynamicPartitions)
    (hrun : LayoutRun ctx s s') : address? s'.reqs f = address? s.reqs f := by
  induction hrun with
  | refl => rfl
  | @tail t t' hrun hstep ih =>
    have ht := h.run hrun
    rw [← ih]
    cases hstep with
    | assign a hi hp => exact address?_setAddress_of_ne _ _ (ht.ne_of_index hp hi).symm
    | insert hi hins =>
      obtain ⟨current, _, _, _, _, he⟩ := alignIfRequired_some hins
      have hne : f ≠ emptyName t.reqs := fun heq =>
        ht.empty_notMem (heq ▸ List.mem_of_mem_head? ht.head)
      apply he.address_eq f hne
      by_cases hc : f = current
      · exact Or.inr (hc ▸ hdyn)
      · exact Or.inl hc

end FirstAlone

/-- The first partition has been left where the region starts, or the second one is an empty
partition, which stands nowhere else. -/
def FirstKept (start : Int) (f : Name) (s : LayoutState) : Prop :=
  address? s.reqs f = some start ∨ ∃ q, s.solution[1]? = some q ∧ q ∉ s.solution.drop 2

theorem FirstKept.step {ctx : LayoutContext} {start : Int} {f : Name} {s s' : LayoutState}
    (hkept : FirstKept start f s) (h : FirstAlone f s) (hstep : LayoutStep ctx s s') :
    FirstKept start f s' := by
  cases hstep with
  | assign a hi hp =>
    refine hkept.imp_left fun haddr => ?_
    rw [LayoutState.assign, address?_setAddress_of_ne _ _ (h.ne_of_index hp hi).symm, haddr]
  | @insert _ i moveUp hi hins =>
    obtain ⟨current, _, _, _, _, he⟩ := alignIfRequired_some hins
    obtain ⟨rest, k, hk, hrest, hsol⟩ := h.solution_insert hi he
    have hempty := h.empty_notMem
    rw [hrest, List.mem_cons, not_or] at hempty
    rw [FirstKept, hsol]
    rw [FirstKept, hrest] at hkept
    cases k with
    | zero => exact Or.inr ⟨emptyName s.reqs, rfl, hempty.2⟩
    | succ k =>
      -- The partition that is aligned here is not the first one.
      have hi0 : i ≠ 0 := by
        rintro rfl
        cases moveUp <;> simp at hk
      refine hkept.imp (fun haddr => ?_) fun hsecond => ?_
      · rw [he.address_eq f (Ne.symm hempty.1)
          (Or.inl (h.ne_of_index he.current_eq hi0).symm), haddr]
      · obtain ⟨q, hq, hnot⟩ := hsecond
        cases rest with
        | nil => cases hq
        | cons r rest =>
          obtain rfl : r = q := Option.some.inj hq
          refine ⟨r, rfl, fun hin => ?_⟩
          rw [List.insertIdx_succ_cons] at hin
          rcases List.eq_or_mem_of_mem_insertIdx hin with heq | hin
          · exact hempty.2 (heq ▸ List.mem_cons_self ..)
          · exact hnot hin

theorem FirstKept.run {ctx : LayoutContext} {start : Int} {f : Name} {s s' : LayoutState}
    (hkept : FirstKept start f s) (h : FirstAlone f s) (hrun : LayoutRun ctx s s') :
    FirstKept start f s' := by
  induction hrun with
  | refl => exact hkept
  | tail hrun hstep ih => exact ih.step (h.run hrun) hstep

def SecondChained (s : LayoutState) : Prop :=
  ∀ f q, s.solution[0]? = some f → s.solution[1]? = some q → q ∉ s.solution.drop 2 →
    ∃ a z, address? s.reqs f = some a ∧ size? s.reqs f = some z ∧ address? s.reqs q = some (a + z)

theorem SecondChained.assign {f : Name} {s : LayoutState} {i : Nat} {a : Int} (h : SecondChained s)
    (hfirst : FirstAlone f s) (hp : s.solution[i]? = some p) (hi : 2 ≤ i) :
    SecondChained (s.assign p a) := by
  intro g q hg hq hnot
  obtain ⟨b, z, hb, hz, hqb⟩ := h g q hg hq hnot
  obtain rfl : f = g := Option.some.inj (hfirst.getElem?_zero.symm.trans hg)
  have hqp : q ≠ p := by
    rintro rfl
    apply hnot
    apply List.mem_of_getElem? (i := i - 2)
    rw [← hp]
    simp only [LayoutState.assign, List.getElem?_drop]
    congr 1
    omega
  refine ⟨b, z, ?_, ?_, ?_⟩
  · rw [LayoutState.assign, address?_setAddress_of_ne _ _ (hfirst.ne_of_index hp (by omega)).symm]
    exact hb
  · rw [LayoutState.assign, size?_setAddress]
    exact hz
  · rw [LayoutState.assign, address?_setAddress_of_ne _ _ hqp]
    exact hqb

section Second

variable {ctx : LayoutContext} {f : Name}

private theorem one_le_idxOf (ctx : LayoutContext) {s : LayoutState} (h : FirstAlone f s)
    (hne : f ≠ ctx.dp) : 1 ≤ s.solution.idxOf ctx.dp := by
  obtain ⟨rest, hrest⟩ := List.head?_eq_some_iff.mp h.head
  rw [hrest, List.idxOf_cons_ne _ hne]
  omega

private theorem alignOrRestart_second {restart : LayoutState → Py LayoutState} {i : Nat}
    {moveUp : Bool} {s s' : LayoutState} (hi : moveUp = true → i ≠ 0)
    (hrun : ∀ t t', restart t = .ok t' → LayoutRun ctx t t')
    (hrestart : ∀ t t', FirstAlone f t → restart t = .ok t' → SecondChained t')
    (h : FirstAlone f s) (hor : AlignOrRestart ctx restart i moveUp s s') :
    s' = s ∨ (FirstAlone f s' ∧ SecondChained s') := by
  obtain ⟨-, rfl⟩ | ⟨t, hins, hres⟩ := hor
  · exact Or.inl rfl
  · have ht := h.run (.single (LayoutStep.insert hi hins))
    exact Or.inr ⟨ht.run (hrun t s' hres), hrestart t s' ht hres⟩

/-- When the assignment returns, the second partition follows the first one, unless the first
one is the dynamic partition. -/
theorem assignAddresses_second {depth : Nat} {s s' : LayoutState} (hfirst : FirstAlone f s)
    (hne : f ≠ ctx.dp) (h : assignAddresses ctx depth s = .ok s') : SecondChained s' := by
  induction depth generalizing s s' with
  | zero => cases h
  | succ depth ih =>
    obtain ⟨m, hfwd, hbwd⟩ := assignAddresses_succ h
    have hrestart (t t' : LayoutState) (ht : FirstAlone f t)
        (hres : assignAddresses ctx depth t = .ok t') : SecondChained t' := ih ht hres
    -- The first loop visits position 1, or a restart has done so.
    have hm := runSteps_induction
      (fun is t => FirstAlone f t ∧ (SecondChained t ∨ 1 ∈ is)) ?_ ⟨hfirst, Or.inr ?_⟩ hfwd
    · obtain ⟨hstart, hsecond⟩ := hm
      have hsecond : SecondChained m := by simpa using hsecond
      have hone := one_le_idxOf ctx hstart hne
      refine (runSteps_induction (fun is t => FirstAlone f t ∧ SecondChained t ∧
        ∀ i ∈ is, 2 ≤ i) ?_ ⟨hstart, hsecond, ?_⟩ hbwd).2.1
      · intro i is t t' ⟨ht, hchain, his⟩ hstep
        have hi := his i (List.mem_cons_self ..)
        have his' := fun j hj => his j (List.mem_cons_of_mem i hj)
        obtain ⟨p, b, hp, -, hor⟩ := backwardStep_cases hstep
        have ht' : FirstAlone f (t.assign p b) := ht.assign p b
        rcases alignOrRestart_second (by simp) (fun _ _ hr => assignAddresses_run
          (reportRecursion_eq_ok hr)) (fun _ _ hst hr => hrestart _ _ hst
          (reportRecursion_eq_ok hr)) ht' hor with rfl | ⟨hst, hch⟩
        · exact ⟨ht', hchain.assign ht hp hi, his'⟩
        · exact ⟨hst, hch, his'⟩
      · intro i hi
        rw [List.mem_reverse, List.mem_range'_1] at hi
        omega
    · intro i is t t' ⟨ht, hor₁⟩ hstep
      cases i with
      | zero =>
        have hor₁ : SecondChained t ∨ 1 ∈ is := by simpa using hor₁
        obtain ⟨_, _, _, _, ⟨-, rfl⟩ | hor⟩ := forwardStep_zero hstep
        · exact ⟨ht, hor₁⟩
        · rcases alignOrRestart_second (by simp) (fun _ _ => assignAddresses_run) hrestart ht hor
            with rfl | ⟨hst, hch⟩
          · exact ⟨ht, hor₁⟩
          · exact ⟨hst, Or.inl hch⟩
      | succ i =>
        obtain ⟨p, q, a, z, hp, hq, ha, hz, hmem, hor⟩ := forwardStep_succ hstep
        have ht' : FirstAlone f (t.assign p (a + z)) := ht.assign p (a + z)
        rcases alignOrRestart_second (by simp) (fun _ _ => assignAddresses_run) hrestart ht' hor
          with rfl | ⟨hst, hch⟩
        · refine ⟨ht', ?_⟩
          cases i with
          | zero =>
            left
            intro f' q' hf' hq' _
            obtain rfl : f' = q := Option.some.inj (hf'.symm.trans hq)
            obtain rfl : q' = p := Option.some.inj (hq'.symm.trans hp)
            obtain rfl : f = f' := Option.some.inj (ht.getElem?_zero.symm.trans hq)
            refine ⟨a, z, ?_, ?_, address?_setAddress_self _ hmem⟩
            · rw [LayoutState.assign,
                address?_setAddress_of_ne _ _ (ht.ne_of_index hp one_ne_zero).symm, ha]
            · rw [LayoutState.assign, size?_setAddress, hz]
          | succ i =>
            rcases hor₁ with hch | hin
            · exact Or.inl (hch.assign ht hp (by omega))
            · exact Or.inr (by simpa using hin)
        · exact ⟨hst, Or.inl hch⟩
    · rw [List.mem_range]
      have := one_le_idxOf ctx hfirst hne
      omega

end Second

/-- A partition without what `set_shared_size` writes. -/
def Req.unshared {R : Type} (v : Req R) : Req R :=
  { v with size := none, shareSize := none, sharers := none }

structure SharesOnly (reqs reqs' : PlainReqs) : Prop where
  keys : reqs'.keys = reqs.keys
  unshared : ∀ p, (reqs'.get? p).map Req.unshared = (reqs.get? p).map Req.unshared

namespace SharesOnly

variable {reqs reqs₁ reqs₂ : PlainReqs}

theorem refl (reqs : PlainReqs) : SharesOnly reqs reqs := ⟨rfl, fun _ => rfl⟩

theorem trans (h : SharesOnly reqs reqs₁) (h' : SharesOnly reqs₁ reqs₂) : SharesOnly reqs reqs₂ :=
  ⟨h'.keys.trans h.keys, fun p => (h'.unshared p).trans (h.unshared p)⟩

theorem modify {k : Name} {f : Req (List Name) → Req (List Name)}
    (hf : ∀ v, (f v).unshared = v.unshared) : SharesOnly reqs (reqs.modify k f) := by
  refine ⟨Dict.keys_modify _ _ _, fun p => ?_⟩
  rw [Dict.get?_modify]
  split
  · cases reqs.get? p with
    | none => rfl
    | some v => exact congrArg some (hf v)
  · rfl

theorem setSize (p : Name) (z : Int) : SharesOnly reqs (setSize reqs p z) :=
  modify fun _ => rfl

theorem foldl_setSize (sizes : List (Name × Int)) (reqs : PlainReqs) :
    SharesOnly reqs (sizes.foldl (fun reqs e => PartitionManager.setSize reqs e.1 e.2) reqs) := by
  induction sizes generalizing reqs with
  | nil => exact refl _
  | cons e sizes ih => exact (setSize e.1 e.2).trans (ih _)

theorem placement (h : SharesOnly reqs reqs₁) (p : Name) :
    (reqs₁.get? p).bind Req.placement = (reqs.get? p).bind Req.placement := by
  have := congrArg (fun o => o.bind Req.placement) (h.unshared p)
  simpa [Option.bind_map, Function.comp_def, Req.unshared] using this

theorem span (h : SharesOnly reqs reqs₁) (p : Name) :
    (reqs₁.get? p).bind Req.span = (reqs.get? p).bind Req.span := by
  have := congrArg (fun o => o.bind Req.span) (h.unshared p)
  simpa [Option.bind_map, Function.comp_def, Req.unshared] using this

end SharesOnly

variable {keys : List Name}

theorem countSharers_sharesOnly {fuel : Nat} {reqs reqs' : PlainReqs}
    (h : countSharers fuel keys reqs = .ok reqs') : SharesOnly reqs reqs' := by
  induction keys generalizing reqs with
  | nil =>
    cases h
    exact .refl _
  | cons req rest ih =>
    rw [countSharers] at h
    split at h
    · obtain ⟨source, _, h⟩ := bind_eq_ok.mp h
      have hcount : SharesOnly reqs (reqs.modify source fun v =>
          { v with sharers := some (v.sharers.getD 0 + 1) }) := .modify fun _ => rfl
      refine (hcount.trans ?_).trans (ih h)
      exact .modify fun _ => rfl
    · exact ih h

variable {totalSize : Int}

theorem setStaticSizes_sharesOnly {dp : Name} {reqs reqs' : PlainReqs}
    (h : setStaticSizes totalSize dp keys reqs = .ok reqs') :
    SharesOnly reqs reqs' := by
  induction keys generalizing reqs with
  | nil =>
    cases h
    exact .refl _
  | cons req rest ih =>
    rw [setStaticSizes] at h
    split at h
    · obtain ⟨z, _, h⟩ := bind_eq_ok.mp h
      exact (SharesOnly.setSize req z).trans (ih h)
    · simp at h

theorem setSharedSize_sharesOnly {fuel : Nat} {reqs reqs' : PlainReqs} {dp : Name}
    (h : setSharedSize fuel reqs totalSize dp = .ok reqs') :
    SharesOnly reqs reqs' := by
  simp only [setSharedSize, bind_eq_ok, pure_eq_ok] at h
  obtain ⟨counted, hcount, static, hstatic, sizes, _, rfl⟩ := h
  exact ((countSharers_sharesOnly hcount).trans (setStaticSizes_sharesOnly hstatic)).trans
    (SharesOnly.foldl_setSize _ _)

theorem countSharers_shareSize {fuel : Nat} {reqs reqs' : PlainReqs}
    (hp : (reqs.get? p).bind Req.shareSize = none) (h : countSharers fuel keys reqs = .ok reqs') :
    (reqs'.get? p).bind Req.shareSize = none := by
  induction keys generalizing reqs with
  | nil =>
    cases h
    exact hp
  | cons req rest ih =>
    rw [countSharers] at h
    split at h
    next hreq =>
      obtain ⟨source, _, h⟩ := bind_eq_ok.mp h
      refine ih ?_ h
      have hne : p ≠ req := by
        rintro rfl
        rw [hp] at hreq
        cases hreq
      rw [Dict.get?_modify_of_ne _ _ hne, Dict.get?_modify]
      split
      · cases hv : reqs.get? p with
        | none => rfl
        | some v => simpa [hv] using hp
      · exact hp
    next => exact ih hp h

private theorem shareSize_setSize (reqs : PlainReqs) (p q : Name) (z : Int) :
    ((setSize reqs q z).get? p).bind Req.shareSize = (reqs.get? p).bind Req.shareSize := by
  rw [setSize, Dict.get?_modify]
  split <;> cases reqs.get? p <;> rfl

private theorem shareSize_setStaticSizes {dp p : Name} {reqs reqs' : PlainReqs}
    (h : setStaticSizes totalSize dp keys reqs = .ok reqs') :
    (reqs'.get? p).bind Req.shareSize = (reqs.get? p).bind Req.shareSize := by
  induction keys generalizing reqs with
  | nil =>
    cases h
    rfl
  | cons req rest ih =>
    rw [setStaticSizes] at h
    split at h
    · obtain ⟨z, _, h⟩ := bind_eq_ok.mp h
      rw [ih h, shareSize_setSize]
    · simp at h

private theorem shareSize_foldl_setSize (sizes : List (Name × Int)) (reqs : PlainReqs) (p : Name) :
    ((sizes.foldl (fun reqs e => setSize reqs e.1 e.2) reqs).get? p).bind Req.shareSize =
      (reqs.get? p).bind Req.shareSize := by
  induction sizes generalizing reqs with
  | nil => rfl
  | cons e sizes ih => rw [List.foldl_cons, ih, shareSize_setSize]

theorem setSharedSize_shareSize {fuel : Nat} {reqs reqs' : PlainReqs} {dp p : Name}
    (hp : (reqs.get? p).bind Req.shareSize = none)
    (h : setSharedSize fuel reqs totalSize dp = .ok reqs') :
    (reqs'.get? p).bind Req.shareSize = none := by
  simp only [setSharedSize, bind_eq_ok, pure_eq_ok] at h
  obtain ⟨counted, hcount, static, hstatic, sizes, _, rfl⟩ := h
  rw [shareSize_foldl_setSize, shareSize_setStaticSizes hstatic]
  exact countSharers_shareSize hp hcount

def beforeAssignment (shared : PlainReqs) (size : Int) (dp first : Name) (start : Int) :
    PlainReqs :=
  setAddress (setSize shared dp (dynamicPartitionsSize shared size dp)) first start

def layoutContext (shared : PlainReqs) (size : Int) (dp : Name) (start : Int) : LayoutContext :=
  { size, start, dynamicPartitions := dp :: getDependentPartitions shared dp, dp }

theorem setAddressesAndAlign_eq_ok {fuel depth : Nat} {r : Resolved} {size : Int} {dp : Name}
    {start : Int} {s : LayoutState} (h : setAddressesAndAlign fuel depth r size dp start = .ok s) :
    ∃ shared first, setSharedSize fuel r.reqs size dp = .ok shared ∧ dp ∈ shared.keys ∧
      r.solution.head? = some first ∧ first ∈ shared.keys ∧
      if 1 < shared.keys.length then
        assignAddresses (layoutContext shared size dp start) depth
          { reqs := beforeAssignment shared size dp first start, solution := r.solution } = .ok s ∧
          verifyLayout s.reqs s.solution size start = .ok ()
      else s = { reqs := beforeAssignment shared size dp first start, solution := r.solution } := by
  simp only [setAddressesAndAlign, bind_eq_ok, storeSize_eq_ok, storeAddress_eq_ok,
    indexAt_eq_ok] at h
  obtain ⟨shared, hshared, _, ⟨hdp, rfl⟩, first, hfirst, _, ⟨hmem, rfl⟩, h⟩ := h
  rw [keys_setSize] at hmem
  rw [keys_setAddress, keys_setSize] at h
  refine ⟨shared, first, hshared, hdp, by rw [List.head?_eq_getElem?, hfirst], hmem, ?_⟩
  split_ifs at h ⊢
  · simp only [bind_eq_ok, pure_eq_ok] at h
    obtain ⟨s', hassign, ⟨⟩, hverify, rfl⟩ := h
    exact ⟨hassign, hverify⟩
  · exact (pure_eq_ok.mp h).symm

theorem verifyChain_tiles {reqs : PlainReqs} {ps : List Name} {a : Int}
    (h : verifyChain reqs ps a = .ok ()) : ∃ b, Tiles (address? reqs) (size? reqs) ps a b := by
  induction ps generalizing a with
  | nil => exact ⟨a, rfl⟩
  | cons p ps ih =>
    simp only [verifyChain, bind_eq_ok, addressAt_eq_ok, ne_eq] at h
    obtain ⟨actual, hactual, h⟩ := h
    by_cases heq : actual = a
    · simp only [heq, not_true_eq_false, if_false, bind_eq_ok, sizeAt_eq_ok] at h
      obtain ⟨z, hz, h⟩ := h
      obtain ⟨b, hb⟩ := ih h
      exact ⟨b, z, heq ▸ hactual, hz, hb⟩
    · simp [heq] at h

theorem verifyLayout_eq_ok {reqs : PlainReqs} {f : Name} {ps : List Name} {size start : Int}
    (h : verifyLayout reqs (f :: ps) size start = .ok ()) :
    ∃ z b, size? reqs f = some z ∧ Tiles (address? reqs) (size? reqs) ps (start + z) b ∧
      ∃ l a zl, (f :: ps).getLast? = some l ∧ address? reqs l = some a ∧
        size? reqs l = some zl ∧ a + zl = start + size := by
  simp only [verifyLayout, bind_eq_ok, indexAt_eq_ok, sizeAt_eq_ok, addressAt_eq_ok,
    List.getElem?_cons_zero, Option.some.injEq, List.drop_one, List.tail_cons] at h
  obtain ⟨f', rfl, z, hz, ⟨⟩, hchain, l, hl, a, ha, zl, hzl, h⟩ := h
  obtain ⟨b, hb⟩ := verifyChain_tiles hchain
  refine ⟨z, b, hz, hb, l, a, zl, ?_, ha, hzl, ?_⟩
  · rw [List.getLast?_eq_getElem?, hl]
  · by_contra hne
    simp [hne] at h

theorem verifyLayout_tiles {reqs : PlainReqs} {f : Name} {ps : List Name} {size start : Int}
    (hfirst : address? reqs f = some start)
    (h : verifyLayout reqs (f :: ps) size start = .ok ()) :
    Tiles (address? reqs) (size? reqs) (f :: ps) start (start + size) := by
  obtain ⟨z, b, hz, hb, l, a, zl, hl, ha, hzl, hend⟩ := verifyLayout_eq_ok h
  have htiles : Tiles (address? reqs) (size? reqs) (f :: ps) start b := ⟨z, hfirst, hz, hb⟩
  obtain ⟨x, y, hx, hy, hxy⟩ := htiles.last hl
  rw [ha, Option.some.injEq] at hx
  rw [hzl, Option.some.injEq] at hy
  rwa [← hend, hx, hy, hxy]

theorem LayoutStep.mem_solution {ctx : LayoutContext} {s s' : LayoutState}
    (hstep : LayoutStep ctx s s') (hp : p ∈ s.solution) : p ∈ s'.solution := by
  cases hstep with
  | assign => exact hp
  | insert hi hins =>
    obtain ⟨_, _, _, _, _, he⟩ := alignIfRequired_some hins
    exact he.solution_perm.mem_iff.mpr (List.mem_cons_of_mem _ hp)

theorem LayoutRun.mem_solution {ctx : LayoutContext} {s s' : LayoutState}
    (hrun : LayoutRun ctx s s') (hp : p ∈ s.solution) : p ∈ s'.solution := by
  induction hrun with
  | refl => exact hp
  | tail _ hstep ih => exact hstep.mem_solution ih

/-- Without the inserted empty partitions the solution is what it was. -/
theorem LayoutRun.filter_solution {ctx : LayoutContext} {s s' : LayoutState} (h : Named s)
    (hrun : LayoutRun ctx s s') : s'.solution.filter (· ∈ s.solution) = s.solution := by
  induction hrun with
  | refl => exact List.filter_eq_self.mpr fun p hp => by simpa using hp
  | @tail t t' hrun hstep ih =>
    cases hstep with
    | assign => exact ih
    | insert hi hins =>
      obtain ⟨_, _, _, _, _, he⟩ := alignIfRequired_some hins
      have hempty : emptyName t.reqs ∉ s.solution := fun hin =>
        (LayoutRun.named hrun h).empty_notMem (LayoutRun.mem_solution hrun hin)
      rw [he.solution_eq, filter_insertIdx_of_neg (by simpa using hempty), ih]

private theorem first_address {ctx : LayoutContext} {depth : Nat} {s s' : LayoutState} {f : Name}
    (hfirst : FirstAlone f s) (hdyn : ctx.dp ∈ ctx.dynamicPartitions)
    (hstart : address? s.reqs f = some ctx.start) (h : assignAddresses ctx depth s = .ok s')
    (hverify : verifyLayout s'.reqs s'.solution ctx.size ctx.start = .ok ()) :
    address? s'.reqs f = some ctx.start := by
  have hrun := assignAddresses_run h
  by_cases hmem : f ∈ ctx.dynamicPartitions
  · rw [hfirst.address_dynamic hmem hrun, hstart]
  have hne : f ≠ ctx.dp := fun heq => hmem (heq ▸ hdyn)
  rcases FirstKept.run (Or.inl hstart) hfirst hrun with haddr | ⟨q, hq, hnot⟩
  · exact haddr
  -- The second partition touches the first one, and its address has been verified.
  · have hfirst' := hfirst.run hrun
    obtain ⟨a, z', ha, hz', hqa⟩ :=
      assignAddresses_second hfirst hne h f q hfirst'.getElem?_zero hq hnot
    obtain ⟨rest, hrest⟩ := List.head?_eq_some_iff.mp hfirst'.head
    rw [hrest] at hverify hq
    obtain ⟨r, rest, rfl⟩ : ∃ r qs, rest = r :: qs := by
      cases rest with
      | nil => cases hq
      | cons r qs => exact ⟨r, qs, rfl⟩
    obtain rfl : r = q := Option.some.inj hq
    obtain ⟨z, b, hz, hb, -⟩ := verifyLayout_eq_ok hverify
    rw [hb.head, Option.some.injEq] at hqa
    rw [hz, Option.some.injEq] at hz'
    rw [ha, Option.some.injEq]
    omega

/-- The first partition of the order that `resolve` returns stands nowhere else in it, and no
partition bears a name that is still to be given to an empty partition. -/
structure FirstOnce (r : Resolved) : Prop where
  alone : ∀ f, r.solution.head? = some f → f ∉ r.solution.tail
  fresh : FreshEmptyNames r.reqs

section Layout

variable {ord : SetOrder Name} {fuel depth : Nat} {dp : Name} {pre cleaned : PlainReqs}
  {r : Resolved} {unsolved : List Name} {size start : Int} {s : LayoutState}

variable {shared : PlainReqs}

theorem SolvedFrom.placed (h : SolvedFrom ord dp pre r cleaned unsolved)
    (hshared : setSharedSize fuel r.reqs size dp = .ok shared) (hdp : dp ∈ shared.keys) :
    ∀ p ∈ r.solution, p ∈ shared.keys := by
  intro p hp
  rcases h.mem_solution hp with rfl | hp
  · exact hdp
  · rw [(setSharedSize_sharesOnly hshared).keys, h.keys]
    exact (mem_leafKeys.mp hp).1

theorem SolvedFrom.named (h : SolvedFrom ord dp pre r cleaned unsolved)
    (hfresh : FreshEmptyNames r.reqs) (first : Name) (start : Int)
    (hshared : setSharedSize fuel r.reqs size dp = .ok shared) (hdp : dp ∈ shared.keys) :
    Named { reqs := beforeAssignment shared size dp first start, solution := r.solution } := by
  have hkeys : (beforeAssignment shared size dp first start).keys = shared.keys := by
    rw [beforeAssignment, keys_setAddress, keys_setSize]
  constructor
  · intro p hp
    rw [hkeys]
    exact h.placed hshared hdp p hp
  · exact hfresh.congr (hkeys.trans (setSharedSize_sharesOnly hshared).keys)

theorem SolvedFrom.layoutInv (h : SolvedFrom ord dp pre r cleaned unsolved)
    (honce : PlacedOnce pre dp) (hfresh : FreshEmptyNames pre) (first : Name) (start : Int)
    (hshared : setSharedSize fuel r.reqs size dp = .ok shared) (hdp : dp ∈ shared.keys) :
    LayoutInv { reqs := beforeAssignment shared size dp first start, solution := r.solution } :=
  ⟨h.named (hfresh.congr h.keys) first start hshared hdp, h.solution_nodup honce⟩

private theorem dynamicPartitionsSize_single {reqs : PlainReqs} {totalSize : Int}
    (hdp : dp ∈ reqs.keys) (hlen : reqs.keys.length ≤ 1) :
    dynamicPartitionsSize reqs totalSize dp = totalSize := by
  obtain ⟨k, hk⟩ : ∃ k, reqs.keys = [k] := by
    rw [← List.length_eq_one_iff]
    have := List.length_pos_of_mem hdp
    omega
  rw [hk, List.mem_singleton] at hdp
  have hall : ∀ e ∈ reqs.items, e.1 = dp := by
    intro e he
    have : e.1 ∈ reqs.keys := List.mem_map_of_mem he
    rw [hk, List.mem_singleton] at this
    rw [this, hdp]
  rw [dynamicPartitionsSize, List.filterMap_eq_nil_iff.mpr fun e he => by simp [hall e he]]
  simp

private theorem tiles_single (honce : FirstOnce r) (hdp : dp ∈ r.solution) {first : Name}
    (hfirst : r.solution.head? = some first) (hin : ∀ p ∈ r.solution, p ∈ shared.keys)
    (hlen : shared.keys.length ≤ 1) :
    Tiles (address? (beforeAssignment shared size dp first start))
      (size? (beforeAssignment shared size dp first start)) r.solution start (start + size) := by
  have hmem := hin dp hdp
  obtain ⟨k, hk⟩ : ∃ k, shared.keys = [k] := by
    rw [← List.length_eq_one_iff]
    have := List.length_pos_of_mem hmem
    omega
  have hall : ∀ p ∈ r.solution, p = dp := by
    simp only [hk, List.mem_singleton] at hin
    exact fun p hp => (hin p hp).trans (hin dp hdp).symm
  obtain ⟨rest, hrest⟩ := List.head?_eq_some_iff.mp hfirst
  have halone := honce.alone first hfirst
  obtain rfl : first = dp := hall first (List.mem_of_mem_head? hfirst)
  rw [hrest, List.tail_cons] at halone
  obtain rfl : rest = [] := by
    rw [List.eq_nil_iff_forall_not_mem]
    exact fun p hp => halone (hall p (by rw [hrest]; exact List.mem_cons_of_mem _ hp) ▸ hp)
  rw [hrest, beforeAssignment]
  refine ⟨size, address?_setAddress_self _ (by rwa [keys_setSize]), ?_, rfl⟩
  rw [size?_setAddress, size?_setSize_self _ hmem, dynamicPartitionsSize_single hmem hlen]

theorem SolvedFrom.firstOnce (h : SolvedFrom ord dp pre r cleaned unsolved)
    (honce : PlacedOnce pre dp) (hfresh : FreshEmptyNames pre) : FirstOnce r where
  alone := by
    intro f hf hin
    obtain ⟨rest, hrest⟩ := List.head?_eq_some_iff.mp hf
    have hnd := h.solution_nodup honce
    rw [hrest, List.nodup_cons] at hnd
    rw [hrest] at hin
    exact hnd.1 hin
  fresh := hfresh.congr h.keys

theorem SolvedFrom.tiles (h : SolvedFrom ord dp pre r cleaned unsolved) (honce : FirstOnce r)
    (hs : setAddressesAndAlign fuel depth r size dp start = .ok s) :
    Tiles (address? s.reqs) (size? s.reqs) s.solution start (start + size) := by
  obtain ⟨shared, first, hshared, hdp, hfirst, hmem, hs⟩ := setAddressesAndAlign_eq_ok hs
  split_ifs at hs with hlen
  · obtain ⟨hassign, hverify⟩ := hs
    have hfirst' : FirstAlone first
        { reqs := beforeAssignment shared size dp first start, solution := r.solution } :=
      ⟨h.named honce.fresh first start hshared hdp, hfirst, honce.alone first hfirst⟩
    have hstart : address? (beforeAssignment shared size dp first start) first = some start :=
      address?_setAddress_self _ (by rwa [keys_setSize])
    have hfa := first_address hfirst' (List.mem_cons_self ..) hstart hassign hverify
    obtain ⟨ps, hps⟩ := List.head?_eq_some_iff.mp
      ((LayoutRun.head (assignAddresses_run hassign)).trans hfirst)
    rw [hps] at hverify ⊢
    exact verifyLayout_tiles hfa hverify
  · subst hs
    exact tiles_single honce h.dynamic_mem hfirst (h.placed hshared hdp) (by omega)

end Layout

/-- The solution chains over the region: it starts at `start`, every partition begins where the
one before it ends, and the last one ends at `start + size`. -/
structure AddressChain (s : LayoutState) (start size : Int) : Prop where
  nonempty : s.solution ≠ []
  first : ∀ p, s.solution[0]? = some p → address? s.reqs p = some start
  next : ∀ i p q, s.solution[i]? = some p → s.solution[i + 1]? = some q →
    ∃ a z, address? s.reqs p = some a ∧ size? s.reqs p = some z ∧ address? s.reqs q = some (a + z)
  last : ∀ p, s.solution.getLast? = some p →
    ∃ a z, address? s.reqs p = some a ∧ size? s.reqs p = some z ∧ a + z = start + size

theorem addressChain_of_tiles {s : LayoutState} {start size : Int}
    (h : Tiles (address? s.reqs) (size? s.reqs) s.solution start (start + size))
    (hne : s.solution ≠ []) : AddressChain s start size where
  nonempty := hne
  first := by
    intro p hp
    obtain ⟨q, ps, hps⟩ := List.exists_cons_of_ne_nil hne
    rw [hps, List.getElem?_cons_zero, Option.some.injEq] at hp
    rw [hps] at h
    exact hp ▸ h.head
  next := fun _ _ _ hp hq => h.next hp hq
  last := fun _ hp => h.last hp

/-- Every address is the sum of the sizes before it. -/
theorem AddressChain.address_eq {s : LayoutState} {start size : Int} (h : AddressChain s start size)
    {j : Nat} (hp : s.solution[j]? = some p) :
    address? s.reqs p = some (start + ((s.solution.take j).filterMap (size? s.reqs)).sum) := by
  induction j generalizing p with
  | zero => simpa using h.first p hp
  | succ j ih =>
    obtain ⟨q, hq⟩ : ∃ q, s.solution[j]? = some q := by
      obtain ⟨hlt, -⟩ := List.getElem?_eq_some_iff.mp hp
      exact ⟨_, List.getElem?_eq_getElem (Nat.lt_of_succ_lt hlt)⟩
    obtain ⟨a, z, ha, hz, hpa⟩ := h.next j q p hq hp
    rw [ih hq, Option.some.injEq] at ha
    rw [hpa, ← ha, List.take_add_one, hq, List.filterMap_append, List.sum_append]
    simp [hz, Int.add_assoc]

section Layout

variable {ord : SetOrder Name} {fuel depth : Nat} {reqs : Reqs YamlRefs} {dp : Name}
  {pre : PlainReqs} {r : Resolved} {size start : Int} {s : LayoutState}

theorem resolve_eq_ok (hprep : prepare reqs dp = .ok pre) (h : resolve ord fuel reqs dp = .ok r) :
    ∃ cleaned unsolved, SolvedFrom ord dp pre r cleaned unsolved := by
  simp only [resolve, bind_eq_ok] at h
  obtain ⟨pre', hpre', h⟩ := h
  rw [hprep, Except.ok.injEq] at hpre'
  subst hpre'
  exact resolvePrepared_eq_ok h

end Layout

/-- A placement in front of `app` with an aligned end. -/
def endAligned : Placement YamlRefs :=
  ⟨[.before (.str "app"), .align ⟨[("end", 800)], by decide⟩], by decide⟩

def alignedFirst : Reqs YamlRefs :=
  ⟨[("first", { size := some 100, placement := some endAligned }),
    ("app", { region := some "flash_primary" })], by decide⟩

def bothEnds : Reqs YamlRefs :=
  ⟨[("x", { shareSize := some (.str "none"),
              placement := some ⟨[.after (.str "start"), .before (.str "end")], by decide⟩ }),
    ("none", { span := some (.list []) }),
    ("app", { region := some "flash_primary" })], by decide⟩

end SdkNrf.PartitionManager
