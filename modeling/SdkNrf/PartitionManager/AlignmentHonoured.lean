import SdkNrf.PartitionManager.AddressChain
import SdkNrf.PartitionManager.Prepared

/-!
# Alignment is honoured

Every address that is assigned is checked at once, and sizes change only when an empty partition is inserted,
after which everything is assigned again.
-/

namespace SdkNrf.PartitionManager

/-- The partition at position `j` is aligned, or it is the first one and the special handling
of `first_partition_has_been_aligned` applies to it. -/
def SlotAligned (s : LayoutState) (j : Nat) : Prop :=
  ∀ p, s.solution[j]? = some p → Aligned s.reqs p ∨
    (j = 0 ∧ ∃ v, s.reqs.get? p = some v ∧
      firstPartitionHasBeenAligned v s.solution = .ok true)

theorem aligned_assign_of_ne {s : LayoutState} {p q : Name} {a : Int} (h : q ≠ p)
    (hq : Aligned s.reqs q) : Aligned (s.assign p a).reqs q := by
  intro align halign
  rw [LayoutState.assign, alignOf_eq_fixed, fixed?_setAddress, ← alignOf_eq_fixed] at halign
  obtain ⟨b, z, hb, hz, hholds⟩ := hq align halign
  refine ⟨b, z, ?_, by rw [LayoutState.assign, size?_setAddress, hz], hholds⟩
  rw [LayoutState.assign, address?_setAddress_of_ne _ _ h, hb]

theorem slotAligned_assign {s : LayoutState} {p : Name} {a : Int} {j : Nat}
    (hp : Aligned (s.assign p a).reqs p) (hj : SlotAligned s j) : SlotAligned (s.assign p a) j := by
  intro q hq
  by_cases hqp : q = p
  · subst hqp
    exact Or.inl hp
  · rcases hj q hq with hal | ⟨hzero, v, hv, hfirst⟩
    · exact Or.inl (aligned_assign_of_ne hqp hal)
    · refine Or.inr ⟨hzero, v, ?_, hfirst⟩
      rw [LayoutState.assign, setAddress, Dict.get?_modify_of_ne _ _ hqp, hv]

section Loops

variable {ctx : LayoutContext} {restart : LayoutState → Py LayoutState}

/-- One round of either loop after the address has been stored: all slots are aligned after a
restart, otherwise the slots that were aligned still are and the current one joins them. -/
private theorem alignOrRestart_slots {i : Nat} {moveUp : Bool} {p : Name} {a : Int}
    {s s' : LayoutState} (hrestart : ∀ t t', restart t = .ok t' → ∀ j, SlotAligned t' j)
    (hp : s.solution[i]? = some p)
    (h : AlignOrRestart ctx restart i moveUp (s.assign p a) s') :
    (∀ j, SlotAligned s' j) ∨
      (s'.solution = s.solution ∧ SlotAligned s' i ∧ ∀ j, SlotAligned s j → SlotAligned s' j) := by
  obtain ⟨hnone, rfl⟩ | ⟨t, -, hres⟩ := h
  · right
    obtain ⟨q, hq, hal⟩ := alignIfRequired_none hnone
    have hqp : q = p := Option.some.inj (hq.symm.trans hp)
    subst hqp
    refine ⟨rfl, ?_, fun j hj => slotAligned_assign hal hj⟩
    intro r hr
    have hrq : r = q := Option.some.inj (hr.symm.trans hp)
    subst hrq
    exact Or.inl hal
  · exact Or.inl (hrestart t s' hres)

private theorem forwardStep_slots {i : Nat} {s s' : LayoutState}
    (hrestart : ∀ t t', restart t = .ok t' → ∀ j, SlotAligned t' j)
    (h : forwardStep ctx restart i s = .ok s') :
    (∀ j, SlotAligned s' j) ∨
      (s'.solution = s.solution ∧ SlotAligned s' i ∧ ∀ j, SlotAligned s j → SlotAligned s' j) := by
  cases i with
  | zero =>
    obtain ⟨p, v, hp, hv, ⟨hfirst, rfl⟩ | ⟨hnone, rfl⟩ | ⟨t, -, hres⟩⟩ := forwardStep_zero h
    · refine Or.inr ⟨rfl, ?_, fun j hj => hj⟩
      intro q hq
      have hqp : q = p := Option.some.inj (hq.symm.trans hp)
      subst hqp
      exact Or.inr ⟨rfl, v, hv, hfirst⟩
    · refine Or.inr ⟨rfl, ?_, fun j hj => hj⟩
      obtain ⟨q, hq, hal⟩ := alignIfRequired_none hnone
      intro r hr
      have hrq : r = q := Option.some.inj (hr.symm.trans hq)
      subst hrq
      exact Or.inl hal
    · exact Or.inl (hrestart t s' hres)
  | succ i =>
    obtain ⟨p, q, a, z, hp, -, -, -, -, hor⟩ := forwardStep_succ h
    exact alignOrRestart_slots hrestart hp hor

private theorem backwardStep_slots {i : Nat} {s s' : LayoutState}
    (hrestart : ∀ t t', restart t = .ok t' → ∀ j, SlotAligned t' j)
    (h : backwardStep ctx restart i s = .ok s') :
    (∀ j, SlotAligned s' j) ∨
      (s'.solution = s.solution ∧ SlotAligned s' i ∧ ∀ j, SlotAligned s j → SlotAligned s' j) := by
  obtain ⟨p, b, hp, -, hor⟩ := backwardStep_cases h
  exact alignOrRestart_slots hrestart hp hor

private theorem runSteps_slots {step : Nat → LayoutState → Py LayoutState} {is : List Nat}
    {s s' : LayoutState}
    (hstep : ∀ i s s', step i s = .ok s' → (∀ j, SlotAligned s' j) ∨
      (s'.solution = s.solution ∧ SlotAligned s' i ∧ ∀ j, SlotAligned s j → SlotAligned s' j))
    (h : runSteps step is s = .ok s') :
    (∀ j, SlotAligned s' j) ∨ (s'.solution = s.solution ∧ (∀ i ∈ is, SlotAligned s' i) ∧
      ∀ j, SlotAligned s j → SlotAligned s' j) := by
  induction is generalizing s with
  | nil =>
    cases h
    exact Or.inr ⟨rfl, by simp, fun j hj => hj⟩
  | cons i is ih =>
    simp only [runSteps, bind_eq_ok] at h
    obtain ⟨t, ht, h⟩ := h
    rcases ih h with hall | ⟨hsol, hvisited, hkeep⟩
    · exact Or.inl hall
    · rcases hstep i s t ht with hall | ⟨hsol', hi, hkeep'⟩
      · exact Or.inl fun j => hkeep j (hall j)
      · refine Or.inr ⟨hsol.trans hsol', ?_, fun j hj => hkeep j (hkeep' j hj)⟩
        intro k hk
        rcases List.mem_cons.mp hk with rfl | hk
        · exact hkeep k hi
        · exact hvisited k hk

end Loops

theorem assignAddresses_slotAligned {ctx : LayoutContext} {depth : Nat} {s s' : LayoutState}
    (h : assignAddresses ctx depth s = .ok s') (j : Nat) : SlotAligned s' j := by
  induction depth generalizing s s' j with
  | zero => cases h
  | succ depth ih =>
    obtain ⟨m, hfwd, hbwd⟩ := assignAddresses_succ h
    have hfwd' := runSteps_slots
      (fun _ _ _ hs => forwardStep_slots (fun _ _ hr j => ih hr j) hs) hfwd
    have hbwd' := runSteps_slots (fun _ _ _ hs =>
      backwardStep_slots (fun _ _ hr j => ih (reportRecursion_eq_ok hr) j) hs) hbwd
    rcases hbwd' with hall | ⟨hsol, hvisited, hkeep⟩
    · exact hall j
    · rcases hfwd' with hall | ⟨hsol', hvisited', -⟩
      · exact hkeep j (hall j)
      · -- No restart happened: the first loop has visited the positions up to the dynamic
        -- partition, the second one those behind it.
        by_cases hle : j ≤ m.solution.idxOf ctx.dp
        · apply hkeep j (hvisited' j _)
          rw [List.mem_range, ← hsol']
          omega
        · by_cases hlt : j < m.solution.length
          · apply hvisited j
            rw [List.mem_reverse, List.mem_range'_1]
            omega
          · intro p hp
            rw [hsol, List.getElem?_eq_none (by omega)] at hp
            cases hp

private theorem sub_fmod_emod (b n : Int) : (b - b.fmod n) % n = 0 := by
  have hdvd : n ∣ b - b.fmod n := ⟨b.fdiv n, by rw [Int.fmod_def]; omega⟩
  exact Int.emod_eq_zero_of_dvd hdvd

section First

variable {ctx : LayoutContext} {f : Name} {n : Int}

/-- The first partition `f` is aligned, or it lies at address 0 and the `EMPTY_0` behind it
ends at a multiple of `n`. -/
private def FirstHandled (f : Name) (n : Int) (s : LayoutState) : Prop :=
  Aligned s.reqs f ∨ (s.solution[1]? = some "EMPTY_0" ∧ alignOf s.reqs "EMPTY_0" = none ∧
    address? s.reqs f = some 0 ∧ ∃ z e, size? s.reqs f = some z ∧
      size? s.reqs "EMPTY_0" = some e ∧ (z + e) % n = 0)

/-- The states of the assignment with first partition `f`, whose size is fixed and whose end is
to be aligned to `n`. -/
private structure FirstState (ctx : LayoutContext) (f : Name) (n : Int) (s : LayoutState) :
    Prop where
  inv : LayoutInv s
  head : s.solution[0]? = some f
  fixedSize : f ∉ ctx.dynamicPartitions
  empty : "EMPTY_0" ∉ ctx.dynamicPartitions
  align : ∃ align, alignOf s.reqs f = some align ∧ align.get? "start" = none ∧
    align.get? "end" = some n

private theorem FirstState.assign {s : LayoutState} (h : FirstState ctx f n s) (p : Name)
    (a : Int) : FirstState ctx f n (s.assign p a) where
  inv := h.inv.assign p a
  head := h.head
  fixedSize := h.fixedSize
  empty := h.empty
  align := by
    obtain ⟨align, halign, hrest⟩ := h.align
    refine ⟨align, ?_, hrest⟩
    rw [LayoutState.assign, alignOf_eq_fixed, fixed?_setAddress, ← alignOf_eq_fixed, halign]

private theorem FirstState.ne_empty {s : LayoutState} (h : FirstState ctx f n s) : f ≠ emptyName s.reqs :=
  fun heq => h.inv.empty_notMem (heq ▸ List.mem_of_getElem? h.head)

private theorem FirstState.insert {i : Nat} {moveUp : Bool} {s s' : LayoutState}
    (h : FirstState ctx f n s) (hi : moveUp = true → i ≠ 0)
    (hins : alignIfRequired ctx i moveUp s = .ok (some s')) : FirstState ctx f n s' := by
  obtain ⟨current, align, off, ea, ez, he⟩ := alignIfRequired_some hins
  refine ⟨h.inv.insert he, ?_, h.fixedSize, h.empty, ?_⟩
  · rw [← List.head?_eq_getElem?, he.head hi, List.head?_eq_getElem?, h.head]
  · obtain ⟨align, halign, hrest⟩ := h.align
    refine ⟨align, ?_, hrest⟩
    rw [alignOf_eq_fixed, he.fixed_eq f h.ne_empty, ← alignOf_eq_fixed, halign]

private theorem FirstHandled.assign {i : Nat} {p : Name} {a : Int} {s : LayoutState}
    (h : FirstHandled f n s) (hs : FirstState ctx f n s) (hi : i ≠ 0)
    (hp : s.solution[i]? = some p) : FirstHandled f n (s.assign p a) := by
  have hne : f ≠ p := by
    rintro rfl
    obtain ⟨h0, h0'⟩ := List.getElem?_eq_some_iff.mp hs.head
    obtain ⟨hi', hi''⟩ := List.getElem?_eq_some_iff.mp hp
    exact hi (hs.inv.nodup.getElem_inj_iff.mp (hi''.trans h0'.symm))
  rcases h with hal | ⟨hsecond, hnone, haddr, z, e, hz, he, hmod⟩
  · exact Or.inl (aligned_assign_of_ne hne hal)
  · refine Or.inr ⟨hsecond, ?_, ?_, z, e, ?_, ?_, hmod⟩
    · rw [LayoutState.assign, alignOf_eq_fixed, fixed?_setAddress, ← alignOf_eq_fixed, hnone]
    · rw [LayoutState.assign, address?_setAddress_of_ne _ _ hne, haddr]
    · rw [LayoutState.assign, size?_setAddress, hz]
    · rw [LayoutState.assign, size?_setAddress, he]

/-- Inserting an empty partition further back leaves the first partition and an `EMPTY_0` behind
it alone. -/
private theorem FirstHandled.insert {i : Nat} {moveUp : Bool} {s s' : LayoutState}
    (h : FirstHandled f n s) (hs : FirstState ctx f n s) (hi : i ≠ 0)
    (hins : alignIfRequired ctx i moveUp s = .ok (some s')) : FirstHandled f n s' := by
  obtain ⟨current, align, off, ea, ez, he⟩ := alignIfRequired_some hins
  have hfc : f ≠ current := by
    rintro rfl
    obtain ⟨h0, h0'⟩ := List.getElem?_eq_some_iff.mp hs.head
    obtain ⟨hi', hi''⟩ := List.getElem?_eq_some_iff.mp he.current_eq
    exact hi (hs.inv.nodup.getElem_inj_iff.mp (hi''.trans h0'.symm))
  have haddr := he.address_eq f hs.ne_empty (Or.inl hfc)
  have hsize := he.size_eq f hs.ne_empty hs.fixedSize
  have halignOf : alignOf s'.reqs f = alignOf s.reqs f := by
    rw [alignOf_eq_fixed, he.fixed_eq f hs.ne_empty, ← alignOf_eq_fixed]
  rcases h with hal | ⟨hsecond, hnone, ha, z, e, hz, hez, hmod⟩
  · left
    intro al hal'
    rw [halignOf] at hal'
    obtain ⟨a, z, ha, hz, hholds⟩ := hal al hal'
    exact ⟨a, z, haddr.trans ha, hsize.trans hz, hholds⟩
  · right
    have hmem : "EMPTY_0" ∈ s.solution := List.mem_of_getElem? hsecond
    have hne : "EMPTY_0" ≠ emptyName s.reqs := fun heq => hs.inv.empty_notMem (heq ▸ hmem)
    refine ⟨?_, ?_, haddr.trans ha, z, e, hsize.trans hz, ?_, hmod⟩
    · -- `EMPTY_0` has no alignment, so nothing is inserted in front of it.
      have hi1 : moveUp = true → i ≠ 1 := by
        rintro - rfl
        have hc : current = "EMPTY_0" := Option.some.inj (he.current_eq.symm.trans hsecond)
        have := he.align_eq
        rw [hc, hnone] at this
        cases this
      have hpos : 1 < if moveUp then i else i + 1 := by
        cases moveUp with
        | true =>
          have := hi1 rfl
          simp only [if_true]
          omega
        | false =>
          simp only [Bool.false_eq_true, if_false]
          omega
      rw [he.solution_eq, List.getElem?_insertIdx_of_lt hpos, hsecond]
    · rw [alignOf_eq_fixed, he.fixed_eq _ hne, ← alignOf_eq_fixed, hnone]
    · rw [he.size_eq _ hne hs.empty, hez]

private theorem firstHandled_own {s s' : LayoutState} (hs : FirstState ctx f n s)
    (hins : alignIfRequired ctx 0 false s = .ok (some s'))
    (hname : s'.solution[1]? = some "EMPTY_0") : FirstHandled f n s' := by
  obtain ⟨current, align, off, ea, ez, he⟩ := alignIfRequired_some hins
  have hcf : current = f := Option.some.inj (he.current_eq.symm.trans hs.head)
  subst hcf
  obtain ⟨align', halign', hstart, hend⟩ := hs.align
  have haa : align = align' := Option.some.inj (he.align_eq.symm.trans halign')
  subst haa
  obtain ⟨a, z, ha, hz, hoff⟩ := he.offset_eq
  have hnew := he.address_current hs.fixedSize hs.ne_empty a ha
  have hsize := he.size_eq current hs.ne_empty hs.fixedSize
  have hez : ez = off := by
    rcases he.emptySize_eq with ⟨-, hez⟩ | ⟨hin, -⟩
    · exact hez
    · exact absurd hin hs.fixedSize
  obtain ⟨m, -, hm, -⟩ | ⟨m, hm0, -, hm, hoffeq⟩ := getRequiredOffset_cases hoff
  · rw [hstart] at hm
    cases hm
  have hmn : m = n := Option.some.inj (hm.symm.trans hend)
  subst hmn
  have hoffne := he.offset_ne
  by_cases ha0 : a = 0
  · subst ha0
    right
    have hnm : emptyName s.reqs = "EMPTY_0" := by
      have hlen : 0 < s.solution.length := (List.getElem?_eq_some_iff.mp hs.head).1
      rw [he.solution_eq] at hname
      have := hname
      simp only [Bool.false_eq_true, if_false, Nat.zero_add, List.getElem?_insertIdx_self,
        show 1 ≤ s.solution.length from hlen, if_true, Option.some.injEq] at this
      exact this
    have hez' := he.size_empty (by rw [hnm]; exact hs.empty)
    have hnone := he.alignOf_empty
    rw [hnm] at hez' hnone
    refine ⟨hname, hnone, ?_, z, ez, hsize.trans hz, hez', ?_⟩
    · rw [hnew, movedAddress]
      simp
    · simp only [Bool.false_eq_true, if_false, ne_eq, not_true_eq_false, Int.zero_add] at hoffeq
      split_ifs at hoffeq
      · exact absurd hoffeq hoffne
      · have hsum : z + ez = (z - z.fmod m) + m := by omega
        rw [hsum, Int.add_emod_right, sub_fmod_emod]
  · left
    intro al hal
    rw [alignOf_eq_fixed, he.fixed_eq _ hs.ne_empty, ← alignOf_eq_fixed, halign',
      Option.some.injEq] at hal
    subst hal
    refine ⟨_, z, hnew, hsize.trans hz, ?_, ?_⟩
    · intro k hk
      rw [hstart] at hk
      cases hk
    · intro k hk
      obtain rfl : m = k := Option.some.inj (hend.symm.trans hk)
      simp only [Bool.false_eq_true, if_false, ne_eq, ha0, not_false_eq_true, if_true] at hoffeq
      split_ifs at hoffeq
      · exact absurd hoffeq hoffne
      · rw [movedAddress, if_neg (by simp), if_pos ha0,
          show a - off + z = (a + z) - (a + z).fmod m by omega, sub_fmod_emod]

private theorem firstHandled_of_aligned {s : LayoutState} (hs : FirstState ctx f n s)
    {v : Req (List Name)} (hv : s.reqs.get? f = some v)
    (h : firstPartitionHasBeenAligned v s.solution = .ok true) :
    s.solution[1]? = some "EMPTY_0" := by
  obtain ⟨align, halign, -, hend⟩ := hs.align
  have hva : v.placement.bind Placement.align? = some align := by
    simpa only [alignOf, hv, Option.bind_some] using halign
  have hkey : "end" ∈ Dict.keys align := Dict.mem_keys_of_get? hend
  rw [firstPartitionHasBeenAligned, hva] at h
  simp only [hkey, if_true] at h
  split at h
  · cases h
  next p hp =>
    simp only [Except.ok.injEq, decide_eq_true_eq] at h
    rw [hp, h]

private theorem alignOrRestart_first {restart : LayoutState → Py LayoutState} {i : Nat}
    {moveUp : Bool} {s s' : LayoutState} (hi : i ≠ 0)
    (hrestart : ∀ t t', FirstState ctx f n t →
      (t.solution[1]? = some "EMPTY_0" → FirstHandled f n t) → restart t = .ok t' →
      FirstState ctx f n t' ∧ FirstHandled f n t')
    (hs : FirstState ctx f n s) (h : FirstHandled f n s)
    (hor : AlignOrRestart ctx restart i moveUp s s') :
    FirstState ctx f n s' ∧ FirstHandled f n s' := by
  obtain ⟨-, rfl⟩ | ⟨t, hins, hres⟩ := hor
  · exact ⟨hs, h⟩
  · exact hrestart t s' (hs.insert (fun _ => hi) hins) (fun _ => h.insert hs hi hins) hres

/-- On return the first partition has been aligned, or `EMPTY_0` makes up for it. -/
private theorem assignAddresses_first {depth : Nat} {s s' : LayoutState}
    (hs : FirstState ctx f n s) (hempty : s.solution[1]? = some "EMPTY_0" → FirstHandled f n s)
    (h : assignAddresses ctx depth s = .ok s') : FirstState ctx f n s' ∧ FirstHandled f n s' := by
  induction depth generalizing s s' with
  | zero => cases h
  | succ depth ih =>
    obtain ⟨m, hfwd, hbwd⟩ := assignAddresses_succ h
    have hrestart (t t' : LayoutState) (ht : FirstState ctx f n t)
        (hte : t.solution[1]? = some "EMPTY_0" → FirstHandled f n t)
        (hres : assignAddresses ctx depth t = .ok t') :
        FirstState ctx f n t' ∧ FirstHandled f n t' := ih ht hte hres
    -- Position 0 comes first; from then on the first partition is taken care of.
    have hm := runSteps_induction (fun is t => FirstState ctx f n t ∧
      (FirstHandled f n t ∨ (0 ∈ is.head? ∧ (t.solution[1]? = some "EMPTY_0" →
        FirstHandled f n t)))) ?_ ⟨hs, Or.inr ⟨?_, hempty⟩⟩ hfwd
    · obtain ⟨hms, hmh⟩ := hm
      have hmh : FirstHandled f n m := by simpa using hmh
      refine (runSteps_induction (fun is t => FirstState ctx f n t ∧ FirstHandled f n t ∧
        ∀ i ∈ is, i ≠ 0) ?_ ⟨hms, hmh, ?_⟩ hbwd).imp id And.left
      · intro i is t t' ⟨ht, hth, his⟩ hstep
        have hi := his i (List.mem_cons_self ..)
        obtain ⟨p, b, hp, -, hor⟩ := backwardStep_cases hstep
        obtain ⟨hs', hh'⟩ := alignOrRestart_first hi
          (fun _ _ hst hte hr => hrestart _ _ hst hte (reportRecursion_eq_ok hr))
          (ht.assign p b) (hth.assign ht hi hp) hor
        exact ⟨hs', hh', fun j hj => his j (List.mem_cons_of_mem _ hj)⟩
      · intro i hi
        rw [List.mem_reverse, List.mem_range'_1] at hi
        omega
    · intro i is t t' ⟨ht, hth⟩ hstep
      cases i with
      | zero =>
        have hte : t.solution[1]? = some "EMPTY_0" → FirstHandled f n t := by
          rcases hth with hth | ⟨-, hte⟩
          · exact fun _ => hth
          · exact hte
        obtain ⟨p, v, hp, hv, hcases⟩ := forwardStep_zero hstep
        obtain rfl : p = f := Option.some.inj (hp.symm.trans ht.head)
        obtain ⟨hfirst, rfl⟩ | ⟨hnone, rfl⟩ | ⟨t₁, hins, hres⟩ := hcases
        · exact ⟨ht, Or.inl (hte (firstHandled_of_aligned ht hv hfirst))⟩
        · obtain ⟨q, hq, hal⟩ := alignIfRequired_none hnone
          obtain rfl : q = p := Option.some.inj (hq.symm.trans ht.head)
          exact ⟨ht, Or.inl (Or.inl hal)⟩
        · obtain ⟨hs', hh'⟩ := hrestart t₁ t' (ht.insert (by simp) hins)
            (firstHandled_own ht hins) hres
          exact ⟨hs', Or.inl hh'⟩
      | succ i =>
        have hth : FirstHandled f n t := by simpa using hth
        obtain ⟨p, q, a, z, hp, -, -, -, -, hor⟩ := forwardStep_succ hstep
        obtain ⟨hs', hh'⟩ := alignOrRestart_first i.succ_ne_zero hrestart
          (ht.assign p (a + z)) (hth.assign ht i.succ_ne_zero hp) hor
        exact ⟨hs', Or.inl hh'⟩
    · simp [List.range_succ_eq_map]

end First

theorem ne_emptyNumbered {p : Name} (h : containsEmpty p = false) (n : Nat) :
    p ≠ emptyNumbered n := by
  rintro rfl
  rw [containsEmpty_emptyNumbered] at h
  cases h

theorem LayoutRun.fixed {ctx : LayoutContext} {s s' : LayoutState} {p : Name}
    (hp : ∀ n, p ≠ emptyNumbered n) (hrun : LayoutRun ctx s s') :
    fixed? s'.reqs p = fixed? s.reqs p := by
  induction hrun with
  | refl => rfl
  | tail _ hstep ih =>
    rw [← ih]
    cases hstep with
    | assign => exact fixed?_setAddress _ _ _ _
    | insert hi hins =>
      obtain ⟨_, _, _, _, _, he⟩ := alignIfRequired_some hins
      exact he.fixed_eq p (hp _)

theorem LayoutRun.mem_of_mem {ctx : LayoutContext} {s s' : LayoutState} {p : Name}
    (hp : ∀ n, p ≠ emptyNumbered n) (hrun : LayoutRun ctx s s') (hmem : p ∈ s'.solution) :
    p ∈ s.solution := by
  induction hrun with
  | refl => exact hmem
  | tail _ hstep ih =>
    apply ih
    cases hstep with
    | assign => exact hmem
    | insert hi hins =>
      obtain ⟨_, _, _, _, _, he⟩ := alignIfRequired_some hins
      rw [he.solution_perm.mem_iff, List.mem_cons] at hmem
      exact hmem.resolve_left (hp _)

private theorem eq_of_mem_short {l : List Name} (h : l.length ≤ 1) {p q : Name} (hp : p ∈ l)
    (hq : q ∈ l) : p = q := by
  match l, h with
  | [x], _ =>
    rw [List.mem_singleton] at hp hq
    rw [hp, hq]

private theorem alignOf_beforeAssignment (shared : PlainReqs) (size : Int) (dp first : Name)
    (start : Int) (p : Name) :
    alignOf (beforeAssignment shared size dp first start) p = alignOf shared p := by
  rw [beforeAssignment, alignOf_eq_fixed, fixed?_setAddress, fixed?_setSize, ← alignOf_eq_fixed]

/-- What confines the special handling of the first partition: nothing is placed twice, no
partition has the name of an empty one, and the partition itself has a size of its own and asks
for its end only. -/
structure PlainFirst (pre : PlainReqs) (dp p : Name) (align : Align) : Prop where
  once : PlacedOnce pre dp
  names : ∀ k ∈ pre.keys, containsEmpty k = false
  ownSize : (pre.get? p).bind Req.shareSize = none
  endOnly : align.get? "start" = none

section Layout

variable {ord : SetOrder Name} {fuel depth : Nat} {reqs : Reqs YamlRefs} {dp p : Name}
  {pre cleaned : PlainReqs} {unsolved : List Name} {r : Resolved} {size start : Int}
  {s : LayoutState} {align : Align}

private theorem SolvedFrom.notDynamic (h : SolvedFrom ord dp pre r cleaned unsolved)
    (hp : p ≠ dp) (hshare : (pre.get? p).bind Req.shareSize = none) {shared : PlainReqs}
    (hshared : setSharedSize fuel r.reqs size dp = .ok shared) :
    p ∉ dp :: getDependentPartitions shared dp := by
  have hr : (r.reqs.get? p).bind Req.shareSize = none := by
    have hclean : (cleaned.get? p).bind Req.shareSize = none := by
      have := congrArg (fun o => o.bind Req.shareSize) (h.clean.unspanned p)
      simp only [unspanned?, Option.bind_map, Function.comp_def, Req.unspanned] at this
      exact this.trans hshare
    rcases h.rewrites.entry p with he | ⟨-, v, q, -, hv, he⟩
    · rw [he, hclean]
    · rw [he]
      rw [hv] at hclean
      exact hclean
  have hnone := setSharedSize_shareSize hr hshared
  rw [List.mem_cons, not_or]
  refine ⟨hp, fun hmem => ?_⟩
  rw [getDependentPartitions, List.mem_filter, shareSource, hnone] at hmem
  exact absurd hmem.2 (by simp)

/-- A first partition that is not aligned lies at the start of a region that starts at 0, and
`EMPTY_0` behind it ends at a multiple of the alignment. -/
private theorem SolvedFrom.first_end (h : SolvedFrom ord dp pre r cleaned unsolved)
    (hs : setAddressesAndAlign fuel depth r size dp start = .ok s) (hdp : p ≠ dp)
    (hname : ∀ n, p ≠ emptyNumbered n) (halign : alignOf s.reqs p = some align) {n : Int}
    (hend : align.get? "end" = some n) (hfirst : s.solution[0]? = some p)
    (hplain : PlainFirst pre dp p align) (hnot : ¬ Aligned s.reqs p) :
    start = 0 ∧ ∃ a z, address? s.reqs "EMPTY_0" = some a ∧ size? s.reqs "EMPTY_0" = some z ∧
      (a + z) % n = 0 := by
  have hfresh := freshEmptyNames_of_none hplain.names
  have htiles := h.tiles (h.firstOnce hplain.once hfresh) hs
  obtain ⟨shared, first, hshared, hdpk, hhead, hmem, hs⟩ := setAddressesAndAlign_eq_ok hs
  have hkeys : shared.keys = pre.keys := (setSharedSize_sharesOnly hshared).keys.trans h.keys
  have hinv := h.layoutInv hplain.once hfresh first start hshared hdpk
  have hempty : "EMPTY_0" ∉ pre.keys := fun hin => by
    have := hplain.names _ hin
    revert this
    decide
  have hin (q : Name) (hq : q ∈ r.solution) : q ∈ pre.keys := by
    have := hinv.placed q hq
    rwa [beforeAssignment, keys_setAddress, keys_setSize, hkeys] at this
  split_ifs at hs
  · have hrun := assignAddresses_run hs.1
    have hr0 : r.solution[0]? = some p := by
      rw [← List.head?_eq_getElem?, ← LayoutRun.head hrun, List.head?_eq_getElem?, hfirst]
    have hstate : FirstState (layoutContext shared size dp start) p n
        { reqs := beforeAssignment shared size dp first start, solution := r.solution } := by
      refine ⟨hinv, hr0, h.notDynamic hdp hplain.ownSize hshared, ?_, align, ?_, hplain.endOnly,
        hend⟩
      · rintro hmem
        rcases List.mem_cons.mp hmem with heq | hmem
        · exact hempty (heq ▸ hkeys ▸ hdpk)
        · exact hempty (hkeys ▸ (List.mem_filter.mp hmem).1)
      · rw [alignOf_eq_fixed, ← LayoutRun.fixed hname hrun, ← alignOf_eq_fixed, halign]
    have hnone : r.solution[1]? ≠ some "EMPTY_0" := fun heq =>
      hempty (hin _ (List.mem_of_getElem? heq))
    obtain ⟨-, hhandled⟩ := assignAddresses_first hstate (fun heq => absurd heq hnone) hs.1
    obtain hal | ⟨hsecond, -, ha, z, e, hz, he, hmod⟩ := hhandled
    · exact absurd hal hnot
    · obtain ⟨ps, hps⟩ := List.head?_eq_some_iff.mp
        (List.head?_eq_getElem? ▸ hfirst : s.solution.head? = some p)
      have hstart : address? s.reqs p = some start := by
        rw [hps] at htiles
        exact htiles.head
      have h0 : start = 0 := Option.some.inj (hstart.symm.trans ha)
      obtain ⟨x, y, hx, hy, hxy⟩ := htiles.next hfirst hsecond
      obtain rfl : x = 0 := Option.some.inj (hx.symm.trans ha)
      obtain rfl : y = z := Option.some.inj (hy.symm.trans hz)
      refine ⟨h0, y, e, by simpa using hxy, he, hmod⟩
  · subst hs
    have hpe : p ∈ shared.keys := hkeys ▸ hin p (List.mem_of_getElem? hfirst)
    exact absurd (eq_of_mem_short (by omega) hpe hdpk) hdp

/-- Every partition that keeps the placement it was given is aligned in the final layout, except
a first partition whose end was to be aligned and behind which `EMPTY_0` has been inserted. -/
theorem layout_alignment (hprep : prepare reqs dp = .ok pre) (hr : resolve ord fuel reqs dp = .ok r)
    (hs : setAddressesAndAlign fuel depth r size dp start = .ok s) (hdp : p ≠ dp)
    (hname : ∀ n, p ≠ emptyNumbered n) (halign : givenAlign reqs p = some align)
    (hkept : placementOf r.reqs p = placementOf pre p) (hplaced : p ∈ s.solution) :
    (∃ a z, address? s.reqs p = some a ∧ size? s.reqs p = some z ∧ align.Holds a z) ∨
      s.solution[0]? = some p ∧ s.solution[1]? = some "EMPTY_0" ∧
        ∃ n, align.get? "end" = some n ∧ (PlainFirst pre dp p align → start = 0 ∧
          ∃ a z, address? s.reqs "EMPTY_0" = some a ∧ size? s.reqs "EMPTY_0" = some z ∧
            (a + z) % n = 0) := by
  obtain ⟨cleaned, unsolved, h⟩ := resolve_eq_ok hprep hr
  have hlayout := setAddressesAndAlign_eq_ok hs
  obtain ⟨shared, first, hshared, hdpk, hhead, hmem, hcases⟩ := hlayout
  have hkeys : shared.keys = pre.keys := (setSharedSize_sharesOnly hshared).keys.trans h.keys
  have hin (q : Name) (hq : q ∈ r.solution) : q ∈ shared.keys := by
    rcases h.mem_solution hq with rfl | hq
    · exact hdpk
    · exact hkeys ▸ (mem_leafKeys.mp hq).1
  split_ifs at hcases with hlen
  · obtain ⟨hassign, -⟩ := hcases
    have hrun := assignAddresses_run hassign
    have hpr : p ∈ r.solution := LayoutRun.mem_of_mem hname hrun hplaced
    have hfinal : alignOf s.reqs p = some align := by
      rw [alignOf_eq_fixed, LayoutRun.fixed hname hrun, ← alignOf_eq_fixed,
        alignOf_beforeAssignment]
      calc alignOf shared p
          _ = givenAlign r.reqs p := by
            rw [alignOf, (setSharedSize_sharesOnly hshared).placement]
            rfl
          _ = givenAlign pre p := by rw [givenAlign, hkept, givenAlign]
          _ = givenAlign reqs p := prepare_givenAlign hprep (hkeys ▸ hin p hpr)
          _ = some align := halign
    by_cases hal : Aligned s.reqs p
    · exact Or.inl (hal align hfinal)
    · right
      obtain ⟨j, hj⟩ := List.mem_iff_getElem?.mp hplaced
      obtain hal' | ⟨rfl, v, hv, hfirst⟩ := assignAddresses_slotAligned hassign j p hj
      · exact absurd hal' hal
      · have hva : v.placement.bind Placement.align? = some align := by
          simpa only [alignOf, hv, Option.bind_some] using hfinal
        rw [firstPartitionHasBeenAligned, hva] at hfirst
        dsimp only at hfirst
        split_ifs at hfirst with hend
        · obtain ⟨n, hn⟩ := Option.isSome_iff_exists.mp ((Dict.get?_isSome_iff _ _).mpr hend)
          split at hfirst
          · cases hfirst
          next q hq =>
            simp only [Except.ok.injEq, decide_eq_true_eq] at hfirst
            exact ⟨hj, hfirst ▸ hq, n, hn, fun hplain =>
              h.first_end hs hdp hname hfinal hn hj hplain hal⟩
        · simp at hfirst
  · subst hcases
    exact absurd (eq_of_mem_short (by omega) (hin p hplaced) hdpk) hdp

end Layout

def alignedSecond : Reqs YamlRefs :=
  ⟨[("first", { size := some 100,
                  placement := some ⟨[.before (.str "second")], by decide⟩ }),
    ("second", { size := some 100, placement := some endAligned }),
    ("app", { region := some "flash_primary" })], by decide⟩

theorem alignedSecond_alignment : ∃ r s a z,
    resolve (SetOrder.dedup Name) 3 alignedSecond "app" = .ok r ∧
    setAddressesAndAlign 3 5 r 1000 "app" 0 = .ok s ∧ address? s.reqs "second" = some a ∧
    size? s.reqs "second" = some z ∧ Align.Holds ⟨[("end", 800)], by decide⟩ a z := by
  obtain ⟨pre, hpre, hrest⟩ := exists_of_returnsWith (x := prepare alignedSecond "app")
    (fun pre => returnsWith (resolve (SetOrder.dedup Name) 3 alignedSecond "app") fun r =>
      decide (placementOf r.reqs "second" = placementOf pre "second") &&
        returnsWith (setAddressesAndAlign 3 5 r 1000 "app" 0) fun s =>
          decide (s.solution = ["first", "EMPTY_0", "second", "app"])) (by decide)
  obtain ⟨r, hr, hrest⟩ := exists_of_returnsWith _ hrest
  rw [Bool.and_eq_true, decide_eq_true_iff] at hrest
  obtain ⟨s, hs, hsol⟩ := exists_of_returnsWith _ hrest.2
  rw [decide_eq_true_iff] at hsol
  have hplaced : "second" ∈ s.solution := by
    rw [hsol]
    decide
  obtain ⟨a, z, ha, hz, hholds⟩ | ⟨hfirst, -⟩ := layout_alignment hpre hr hs (p := "second")
    (by decide) (ne_emptyNumbered (by decide))
    (show givenAlign alignedSecond "second" = some ⟨[("end", 800)], by decide⟩ from rfl)
    hrest.1 hplaced
  · exact ⟨r, s, a, z, hr, hs, ha, hz, hholds⟩
  · rw [hsol] at hfirst
    exact absurd hfirst (by decide)

/-- The first partition of `alignedFirst` stays where it is, with an unaligned end. -/
theorem alignedFirst_not_aligned : ∃ r s a z,
    resolve (SetOrder.dedup Name) 3 alignedFirst "app" = .ok r ∧
    setAddressesAndAlign 3 5 r 1000 "app" 0 = .ok s ∧ "first" ∈ s.solution ∧
    givenAlign alignedFirst "first" = some ⟨[("end", 800)], by decide⟩ ∧
    address? s.reqs "first" = some a ∧ size? s.reqs "first" = some z ∧ (a + z) % 800 ≠ 0 := by
  obtain ⟨r, hr, hrest⟩ := exists_of_returnsWith
    (x := resolve (SetOrder.dedup Name) 3 alignedFirst "app")
    (fun r => returnsWith (setAddressesAndAlign 3 5 r 1000 "app" 0) fun s =>
      decide ("first" ∈ s.solution ∧ address? s.reqs "first" = some 0 ∧
        size? s.reqs "first" = some 100)) (by decide)
  obtain ⟨s, hs, hcheck⟩ := exists_of_returnsWith _ hrest
  rw [decide_eq_true_iff] at hcheck
  exact ⟨r, s, 0, 100, hr, hs, hcheck.1, rfl, hcheck.2.1, hcheck.2.2, by decide⟩

end SdkNrf.PartitionManager
