import SdkNrf.Framework.ExceptRun
import SdkNrf.PartitionManager.Layout

/-!
# What one step of the address assignment does

`_set_addresses_and_align` changes its state in two ways only: it stores the address of a partition
that is not the first of the solution, or it inserts an empty partition.
-/

namespace SdkNrf.PartitionManager

@[simp] theorem keys_setAddress (reqs : PlainReqs) (p : Name) (a : Int) :
    (setAddress reqs p a).keys = reqs.keys := Dict.keys_modify _ _ _

@[simp] theorem keys_setSize (reqs : PlainReqs) (p : Name) (z : Int) :
    (setSize reqs p z).keys = reqs.keys := Dict.keys_modify _ _ _

@[simp] theorem size?_setAddress (reqs : PlainReqs) (p q : Name) (a : Int) :
    size? (setAddress reqs p a) q = size? reqs q := by
  rw [size?, size?, setAddress, Dict.get?_modify]
  split <;> cases reqs.get? q <;> rfl

@[simp] theorem address?_setSize (reqs : PlainReqs) (p q : Name) (z : Int) :
    address? (setSize reqs p z) q = address? reqs q := by
  rw [address?, address?, setSize, Dict.get?_modify]
  split <;> cases reqs.get? q <;> rfl

variable {p : Name}

theorem address?_setAddress_self {reqs : PlainReqs} (a : Int) (h : p ∈ reqs.keys) :
    address? (setAddress reqs p a) p = some a := by
  obtain ⟨v, hv⟩ := Option.isSome_iff_exists.mp ((Dict.get?_isSome_iff reqs p).mpr h)
  rw [address?, setAddress, Dict.get?_modify_self, hv]
  rfl

theorem address?_setAddress_of_ne (reqs : PlainReqs) {p q : Name} (a : Int) (h : q ≠ p) :
    address? (setAddress reqs p a) q = address? reqs q := by
  rw [address?, address?, setAddress, Dict.get?_modify_of_ne _ _ h]

theorem size?_setSize_self {reqs : PlainReqs} (z : Int) (h : p ∈ reqs.keys) :
    size? (setSize reqs p z) p = some z := by
  obtain ⟨v, hv⟩ := Option.isSome_iff_exists.mp ((Dict.get?_isSome_iff reqs p).mpr h)
  rw [size?, setSize, Dict.get?_modify_self, hv]
  rfl

theorem size?_setSize_of_ne (reqs : PlainReqs) {p q : Name} (z : Int) (h : q ≠ p) :
    size? (setSize reqs p z) q = size? reqs q := by
  rw [size?, size?, setSize, Dict.get?_modify_of_ne _ _ h]

theorem mem_keys_of_size? {reqs : PlainReqs} {z : Int} (h : size? reqs p = some z) :
    p ∈ reqs.keys := by
  obtain ⟨v, hv, _⟩ := Option.bind_eq_some_iff.mp h
  exact Dict.mem_keys_of_get? hv

theorem mem_keys_of_address? {reqs : PlainReqs} {a : Int} (h : address? reqs p = some a) :
    p ∈ reqs.keys := by
  obtain ⟨v, hv, _⟩ := Option.bind_eq_some_iff.mp h
  exact Dict.mem_keys_of_get? hv

def Req.fixed {R : Type} (v : Req R) : Req R := { v with address := none, size := none }

def fixed? (reqs : PlainReqs) (p : Name) : Option (Req (List Name)) := (reqs.get? p).map Req.fixed

@[simp] theorem fixed?_setAddress (reqs : PlainReqs) (p q : Name) (a : Int) :
    fixed? (setAddress reqs p a) q = fixed? reqs q := by
  rw [fixed?, fixed?, setAddress, Dict.get?_modify]
  split <;> cases reqs.get? q <;> rfl

@[simp] theorem fixed?_setSize (reqs : PlainReqs) (p q : Name) (z : Int) :
    fixed? (setSize reqs p z) q = fixed? reqs q := by
  rw [fixed?, fixed?, setSize, Dict.get?_modify]
  split <;> cases reqs.get? q <;> rfl

theorem alignOf_eq_fixed (reqs : PlainReqs) (p : Name) :
    alignOf reqs p = ((fixed? reqs p).bind Req.placement).bind Placement.align? := by
  rw [alignOf, fixed?]
  cases reqs.get? p <;> rfl

theorem spanOf_eq_fixed (reqs : PlainReqs) (p : Name) :
    spanOf reqs p = ((fixed? reqs p).bind Req.span).getD [] := by
  rw [spanOf, fixed?]
  cases reqs.get? p <;> rfl

@[simp] theorem sizeAt_eq_ok {reqs : PlainReqs} {z : Int} :
    sizeAt reqs p = .ok z ↔ size? reqs p = some z := by
  rw [sizeAt]
  split <;> simp_all

@[simp] theorem addressAt_eq_ok {reqs : PlainReqs} {a : Int} :
    addressAt reqs p = .ok a ↔ address? reqs p = some a := by
  rw [addressAt]
  split <;> simp_all

@[simp] theorem reqAt_eq_ok {reqs : PlainReqs} {v : Req (List Name)} :
    reqAt reqs p = .ok v ↔ reqs.get? p = some v := by
  rw [reqAt]
  split <;> simp_all

variable {i : Nat}

@[simp] theorem indexAt_eq_ok {l : List Name} :
    indexAt l i = .ok p ↔ l[i]? = some p := by
  rw [indexAt]
  split <;> simp_all

variable {reqs reqs' : PlainReqs}

@[simp] theorem storeAddress_eq_ok {a : Int} :
    storeAddress reqs p a = .ok reqs' ↔ p ∈ reqs.keys ∧ setAddress reqs p a = reqs' := by
  rw [storeAddress]
  split <;> simp_all

@[simp] theorem storeSize_eq_ok {z : Int} :
    storeSize reqs p z = .ok reqs' ↔ p ∈ reqs.keys ∧ setSize reqs p z = reqs' := by
  rw [storeSize]
  split <;> simp_all

/-- The alignment that the dict asks for holds at the given address and size. -/
def Align.Holds (align : Align) (address size : Int) : Prop :=
  (∀ n, align.get? "start" = some n → address % n = 0) ∧
    ∀ n, align.get? "end" = some n → (address + size) % n = 0

variable {align : Align}

private theorem get?_end_of_start {n : Int} (hlen : align.items.length = 1)
    (hstart : align.get? "start" = some n) : align.get? "end" = none := by
  obtain ⟨e, he⟩ := List.length_eq_one_iff.mp hlen
  have hs := (Dict.get?_eq_some_iff align _ _).mp hstart
  rw [Dict.get?_eq_none_iff]
  rw [he, List.mem_singleton] at hs
  simp [Dict.keys, he, ← hs]

private theorem emod_eq_zero_of_fmod {a n : Int} (h : a.fmod n = 0) : a % n = 0 :=
  Int.emod_eq_zero_of_dvd (Int.dvd_of_fmod_eq_zero h)

private theorem sub_fmod_ne_zero {a n : Int} (hn : n ≠ 0) : n - a.fmod n ≠ 0 := by
  intro h
  have hself : (a.fmod n).fmod n = a.fmod n := Int.fmod_fmod _ _
  have heq : a.fmod n = n := by omega
  rw [heq, Int.fmod_self] at hself
  exact hn hself.symm

variable {moveUp : Bool}

/-- The two shapes of a successful call: the distance of the start, or of the end, to a multiple
of the alignment. -/
theorem getRequiredOffset_cases {a z off : Int} (h : getRequiredOffset align a z moveUp = .ok off) :
    (∃ n, n ≠ 0 ∧ align.get? "start" = some n ∧ align.get? "end" = none ∧
      off = if a.fmod n = 0 then 0 else if moveUp then n - a.fmod n else a.fmod n) ∨
    (∃ n, n ≠ 0 ∧ align.get? "start" = none ∧ align.get? "end" = some n ∧
      off = if (a + z).fmod n = 0 then 0
        else if moveUp then n - (a + z).fmod n
        else if a ≠ 0 then (a + z).fmod n else n - (a + z).fmod n) := by
  rw [getRequiredOffset] at h
  split at h
  · cases h
  next hlen =>
  have hlen : align.items.length = 1 := by omega
  split at h
  next n hstart =>
    left
    by_cases hn : n = 0
    · simp [hn] at h
    · refine ⟨n, hn, hstart, get?_end_of_start hlen hstart, ?_⟩
      simp only [hn, if_false] at h
      split_ifs at h ⊢ <;> exact (Except.ok.inj h).symm
  next hstart =>
    right
    split at h
    · cases h
    next n hend =>
    by_cases hn : n = 0
    · simp [hn] at h
    · refine ⟨n, hn, hstart, hend, ?_⟩
      simp only [hn, if_false] at h
      split_ifs at h ⊢ <;> exact (Except.ok.inj h).symm

theorem getRequiredOffset_zero {a z : Int} (h : getRequiredOffset align a z moveUp = .ok 0) :
    align.Holds a z := by
  obtain ⟨n, hn, hstart, hend, hoff⟩ | ⟨n, hn, hstart, hend, hoff⟩ := getRequiredOffset_cases h
  · refine ⟨fun m hm => ?_, fun m hm => by simp [hend] at hm⟩
    have hmn : n = m := by simpa [hstart] using hm
    subst hmn
    split_ifs at hoff with hr
    · exact emod_eq_zero_of_fmod hr
    · exact absurd hoff.symm (sub_fmod_ne_zero hn)
    · exact absurd hoff.symm hr
  · refine ⟨fun m hm => by simp [hstart] at hm, fun m hm => ?_⟩
    have hmn : n = m := by simpa [hend] using hm
    subst hmn
    split_ifs at hoff with hr
    · exact emod_eq_zero_of_fmod hr
    · exact absurd hoff.symm (sub_fmod_ne_zero hn)
    · exact absurd hoff.symm hr
    · exact absurd hoff.symm (sub_fmod_ne_zero hn)

theorem shrinkDynamic_frame {e : Name} {count : Nat} {ps : List Name}
    (h : shrinkDynamic e count ps reqs = .ok reqs') :
    reqs'.keys = reqs.keys ∧ (∀ q, fixed? reqs' q = fixed? reqs q) ∧
      (∀ q, address? reqs' q = address? reqs q) ∧
      ∀ q, q ∉ ps → size? reqs' q = size? reqs q := by
  induction ps generalizing reqs with
  | nil =>
    cases h
    simp
  | cons p ps ih =>
    simp only [shrinkDynamic, bind_eq_ok, sizeAt_eq_ok] at h
    obtain ⟨z, _, ez, _, hrest⟩ := h
    obtain ⟨hkeys, hfixed, haddr, hsize⟩ := ih hrest
    refine ⟨by rw [hkeys, keys_setSize], fun q => by rw [hfixed, fixed?_setSize],
      fun q => by rw [haddr, address?_setSize], fun q hq => ?_⟩
    rw [List.mem_cons, not_or] at hq
    rw [hsize q hq.2, size?_setSize_of_ne _ _ hq.1]

theorem shrinkDynamic_size {e : Name} {count : Nat} {ps : List Name} {emptySize : Int}
    (hnd : ps.Nodup) (he : e ∉ ps) (hsize : size? reqs e = some emptySize)
    (h : shrinkDynamic e count ps reqs = .ok reqs') {q : Name} (hq : q ∈ ps) :
    ∃ z, size? reqs q = some z ∧ size? reqs' q = some (z - emptySize / (count : Int)) := by
  induction ps generalizing reqs with
  | nil => simp at hq
  | cons p ps ih =>
    simp only [shrinkDynamic, bind_eq_ok, sizeAt_eq_ok] at h
    obtain ⟨z, hz, ez, hez, hrest⟩ := h
    rw [List.nodup_cons] at hnd
    rw [List.mem_cons, not_or] at he
    have hez' : ez = emptySize := by simpa [hez] using hsize
    subst hez'
    rcases List.mem_cons.mp hq with rfl | hq
    · refine ⟨z, hz, ?_⟩
      rw [(shrinkDynamic_frame hrest).2.2.2 q hnd.1]
      exact size?_setSize_self _ (mem_keys_of_size? hz)
    · have hqp : q ≠ p := fun hqp => hnd.1 (hqp ▸ hq)
      have hkeep : size? (setSize reqs p (z - ez / (count : Int))) e = some ez := by
        rw [size?_setSize_of_ne _ _ he.1, hez]
      obtain ⟨z', hz', hres⟩ := ih hnd.2 he.2 hkeep hrest hq
      rw [size?_setSize_of_ne _ _ hqp] at hz'
      exact ⟨z', hz', hres⟩

variable {dyn solution : List Name} {current : Name} {off : Int} {ea ez : Int}

/-- The ways to make room: move a fixed partition up or down, leave it where it is when it
starts at address 0, or shrink the dynamic partitions. -/
theorem makeRoom_cases
    (h : makeRoom current align off reqs moveUp dyn solution = .ok (ea, ez, reqs')) :
    (current ∉ dyn ∧ ez = off ∧ ((∃ a, reqs' = setAddress reqs current a) ∨ reqs' = reqs)) ∨
      (current ∈ dyn ∧ reqs' = reqs ∧ getEmptyPartToMoveDynPart dyn current reqs off
        (decide ("end" ∈ Dict.keys align)) solution = .ok (ea, ez)) := by
  simp only [makeRoom, bind_eq_ok] at h
  obtain ⟨a, _, z, _, h⟩ := h
  by_cases hdyn : current ∈ dyn
  · right
    simp only [hdyn, not_true_eq_false, if_false] at h
    cases moveUp with
    | true => simp at h
    | false =>
      simp only [Bool.false_eq_true, not_false_eq_true, if_true, bind_eq_ok, pure_eq_ok,
        Prod.mk.injEq] at h
      obtain ⟨⟨ea', ez'⟩, hmove, rfl, rfl, rfl⟩ := h
      exact ⟨hdyn, rfl, hmove⟩
  · left
    simp only [hdyn, not_false_eq_true, if_true] at h
    split_ifs at h <;> simp only [pure_eq_ok, Prod.mk.injEq] at h <;> obtain ⟨-, rfl, rfl⟩ := h
    · exact ⟨hdyn, rfl, Or.inl ⟨_, rfl⟩⟩
    · exact ⟨hdyn, rfl, Or.inl ⟨_, rfl⟩⟩
    · exact ⟨hdyn, rfl, Or.inr rfl⟩

theorem makeRoom_frame
    (h : makeRoom current align off reqs moveUp dyn solution = .ok (ea, ez, reqs')) :
    reqs'.keys = reqs.keys ∧ (∀ q, fixed? reqs' q = fixed? reqs q) ∧
      (∀ q, size? reqs' q = size? reqs q) ∧
      ∀ q, q ≠ current ∨ current ∈ dyn → address? reqs' q = address? reqs q := by
  obtain ⟨hdyn, -, ⟨a, rfl⟩ | rfl⟩ | ⟨-, rfl, -⟩ := makeRoom_cases h
  · refine ⟨by simp, by simp, by simp, fun q hq => ?_⟩
    exact address?_setAddress_of_ne _ _ (hq.resolve_right hdyn)
  · simp
  · simp

def movedAddress (moveUp : Bool) (a off : Int) : Int :=
  if moveUp then a + off else if a ≠ 0 then a - off else a

theorem makeRoom_address {ea ez a : Int}
    (h : makeRoom current align off reqs moveUp dyn solution = .ok (ea, ez, reqs'))
    (hdyn : current ∉ dyn) (ha : address? reqs current = some a) :
    address? reqs' current = some (movedAddress moveUp a off) := by
  have hmem := mem_keys_of_address? ha
  simp only [makeRoom, bind_eq_ok, addressAt_eq_ok, ha, Option.some.injEq, hdyn,
    not_false_eq_true, if_true] at h
  obtain ⟨_, rfl, z, _, h⟩ := h
  rw [movedAddress]
  split_ifs at h ⊢ <;> simp only [pure_eq_ok, Prod.mk.injEq] at h <;> obtain ⟨-, -, rfl⟩ := h
  · exact address?_setAddress_self _ hmem
  · exact address?_setAddress_self _ hmem
  · exact ha

/-- An empty partition that moves a dynamic partition takes the same whole number of bytes from
every dynamic partition. -/
theorem getEmptyPartToMoveDynPart_size {reqs : PlainReqs} {moveEnd : Bool}
    (h : getEmptyPartToMoveDynPart dyn current reqs off moveEnd solution = .ok (ea, ez)) :
    0 < off ∧ ∃ k : Nat, ez = off / (k : Int) * dyn.length := by
  simp only [getEmptyPartToMoveDynPart, bind_eq_ok] at h
  obtain ⟨firstDyn, _, h⟩ := h
  by_cases hoff : 0 < off
  · refine ⟨hoff, ?_⟩
    simp only [hoff, not_true_eq_false, if_false] at h
    generalize (if moveEnd = true then _ else _ : Nat) = k at h
    by_cases hk : k = 0
    · simp [hk] at h
    by_cases hword : off / (k : Int) % 4 = 0
    · simp only [hk, hword, not_true_eq_false, if_false, bind_eq_ok] at h
      obtain ⟨z, _, h⟩ := h
      by_cases hz : off / (k : Int) < z
      · simp only [hz, not_true_eq_false, if_false, bind_eq_ok, pure_eq_ok, Prod.mk.injEq] at h
        obtain ⟨_, _, _, _, _, _, _, hez⟩ := h
        exact ⟨k, hez.symm⟩
      · simp [hz] at h
    · simp [hk, hword] at h
  · simp [hoff] at h

theorem makeRoom_size
    (h : makeRoom current align off reqs moveUp dyn solution = .ok (ea, ez, reqs')) :
    (current ∉ dyn ∧ ez = off) ∨
      (current ∈ dyn ∧ 0 < off ∧ ∃ k : Nat, ez = off / (k : Int) * dyn.length) := by
  obtain ⟨hdyn, hez, -⟩ | ⟨hdyn, -, hmove⟩ := makeRoom_cases h
  · exact Or.inl ⟨hdyn, hez⟩
  · exact Or.inr ⟨hdyn, getEmptyPartToMoveDynPart_size hmove⟩

/-- The effect of inserting an empty partition for the partition at position `i`. -/
structure EmptyInserted (ctx : LayoutContext) (i : Nat) (moveUp : Bool) (s s' : LayoutState)
    (current : Name) (align : Align) (off emptyAddress emptySize : Int) : Prop where
  current_eq : s.solution[i]? = some current
  align_eq : alignOf s.reqs current = some align
  solution_eq : s'.solution =
    s.solution.insertIdx (if moveUp then i else i + 1) (emptyName s.reqs)
  keys_eq : s'.reqs.keys = if emptyName s.reqs ∈ s.reqs.keys then s.reqs.keys
    else s.reqs.keys ++ [emptyName s.reqs]
  fixed_eq : ∀ q, q ≠ emptyName s.reqs → fixed? s'.reqs q = fixed? s.reqs q
  alignOf_empty : alignOf s'.reqs (emptyName s.reqs) = none
  address_eq : ∀ q, q ≠ emptyName s.reqs → q ≠ current ∨ current ∈ ctx.dynamicPartitions →
    address? s'.reqs q = address? s.reqs q
  address_current : current ∉ ctx.dynamicPartitions → current ≠ emptyName s.reqs →
    ∀ a, address? s.reqs current = some a →
      address? s'.reqs current = some (movedAddress moveUp a off)
  address_empty : address? s'.reqs (emptyName s.reqs) = some emptyAddress
  size_eq : ∀ q, q ≠ emptyName s.reqs → q ∉ ctx.dynamicPartitions →
    size? s'.reqs q = size? s.reqs q
  size_empty : emptyName s.reqs ∉ ctx.dynamicPartitions →
    size? s'.reqs (emptyName s.reqs) = some emptySize
  size_dynamic : ctx.dynamicPartitions.Nodup → emptyName s.reqs ∉ ctx.dynamicPartitions →
    ∀ q ∈ ctx.dynamicPartitions, ∃ z, size? s.reqs q = some z ∧
      size? s'.reqs q = some (z - emptySize / (ctx.dynamicPartitions.length : Int))
  emptySize_eq : (current ∉ ctx.dynamicPartitions ∧ emptySize = off) ∨
    (current ∈ ctx.dynamicPartitions ∧ 0 < off ∧
      ∃ k : Nat, emptySize = off / (k : Int) * ctx.dynamicPartitions.length)
  offset_ne : off ≠ 0
  offset_eq : ∃ a z, address? s.reqs current = some a ∧ size? s.reqs current = some z ∧
    getRequiredOffset align a z moveUp = .ok off

private theorem emptyName_congr (h : reqs'.keys = reqs.keys) :
    emptyName reqs' = emptyName reqs := by
  rw [emptyName, emptyName, h]

variable {s s' : LayoutState} {ctx : LayoutContext}

/-- What is behind the insertion of an empty partition: the offset that the alignment asks for, room
that is made, the empty partition that is added, and the dynamic partitions that are shrunk. -/
theorem alignIfRequired_eq_some (h : alignIfRequired ctx i moveUp s = .ok (some s')) :
    ∃ current align off ea ez moved region, s.solution[i]? = some current ∧
      alignOf s.reqs current = some align ∧
      ((∃ a z, address? s.reqs current = some a ∧ size? s.reqs current = some z ∧
        getRequiredOffset align a z moveUp = .ok off) ∧ off ≠ 0) ∧
      s'.solution = s.solution.insertIdx (if moveUp then i else i + 1) (emptyName moved) ∧
      makeRoom current align off s.reqs moveUp ctx.dynamicPartitions s.solution =
        .ok (ea, ez, moved) ∧
      shrinkDynamic (emptyName moved) ctx.dynamicPartitions.length ctx.dynamicPartitions
        (moved.set (emptyName moved) { address := some ea, size := some ez, region := region,
                                       placement := some (emptyPlacement moveUp current) }) =
          .ok s'.reqs := by
  simp only [alignIfRequired, bind_eq_ok, indexAt_eq_ok, reqAt_eq_ok] at h
  obtain ⟨current, hcur, v, hv, h⟩ := h
  split at h
  · simp at h
  next align halign =>
  simp only [bind_eq_ok] at h
  obtain ⟨r, hr, h⟩ := h
  match r, h with
  | some (e, reqs'), h =>
    simp only [pure_eq_ok, Option.some.injEq] at h
    subst h
    simp only [alignPartition, bind_eq_ok, addressAt_eq_ok, sizeAt_eq_ok] at hr
    obtain ⟨a, ha, z, hz, off, hoff, hr⟩ := hr
    split_ifs at hr with hzero
    · simp at hr
    simp only [bind_eq_ok, indexAt_eq_ok] at hr
    obtain ⟨⟨ea, ez, moved⟩, hroom, dyn, hdyn, hr⟩ := hr
    split at hr
    next region hregion =>
      simp only [bind_eq_ok, pure_eq_ok, Option.some.injEq, Prod.mk.injEq] at hr
      obtain ⟨reqs'', hshrink, rfl, rfl⟩ := hr
      refine ⟨current, align, off, ea, ez, moved, _, hcur, ?_, ⟨⟨a, z, ha, hz, hoff⟩, hzero⟩, rfl,
        hroom, hshrink⟩
      rw [alignOf, hv]
      exact halign
    next => simp at hr

theorem alignIfRequired_some (h : alignIfRequired ctx i moveUp s = .ok (some s')) :
    ∃ current align off ea ez, EmptyInserted ctx i moveUp s s' current align off ea ez := by
  obtain ⟨current, align, off, ea, ez, moved, region, hcur, halign, hoff, hsolution, hroom,
    hshrink⟩ := alignIfRequired_eq_some h
  obtain ⟨hkeys, hfixed, hsize, haddr⟩ := makeRoom_frame hroom
  have hname : emptyName moved = emptyName s.reqs := emptyName_congr hkeys
  obtain ⟨skeys, sfixed, saddr, ssize⟩ := shrinkDynamic_frame hshrink
  refine ⟨current, align, off, ea, ez, ?_⟩
  simp only [hname] at hsolution hshrink skeys sfixed saddr ssize
  constructor
  case current_eq => exact hcur
  case align_eq => exact halign
  case solution_eq => exact hsolution
  case keys_eq =>
    rw [skeys]
    split
    next hmem => rw [Dict.keys_set_of_mem _ (by rwa [hkeys]), hkeys]
    next hmem => rw [Dict.keys_set_of_notMem _ (by rwa [hkeys]), hkeys]
  case fixed_eq =>
    intro q hq
    rw [sfixed, fixed?, Dict.get?_set_of_ne _ _ hq]
    exact hfixed q
  case alignOf_empty =>
    rw [alignOf_eq_fixed, sfixed, fixed?, Dict.get?_set_self]
    cases moveUp <;> rfl
  case address_eq =>
    intro q hq hcond
    rw [saddr, address?, Dict.get?_set_of_ne _ _ hq]
    exact haddr q hcond
  case address_current =>
    intro hnd hne b hb
    rw [saddr, address?, Dict.get?_set_of_ne _ _ hne]
    exact makeRoom_address hroom hnd hb
  case address_empty =>
    rw [saddr, address?, Dict.get?_set_self]
    rfl
  case size_eq =>
    intro q hq hqd
    rw [ssize q hqd, size?, Dict.get?_set_of_ne _ _ hq]
    exact hsize q
  case size_empty =>
    intro he
    rw [ssize _ he, size?, Dict.get?_set_self]
    rfl
  case size_dynamic =>
    intro hnd he q hq
    have hqe : q ≠ emptyName s.reqs := fun hqe => he (hqe ▸ hq)
    have hez : size? (moved.set (emptyName s.reqs)
        { address := some ea, size := some ez, region := region,
          placement := some (emptyPlacement moveUp current) }) (emptyName s.reqs) = some ez := by
      rw [size?, Dict.get?_set_self]
      rfl
    obtain ⟨z', hz', hres⟩ := shrinkDynamic_size hnd he hez hshrink hq
    refine ⟨z', ?_, hres⟩
    rw [size?, Dict.get?_set_of_ne _ _ hqe] at hz'
    rw [← hsize q]
    exact hz'
  case emptySize_eq => exact makeRoom_size hroom
  case offset_ne => exact hoff.2
  case offset_eq => exact hoff.1

def Aligned (reqs : PlainReqs) (p : Name) : Prop :=
  ∀ align, alignOf reqs p = some align →
    ∃ a z, address? reqs p = some a ∧ size? reqs p = some z ∧ align.Holds a z

theorem alignIfRequired_none {s : LayoutState} (h : alignIfRequired ctx i moveUp s = .ok none) :
    ∃ p, s.solution[i]? = some p ∧ Aligned s.reqs p := by
  simp only [alignIfRequired, bind_eq_ok, indexAt_eq_ok, reqAt_eq_ok] at h
  obtain ⟨p, hp, v, hv, h⟩ := h
  refine ⟨p, hp, ?_⟩
  intro align halign
  have hva : v.placement.bind Placement.align? = some align := by
    simpa only [alignOf, hv, Option.bind_some] using halign
  rw [hva] at h
  simp only [bind_eq_ok] at h
  obtain ⟨r, hr, h⟩ := h
  match r, h with
  | none, _ =>
    simp only [alignPartition, bind_eq_ok, addressAt_eq_ok, sizeAt_eq_ok] at hr
    obtain ⟨a, ha, z, hz, off, hoff, hr⟩ := hr
    by_cases hzero : off = 0
    · subst hzero
      exact ⟨a, z, ha, hz, getRequiredOffset_zero hoff⟩
    · simp only [hzero, if_false, bind_eq_ok] at hr
      obtain ⟨_, _, _, _, hr⟩ := hr
      split at hr
      · simp only [bind_eq_ok, pure_eq_ok, reduceCtorEq, and_false, exists_false] at hr
      · simp at hr

def LayoutState.assign (s : LayoutState) (p : Name) (a : Int) : LayoutState :=
  { s with reqs := setAddress s.reqs p a }

def AlignOrRestart (ctx : LayoutContext) (restart : LayoutState → Py LayoutState) (i : Nat)
    (moveUp : Bool) (s s' : LayoutState) : Prop :=
  (alignIfRequired ctx i moveUp s = .ok none ∧ s' = s) ∨
    ∃ s₁, alignIfRequired ctx i moveUp s = .ok (some s₁) ∧ restart s₁ = .ok s'

variable {restart : LayoutState → Py LayoutState}

private theorem alignOrRestart_of_result {r : Option LayoutState}
    (hr : alignIfRequired ctx i moveUp s = .ok r)
    (hnone : r = none → (pure s : Py LayoutState) = .ok s')
    (hsome : ∀ s₁, r = some s₁ → restart s₁ = .ok s') :
    AlignOrRestart ctx restart i moveUp s s' := by
  cases r with
  | none => exact Or.inl ⟨hr, (pure_eq_ok.mp (hnone rfl)).symm⟩
  | some s₁ => exact Or.inr ⟨s₁, hr, hsome s₁ rfl⟩

theorem forwardStep_zero (h : forwardStep ctx restart 0 s = .ok s') :
    ∃ p v, s.solution[0]? = some p ∧ s.reqs.get? p = some v ∧
      ((firstPartitionHasBeenAligned v s.solution = .ok true ∧ s' = s) ∨
        AlignOrRestart ctx restart 0 false s s') := by
  simp only [forwardStep, bind_eq_ok, indexAt_eq_ok, if_true, reqAt_eq_ok] at h
  obtain ⟨p, hp, v, hv, aligned, haligned, h⟩ := h
  refine ⟨p, v, hp, hv, ?_⟩
  cases aligned with
  | true =>
    simp only [if_true, pure_eq_ok] at h
    exact Or.inl ⟨haligned, h.symm⟩
  | false =>
    simp only [Bool.false_eq_true, if_false, bind_eq_ok] at h
    obtain ⟨r, hr, h⟩ := h
    exact Or.inr (alignOrRestart_of_result hr (fun he => by rw [he] at h; exact h)
      fun s₁ he => by rw [he] at h; exact h)

theorem forwardStep_succ (h : forwardStep ctx restart (i + 1) s = .ok s') :
    ∃ p q a z, s.solution[i + 1]? = some p ∧ s.solution[i]? = some q ∧
      address? s.reqs q = some a ∧ size? s.reqs q = some z ∧ p ∈ s.reqs.keys ∧
      AlignOrRestart ctx restart (i + 1) true (s.assign p (a + z)) s' := by
  simp only [forwardStep, bind_eq_ok, indexAt_eq_ok, Nat.succ_ne_zero, if_false,
    Nat.add_sub_cancel, addressAt_eq_ok, sizeAt_eq_ok, storeAddress_eq_ok] at h
  obtain ⟨p, hp, q, hq, a, ha, z, hz, reqs, ⟨hmem, rfl⟩, r, hr, h⟩ := h
  exact ⟨p, q, a, z, hp, hq, ha, hz, hmem, alignOrRestart_of_result hr
    (fun he => by rw [he] at h; exact h) fun s₁ he => by rw [he] at h; exact h⟩

theorem backwardStep_cases (h : backwardStep ctx restart i s = .ok s') :
    ∃ p b, s.solution[i]? = some p ∧ p ∈ s.reqs.keys ∧
      AlignOrRestart ctx restart i false (s.assign p b) s' := by
  simp only [backwardStep, bind_eq_ok, indexAt_eq_ok, sizeAt_eq_ok, storeAddress_eq_ok] at h
  obtain ⟨p, hp, z, _, bound, _, reqs, ⟨hmem, rfl⟩, r, hr, h⟩ := h
  exact ⟨p, bound - z, hp, hmem, alignOrRestart_of_result hr
    (fun he => by rw [he] at h; exact h) fun s₁ he => by rw [he] at h; exact h⟩

theorem reportRecursion_eq_ok (h : reportRecursion restart s = .ok s') : restart s = .ok s' := by
  rw [reportRecursion] at h
  split at h
  · cases h
  · exact h

/-- An assertion about the indices still to come and the state holds at the end of a loop when
every round keeps it. -/
theorem runSteps_induction {step : Nat → LayoutState → Py LayoutState}
    (Q : List Nat → LayoutState → Prop)
    (hstep : ∀ i is s s', Q (i :: is) s → step i s = .ok s' → Q is s') {is : List Nat} (hQ : Q is s)
    (h : runSteps step is s = .ok s') :
    Q [] s' := by
  induction is generalizing s with
  | nil =>
    cases h
    exact hQ
  | cons i is ih =>
    simp only [runSteps, bind_eq_ok] at h
    obtain ⟨s₁, h₁, h⟩ := h
    exact ih (hstep i is s s₁ hQ h₁) h

theorem assignAddresses_succ {depth : Nat} (h : assignAddresses ctx (depth + 1) s = .ok s') :
    ∃ m, runSteps (forwardStep ctx (assignAddresses ctx depth))
        (List.range (s.solution.idxOf ctx.dp + 1)) s = .ok m ∧
      runSteps (backwardStep ctx (reportRecursion (assignAddresses ctx depth)))
        (List.range' (m.solution.idxOf ctx.dp + 1)
          (m.solution.length - (m.solution.idxOf ctx.dp + 1))).reverse m = .ok s' := by
  simp only [assignAddresses, bind_eq_ok] at h
  exact h

inductive LayoutStep (ctx : LayoutContext) : LayoutState → LayoutState → Prop
  | assign {s : LayoutState} {i : Nat} {p : Name} (a : Int) (hi : i ≠ 0)
      (hp : s.solution[i]? = some p) : LayoutStep ctx s (s.assign p a)
  | insert {s s' : LayoutState} {i : Nat} {moveUp : Bool} (hi : moveUp = true → i ≠ 0)
      (h : alignIfRequired ctx i moveUp s = .ok (some s')) : LayoutStep ctx s s'

abbrev LayoutRun (ctx : LayoutContext) := Relation.ReflTransGen (LayoutStep ctx)

private theorem alignOrRestart_run (hi : moveUp = true → i ≠ 0)
    (hrestart : ∀ s s', restart s = .ok s' → LayoutRun ctx s s')
    (h : AlignOrRestart ctx restart i moveUp s s') : LayoutRun ctx s s' := by
  obtain ⟨-, rfl⟩ | ⟨s₁, hins, hres⟩ := h
  · exact .refl
  · exact .head (.insert hi hins) (hrestart s₁ s' hres)

/-- Every run of `_set_addresses_and_align` is a sequence of steps. -/
theorem assignAddresses_run {depth : Nat} (h : assignAddresses ctx depth s = .ok s') :
    LayoutRun ctx s s' := by
  induction depth generalizing s s' with
  | zero => cases h
  | succ depth ih =>
    obtain ⟨m, hfwd, hbwd⟩ := assignAddresses_succ h
    have hforward : LayoutRun ctx s m := by
      refine runSteps_induction (fun _ t => LayoutRun ctx s t) ?_ .refl hfwd
      intro i _ t t' hrun hstep
      refine hrun.trans ?_
      cases i with
      | zero =>
        obtain ⟨_, _, _, _, ⟨-, rfl⟩ | hor⟩ := forwardStep_zero hstep
        · exact .refl
        · exact alignOrRestart_run (by simp) (fun _ _ => ih) hor
      | succ i =>
        obtain ⟨p, _, a, z, hp, -, -, -, -, hor⟩ := forwardStep_succ hstep
        exact .head (.assign (a + z) i.succ_ne_zero hp)
          (alignOrRestart_run (by simp) (fun _ _ => ih) hor)
    refine hforward.trans (runSteps_induction
      (fun is t => LayoutRun ctx m t ∧ ∀ i ∈ is, i ≠ 0) ?_ ⟨.refl, ?_⟩ hbwd).1
    · intro i is t t' ⟨hrun, his⟩ hstep
      have hi : i ≠ 0 := his i (List.mem_cons_self ..)
      obtain ⟨p, b, hp, -, hor⟩ := backwardStep_cases hstep
      refine ⟨hrun.trans (.head (.assign b hi hp) ?_), fun j hj => his j (List.mem_cons_of_mem _ hj)⟩
      exact alignOrRestart_run (by simp) (fun _ _ hr => ih (reportRecursion_eq_ok hr)) hor
    · intro i hi
      rw [List.mem_reverse, List.mem_range'_1] at hi
      omega

end SdkNrf.PartitionManager
