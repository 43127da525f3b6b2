import SdkNrf.PartitionManager.Prepared

/-!
# Partitions of size zero

`remove_all_zero_sized_partitions` calls itself while it iterates, and all calls share one list of
deletions and the `share_size` lists that they shorten.
-/

namespace SdkNrf.PartitionManager

namespace Refs

def targets : Refs → List Name
  | list items => items.filterMap fun
    | .name n => some n
    | .oneOf _ => none
  | oneOf choices => choices

def keep (f : Name → Bool) : Refs → Refs
  | list items => list (items.filter fun
    | .name n => f n
    | .oneOf _ => false)
  | oneOf choices => oneOf (choices.filter f)

theorem removeItemNotInList_eq (existing : List Name) (dp : Name) (refs : Refs) :
    refs.removeItemNotInList existing dp = refs.keep (keeps existing dp) := by
  cases refs <;> rfl

theorem keep_keep (f g : Name → Bool) (refs : Refs) :
    (refs.keep f).keep g = refs.keep fun n => f n && g n := by
  cases refs with
  | list items =>
    rw [keep, keep, keep, List.filter_filter]
    congr 2
    funext i
    cases i with
    | name n => exact Bool.and_comm _ _
    | oneOf choices => rfl
  | oneOf choices =>
    rw [keep, keep, keep, List.filter_filter]
    congr 2
    funext n
    exact Bool.and_comm _ _

theorem targets_keep (f : Name → Bool) (refs : Refs) :
    (refs.keep f).targets = refs.targets.filter f := by
  cases refs with
  | list items =>
    rw [keep, targets, targets]
    induction items with
    | nil => rfl
    | cons i is ih =>
      cases i with
      | name n => by_cases hn : f n <;> simp [hn, ih]
      | oneOf choices => simpa [List.filter_cons] using ih
  | oneOf choices => rfl

theorem isEmpty_keep (f : Name → Bool) (refs : Refs) :
    (refs.keep f).isEmpty = true ↔ ∀ t ∈ refs.targets, f t = false := by
  cases refs with
  | list items =>
    rw [keep, isEmpty, List.isEmpty_iff, List.filter_eq_nil_iff, targets]
    constructor
    · intro h t ht
      obtain ⟨i, hi, hit⟩ := List.mem_filterMap.mp ht
      cases i with
      | name n =>
        obtain rfl : n = t := by simpa using hit
        simpa using h _ hi
      | oneOf choices => cases hit
    · intro h i hi
      cases i with
      | name n => simpa using h n (List.mem_filterMap.mpr ⟨_, hi, rfl⟩)
      | oneOf choices => simp
  | oneOf choices => simp [keep, isEmpty, targets]

theorem mem_targets_of_keep_eq {f : Name → Bool} {refs : Refs} (h : refs.keep f = refs) {t : Name}
    (ht : t ∈ refs.targets) : f t = true := by
  rw [← h, targets_keep, List.mem_filter] at ht
  exact ht.2

end Refs

section

variable (reqs : Reqs Refs) (dp : Name)

def givenSize (p : Name) : Option Int := (reqs.get? p).bind Req.size

def givenShare (p : Name) : Option Refs := (reqs.get? p).bind Req.shareSize

/-- The set holds the partitions of size zero, and the partitions without a size of their own that
share the size of nothing that exists outside the set. The dynamic partition exists. -/
def ClosedUnderRemoval (R : Set Name) : Prop :=
  ∀ p, givenSize reqs p = some 0 ∨
      givenSize reqs p = none ∧ (∃ refs, givenShare reqs p = some refs ∧
        ∀ t ∈ refs.targets, t ≠ dp ∧ (t ∉ reqs.keys ∨ t ∈ R)) →
    p ∈ R

end

section

variable {reqs : Reqs Refs} {dp : Name} {R : Set Name}

def Alive (reqs : Reqs Refs) (dp : Name) (R : Set Name) (t : Name) : Prop :=
  t = dp ∨ t ∈ reqs.keys ∧ t ∉ R

def SameAlive (reqs : Reqs Refs) (dp : Name) (R : Set Name) (refs refs₀ : Refs) : Prop :=
  ∀ g : Name → Bool, (∀ t, g t = true → Alive reqs dp R t) → refs.keep g = refs₀.keep g

variable {f : Name → Bool}

theorem SameAlive.keep {refs refs₀ : Refs} (h : SameAlive reqs dp R refs refs₀)
    (hf : ∀ t, Alive reqs dp R t → f t = true) : SameAlive reqs dp R (refs.keep f) refs₀ := by
  intro g hg
  have hand : (fun n => f n && g n) = g := by
    funext n
    cases hn : g n with
    | false => exact Bool.and_false _
    | true => rw [hf n (hg n hn), Bool.and_self]
  rw [Refs.keep_keep, hand, h g hg]

theorem SameAlive.not_alive {refs refs₀ : Refs} (h : SameAlive reqs dp R refs refs₀)
    (hf : ∀ t, Alive reqs dp R t → f t = true) (hempty : (refs.keep f).isEmpty = true) :
    ∀ t ∈ refs₀.targets, ¬ Alive reqs dp R t := by
  intro t ht halive
  have hone := h (fun n => decide (n = t)) fun n hn => of_decide_eq_true hn ▸ halive
  have hmem : t ∈ (refs₀.keep fun n => decide (n = t)).targets := by
    rw [Refs.targets_keep, List.mem_filter]
    exact ⟨ht, decide_eq_true rfl⟩
  rw [← hone, Refs.targets_keep, List.mem_filter] at hmem
  have hfalse := (Refs.isEmpty_keep f refs).mp hempty t hmem.1
  rw [hf t halive] at hfalse
  cases hfalse

structure Tracks (reqs : Reqs Refs) (dp : Name) (R : Set Name) (st : ZeroState) : Prop where
  /-- Nothing but `share_size` changes. -/
  keys : st.reqs.keys = reqs.keys
  others : ∀ p, (st.reqs.get? p).map (fun v => { v with shareSize := none }) =
    (reqs.get? p).map fun v => { v with shareSize := none }
  unshared : ∀ p, givenShare reqs p = none → givenShare st.reqs p = none
  shared : ∀ p refs₀, givenShare reqs p = some refs₀ →
    (∃ refs, givenShare st.reqs p = some refs ∧ refs.targets ⊆ refs₀.targets ∧
        SameAlive reqs dp R refs refs₀) ∨
      givenShare st.reqs p = none ∧ (∀ t ∈ refs₀.targets, ¬ Alive reqs dp R t) ∧
        (givenSize reqs p = none → p ∈ st.toDelete)
  deleted : ∀ p ∈ st.toDelete, p ∈ reqs.keys ∧ p ∈ R

namespace Tracks

variable {st : ZeroState}

theorem size (h : Tracks reqs dp R st) (p : Name) :
    (st.reqs.get? p).bind Req.size = givenSize reqs p := by
  have hp := congrArg (Option.bind · Req.size) (h.others p)
  simp only [Option.bind_map, Function.comp_def] at hp
  exact hp

theorem start : Tracks reqs dp R ⟨reqs, []⟩ where
  keys := rfl
  others _ := rfl
  unshared _ hp := hp
  shared _ refs₀ hp := .inl ⟨refs₀, hp, fun _ ht => ht, fun _ _ => rfl⟩
  deleted p hp := by cases hp

theorem delete (h : Tracks reqs dp R st) {k : Name} (hk : k ∈ reqs.keys) (hR : k ∈ R) :
    Tracks reqs dp R { st with toDelete := st.toDelete ++ [k] } where
  keys := h.keys
  others := h.others
  unshared := h.unshared
  shared p refs₀ hp := (h.shared p refs₀ hp).imp_right fun hnone =>
    ⟨hnone.1, hnone.2.1, fun hsize => List.mem_append_left _ (hnone.2.2 hsize)⟩
  deleted p hp := by
    rcases List.mem_append.mp hp with hp | hp
    · exact h.deleted p hp
    · rw [List.mem_singleton.mp hp]
      exact ⟨hk, hR⟩

theorem others_modify (h : Tracks reqs dp R st) (k : Name) (l : Option Refs) (p : Name) :
    (((st.reqs.modify k fun v => { v with shareSize := l }).get? p).map
      fun v => { v with shareSize := none }) =
    (reqs.get? p).map fun v => { v with shareSize := none } := by
  rw [← h.others p, Dict.get?_modify]
  split <;> cases st.reqs.get? p <;> rfl

end Tracks

theorem givenShare_modify (reqs : Reqs Refs) (k p : Name) (l : Option Refs) :
    givenShare (reqs.modify k fun v => { v with shareSize := l }) p =
      if p = k then (reqs.get? p).bind (fun _ => l) else givenShare reqs p := by
  rw [givenShare, Dict.get?_modify]
  split
  · rw [Option.bind_map]
    rfl
  · rfl

namespace Tracks

variable {st : ZeroState}

theorem narrow (h : Tracks reqs dp R st) {k : Name} {refs : Refs}
    (hshare : givenShare st.reqs k = some refs) {f : Name → Bool}
    (hf : ∀ t, Alive reqs dp R t → f t = true) :
    Tracks reqs dp R
      { st with reqs := st.reqs.modify k fun v => { v with shareSize := some (refs.keep f) } } where
  keys := (Dict.keys_modify _ _ _).trans h.keys
  others := h.others_modify k _
  unshared p hp := by
    have hp' := h.unshared p hp
    have hne : p ≠ k := by
      rintro rfl
      rw [hshare] at hp'
      cases hp'
    rw [givenShare_modify, if_neg hne, hp']
  shared p refs₀ hp := by
    rw [givenShare_modify]
    split_ifs with hk
    · subst hk
      rcases h.shared p refs₀ hp with ⟨refs', hrefs', hsub, hsame⟩ | ⟨hnone, -⟩
      · rw [hshare, Option.some.injEq] at hrefs'
        subst hrefs'
        obtain ⟨v, hv, -⟩ := Option.bind_eq_some_iff.mp hshare
        refine .inl ⟨_, by rw [hv]; rfl, fun t ht => ?_, hsame.keep hf⟩
        rw [Refs.targets_keep] at ht
        exact hsub (List.mem_of_mem_filter ht)
      · rw [hshare] at hnone
        cases hnone
    · exact h.shared p refs₀ hp
  deleted := h.deleted

/-- `share_size` goes when no reference is left; a partition without a size is deleted with it. -/
theorem unshare (h : Tracks reqs dp R st) {k : Name} {refs : Refs}
    (hshare : givenShare st.reqs k = some refs) {f : Name → Bool}
    (hf : ∀ t, Alive reqs dp R t → f t = true) (hempty : (refs.keep f).isEmpty = true)
    (hclosed : ClosedUnderRemoval reqs dp R) {more : List Name}
    (hmore : more = if givenSize reqs k = none then [k] else []) :
    Tracks reqs dp R
      ⟨st.reqs.modify k fun v => { v with shareSize := none }, st.toDelete ++ more⟩ := by
  obtain ⟨v, hv, -⟩ := Option.bind_eq_some_iff.mp hshare
  have hdead (refs₀ : Refs) (hrefs₀ : givenShare reqs k = some refs₀) :
      ∀ t ∈ refs₀.targets, ¬ Alive reqs dp R t := by
    rcases h.shared k refs₀ hrefs₀ with ⟨refs', hrefs', -, hsame⟩ | ⟨hnone, -⟩
    · rw [hshare, Option.some.injEq] at hrefs'
      subst hrefs'
      exact hsame.not_alive hf hempty
    · rw [hshare] at hnone
      cases hnone
  refine ⟨(Dict.keys_modify _ _ _).trans h.keys, h.others_modify k none, ?_, ?_, ?_⟩
  · intro p hp
    rw [givenShare_modify]
    split_ifs
    · cases st.reqs.get? p <;> rfl
    · exact h.unshared p hp
  · intro p refs₀ hp
    rw [givenShare_modify]
    split_ifs with hk
    · subst hk
      refine .inr ⟨by cases st.reqs.get? p <;> rfl, hdead refs₀ hp, fun hsize => ?_⟩
      rw [hmore, if_pos hsize]
      exact List.mem_append_right _ (List.mem_singleton_self p)
    · exact (h.shared p refs₀ hp).imp_right fun hnone =>
        ⟨hnone.1, hnone.2.1, fun hsize => List.mem_append_left _ (hnone.2.2 hsize)⟩
  · intro p hp
    rcases List.mem_append.mp hp with hp | hp
    · exact h.deleted p hp
    · rw [hmore] at hp
      split_ifs at hp with hsize
      · rw [List.mem_singleton.mp hp]
        refine ⟨h.keys ▸ Dict.mem_keys_of_get? hv, hclosed k (.inr ⟨hsize, ?_⟩)⟩
        cases hgiven : givenShare reqs k with
        | none =>
          have hnone := h.unshared k hgiven
          rw [hshare] at hnone
          cases hnone
        | some refs₀ =>
          refine ⟨refs₀, rfl, fun t ht => ?_⟩
          have hnot := hdead refs₀ hgiven t ht
          rw [Alive, not_or, not_and_or, not_not] at hnot
          exact hnot
      · cases hp

end Tracks

def Settled (reqs : Reqs Refs) (dp : Name) (st : ZeroState) : Prop :=
  ∀ p ∈ reqs.keys, p ∉ st.toDelete → givenSize reqs p ≠ some 0 ∧
    ∀ refs, givenShare st.reqs p = some refs → refs.isEmpty = false ∧
      refs.keep (keeps (reqs.keys.filter (· ∉ st.toDelete)) dp) = refs

/-- What a call over `keys` that has deleted nothing yet knows of the partitions it has seen. -/
def Checked (reqs : Reqs Refs) (dp : Name) (keys seen : List Name) (st : ZeroState) : Prop :=
  ∀ p ∈ seen, givenSize reqs p ≠ some 0 ∧
    ∀ refs, givenShare st.reqs p = some refs → refs.isEmpty = false ∧
      refs.keep (keeps (keys.filter fun p => givenSize reqs p ≠ some 0) dp) = refs

/-- Add `k` to `to_delete` and call again with what is left. -/
def deleteAndRerun (dp : Name) (depth : Nat) (keys : List Name) (k : Name) (st : ZeroState) :
    ZeroState :=
  removeZeroSized dp depth (keys.filter (· ∉ st.toDelete ++ [k]))
    { st with toDelete := st.toDelete ++ [k] }

def sizeStep (dp : Name) (depth : Nat) (keys : List Name) (st : ZeroState) (k : Name) : ZeroState :=
  if (st.reqs.get? k).bind Req.size = some 0 then deleteAndRerun dp depth keys k st else st

def shareStep (dp : Name) (depth : Nat) (keys : List Name) (st : ZeroState) (k : Name) : ZeroState :=
  match (st.reqs.get? k).bind Req.shareSize with
  | none => st
  | some refs =>
    let refs := refs.removeItemNotInList (nonZeroPartitions st.reqs keys) dp
    if refs.isEmpty then
      let st := { st with reqs := st.reqs.modify k fun v => { v with shareSize := none } }
      if (st.reqs.get? k).bind Req.size = none then deleteAndRerun dp depth keys k st else st
    else { st with reqs := st.reqs.modify k fun v => { v with shareSize := some refs } }

theorem removeZeroSized_succ (dp : Name) (depth : Nat) (keys : List Name) (st : ZeroState) :
    removeZeroSized dp (depth + 1) keys st =
      keys.foldl (fun st k => shareStep dp depth keys (sizeStep dp depth keys st k) k) st :=
  rfl

def CallSettles (reqs : Reqs Refs) (dp : Name) (R : Set Name) (depth : Nat) : Prop :=
  ∀ (keys : List Name) (st : ZeroState), keys.length ≤ depth → Tracks reqs dp R st →
    (∀ p, p ∈ keys ↔ p ∈ reqs.keys ∧ p ∉ st.toDelete) →
    Tracks reqs dp R (removeZeroSized dp depth keys st) ∧
      Settled reqs dp (removeZeroSized dp depth keys st) ∧
      st.toDelete ⊆ (removeZeroSized dp depth keys st).toDelete

variable {depth : Nat} {keys : List Name} {st : ZeroState} {k : Name}

theorem nonZeroPartitions_eq (h : Tracks reqs dp R st) (keys : List Name) :
    nonZeroPartitions st.reqs keys = keys.filter fun p => givenSize reqs p ≠ some 0 := by
  unfold nonZeroPartitions
  simp only [h.size]

theorem deleteAndRerun_settles (hcall : CallSettles reqs dp R depth) (hlen : keys.length ≤ depth + 1)
    (hk : k ∈ keys) {deleted : List Name} (hkeys : ∀ p, p ∈ keys ↔ p ∈ reqs.keys ∧ p ∉ deleted)
    (hsub : deleted ⊆ st.toDelete)
    (htracks : Tracks reqs dp R { st with toDelete := st.toDelete ++ [k] }) :
    Tracks reqs dp R (deleteAndRerun dp depth keys k st) ∧
      Settled reqs dp (deleteAndRerun dp depth keys k st) ∧
      st.toDelete ⊆ (deleteAndRerun dp depth keys k st).toDelete := by
  have hshorter : (keys.filter (· ∉ st.toDelete ++ [k])).length < keys.length := by
    rw [List.length_filter_lt_length_iff_exists]
    exact ⟨k, hk, by simp⟩
  have hleft (p : Name) : p ∈ keys.filter (· ∉ st.toDelete ++ [k]) ↔
      p ∈ reqs.keys ∧ p ∉ st.toDelete ++ [k] := by
    rw [List.mem_filter, hkeys, decide_eq_true_eq]
    constructor
    · exact fun h => ⟨h.1.1, h.2⟩
    · exact fun h => ⟨⟨h.1, fun hp => h.2 (List.mem_append_left _ (hsub hp))⟩, h.2⟩
  obtain ⟨hT, hS, hD⟩ := hcall _ { st with toDelete := st.toDelete ++ [k] }
    (by omega) htracks hleft
  exact ⟨hT, hS, fun p hp => hD (List.mem_append_left _ hp)⟩

/-- What the loop of a call knows behind the partitions `seen`. -/
structure LoopInv (reqs : Reqs Refs) (dp : Name) (R : Set Name) (keys deleted seen : List Name)
    (st : ZeroState) : Prop where
  tracks : Tracks reqs dp R st
  grows : deleted ⊆ st.toDelete
  phase : Settled reqs dp st ∨ st.toDelete = deleted ∧ Checked reqs dp keys seen st

variable {deleted seen : List Name}

theorem sizeStep_inv (hcall : CallSettles reqs dp R depth) (hclosed : ClosedUnderRemoval reqs dp R)
    (hlen : keys.length ≤ depth + 1) (hkeys : ∀ p, p ∈ keys ↔ p ∈ reqs.keys ∧ p ∉ deleted)
    (hk : k ∈ keys) (h : LoopInv reqs dp R keys deleted seen st) :
    LoopInv reqs dp R keys deleted seen (sizeStep dp depth keys st k) ∧
      (Settled reqs dp (sizeStep dp depth keys st k) ∨ givenSize reqs k ≠ some 0) := by
  rw [sizeStep, h.tracks.size]
  split
  next hzero =>
    have hdelete := h.tracks.delete ((hkeys k).mp hk).1 (hclosed k (.inl hzero))
    obtain ⟨hT, hS, hD⟩ := deleteAndRerun_settles hcall hlen hk hkeys h.grows hdelete
    exact ⟨⟨hT, fun p hp => hD (h.grows hp), .inl hS⟩, .inl hS⟩
  next hne => exact ⟨h, .inr hne⟩

theorem keeps_of_alive (hclosed : ClosedUnderRemoval reqs dp R) (htracks : Tracks reqs dp R st)
    (hkeys : ∀ p, p ∈ keys ↔ p ∈ reqs.keys ∧ p ∉ deleted) (hsub : deleted ⊆ st.toDelete) (t : Name)
    (ht : Alive reqs dp R t) :
    keeps (keys.filter fun p => givenSize reqs p ≠ some 0) dp t = true := by
  rcases ht with rfl | ⟨hmem, hR⟩
  · simp [keeps]
  · have hsize : givenSize reqs t ≠ some 0 := fun hzero => hR (hclosed t (.inl hzero))
    have hkey : t ∈ keys := (hkeys t).mpr ⟨hmem, fun hd => hR (htracks.deleted t (hsub hd)).2⟩
    simp [keeps, hkey, hsize]

theorem Refs.keep_comm (f g : Name → Bool) (refs : Refs) :
    (refs.keep f).keep g = (refs.keep g).keep f := by
  rw [keep_keep, keep_keep]
  congr 1
  funext n
  exact Bool.and_comm _ _

theorem Settled.narrow (h : Settled reqs dp st) {refs : Refs}
    (hshare : givenShare st.reqs k = some refs) (hne : (refs.keep f).isEmpty = false) :
    Settled reqs dp
      { st with reqs := st.reqs.modify k fun v => { v with shareSize := some (refs.keep f) } } := by
  intro p hp hleft
  obtain ⟨hsize, hrefs⟩ := h p hp hleft
  refine ⟨hsize, fun refs' hrefs' => ?_⟩
  rw [givenShare_modify] at hrefs'
  split_ifs at hrefs' with hk
  · subst hk
    obtain ⟨v, hv, -⟩ := Option.bind_eq_some_iff.mp hshare
    rw [hv, Option.bind_some, Option.some.injEq] at hrefs'
    subst hrefs'
    refine ⟨hne, ?_⟩
    rw [Refs.keep_comm, (hrefs refs hshare).2]
  · exact hrefs refs' hrefs'

theorem Settled.unshare (h : Settled reqs dp st) (k : Name) : Settled reqs dp
    { st with reqs := st.reqs.modify k fun v => { v with shareSize := none } } := by
  intro p hp hleft
  obtain ⟨hsize, hrefs⟩ := h p hp hleft
  refine ⟨hsize, fun refs' hrefs' => ?_⟩
  rw [givenShare_modify] at hrefs'
  split_ifs at hrefs'
  · cases hget : st.reqs.get? p <;> simp [hget] at hrefs'
  · exact hrefs refs' hrefs'

theorem Checked.skip (h : Checked reqs dp keys seen st) (hsize : givenSize reqs k ≠ some 0)
    (hshare : givenShare st.reqs k = none) : Checked reqs dp keys (k :: seen) st := by
  intro p hp
  rcases List.mem_cons.mp hp with rfl | hp
  · exact ⟨hsize, fun refs hrefs => by rw [hshare] at hrefs; cases hrefs⟩
  · exact h p hp

theorem Checked.narrow (h : Checked reqs dp keys seen st) (hsize : givenSize reqs k ≠ some 0)
    {refs : Refs} (hshare : givenShare st.reqs k = some refs)
    (hf : f = keeps (keys.filter fun p => givenSize reqs p ≠ some 0) dp)
    (hne : (refs.keep f).isEmpty = false) : Checked reqs dp keys (k :: seen)
      { st with reqs := st.reqs.modify k fun v => { v with shareSize := some (refs.keep f) } } := by
  intro p hp
  have hsame (hne : p ≠ k) : givenShare (st.reqs.modify k fun v =>
      { v with shareSize := some (refs.keep f) }) p = givenShare st.reqs p := by
    rw [givenShare_modify, if_neg hne]
  by_cases hk : p = k
  · subst hk
    refine ⟨hsize, fun refs' hrefs' => ?_⟩
    obtain ⟨v, hv, -⟩ := Option.bind_eq_some_iff.mp hshare
    rw [givenShare_modify, if_pos rfl, hv, Option.bind_some, Option.some.injEq] at hrefs'
    subst hrefs'
    refine ⟨hne, ?_⟩
    rw [← hf, Refs.keep_keep]
    simp only [Bool.and_self]
  · obtain ⟨hsize', hrefs⟩ := h p ((List.mem_cons.mp hp).resolve_left hk)
    exact ⟨hsize', fun refs' hrefs' => hrefs refs' (hsame hk ▸ hrefs')⟩

theorem Checked.unshare (h : Checked reqs dp keys seen st) (hsize : givenSize reqs k ≠ some 0) :
    Checked reqs dp keys (k :: seen)
      { st with reqs := st.reqs.modify k fun v => { v with shareSize := none } } := by
  intro p hp
  by_cases hk : p = k
  · subst hk
    refine ⟨hsize, fun refs' hrefs' => ?_⟩
    rw [givenShare_modify, if_pos rfl] at hrefs'
    cases hget : st.reqs.get? p <;> simp [hget] at hrefs'
  · obtain ⟨hsize', hrefs⟩ := h p ((List.mem_cons.mp hp).resolve_left hk)
    refine ⟨hsize', fun refs' hrefs' => hrefs refs' ?_⟩
    rw [givenShare_modify, if_neg hk] at hrefs'
    exact hrefs'

theorem Settled.of_checked (h : Checked reqs dp keys keys st)
    (hkeys : ∀ p, p ∈ keys ↔ p ∈ reqs.keys ∧ p ∉ st.toDelete) : Settled reqs dp st := by
  intro p hp hleft
  obtain ⟨hsize, hrefs⟩ := h p ((hkeys p).mpr ⟨hp, hleft⟩)
  refine ⟨hsize, fun refs hshare => ?_⟩
  obtain ⟨hne, hkeep⟩ := hrefs refs hshare
  refine ⟨hne, ?_⟩
  -- What the call kept is among what is left.
  have hand : (fun n => keeps (keys.filter fun p => givenSize reqs p ≠ some 0) dp n &&
      keeps (reqs.keys.filter (· ∉ st.toDelete)) dp n) =
        keeps (keys.filter fun p => givenSize reqs p ≠ some 0) dp := by
    funext n
    cases hn : keeps (keys.filter fun p => givenSize reqs p ≠ some 0) dp n with
    | false => rfl
    | true =>
      simp only [keeps, List.mem_filter, decide_eq_true_eq, Bool.or_eq_true] at hn
      simpa [keeps, hkeys] using hn.imp_left fun h => (hkeys n).mp h.1
  calc refs.keep (keeps (reqs.keys.filter (· ∉ st.toDelete)) dp)
    _ = (refs.keep (keeps (keys.filter fun p => givenSize reqs p ≠ some 0) dp)).keep
          (keeps (reqs.keys.filter (· ∉ st.toDelete)) dp) := by rw [hkeep]
    _ = refs.keep (keeps (keys.filter fun p => givenSize reqs p ≠ some 0) dp) := by
        rw [Refs.keep_keep, hand]
    _ = refs := hkeep

theorem shareStep_inv (hcall : CallSettles reqs dp R depth) (hclosed : ClosedUnderRemoval reqs dp R)
    (hlen : keys.length ≤ depth + 1) (hkeys : ∀ p, p ∈ keys ↔ p ∈ reqs.keys ∧ p ∉ deleted)
    (hk : k ∈ keys) (h : LoopInv reqs dp R keys deleted seen st)
    (hsize : Settled reqs dp st ∨ givenSize reqs k ≠ some 0) :
    LoopInv reqs dp R keys deleted (k :: seen) (shareStep dp depth keys st k) := by
  have hnz := nonZeroPartitions_eq h.tracks keys
  rw [shareStep]
  split
  next hshare =>
    refine ⟨h.tracks, h.grows, ?_⟩
    rcases h.phase with hS | ⟨hD, hC⟩
    · exact .inl hS
    · exact hsize.imp_right fun hne => ⟨hD, hC.skip hne hshare⟩
  next refs hshare =>
    dsimp only
    have hf := keeps_of_alive hclosed h.tracks hkeys h.grows
    rw [Refs.removeItemNotInList_eq, hnz]
    set f := keeps (keys.filter fun p => givenSize reqs p ≠ some 0) dp with hfdef
    split
    next hempty =>
      have hunshare := h.tracks.unshare hshare hf hempty hclosed rfl
      have hsize' : ((st.reqs.modify k fun v => { v with shareSize := none }).get? k).bind Req.size =
          givenSize reqs k := by
        rw [← h.tracks.size k, Dict.get?_modify_self, Option.bind_map]
        rfl
      rw [hsize']
      split
      next hnone =>
        rw [if_pos hnone] at hunshare
        set st₁ : ZeroState := ⟨st.reqs.modify k fun v => { v with shareSize := none }, st.toDelete⟩
        have hgrows : deleted ⊆ st₁.toDelete := h.grows
        obtain ⟨hT, hS, hD⟩ := deleteAndRerun_settles hcall hlen hk hkeys hgrows hunshare
        exact ⟨hT, fun p hp => hD (h.grows hp), .inl hS⟩
      next hsome =>
        rw [if_neg hsome, List.append_nil] at hunshare
        refine ⟨hunshare, h.grows, ?_⟩
        rcases h.phase with hS | ⟨hD, hC⟩
        · exact .inl (hS.unshare k)
        · rcases hsize with hS | hne
          · exact .inl (hS.unshare k)
          · exact .inr ⟨hD, hC.unshare hne⟩
    next hne =>
      rw [Bool.not_eq_true] at hne
      refine ⟨h.tracks.narrow hshare hf, h.grows, ?_⟩
      rcases h.phase with hS | ⟨hD, hC⟩
      · exact .inl (hS.narrow hshare hne)
      · rcases hsize with hS | hne'
        · exact .inl (hS.narrow hshare hne)
        · exact .inr ⟨hD, hC.narrow hne' hshare hfdef hne⟩

theorem loop_inv (hcall : CallSettles reqs dp R depth) (hclosed : ClosedUnderRemoval reqs dp R)
    (hlen : keys.length ≤ depth + 1) (hkeys : ∀ p, p ∈ keys ↔ p ∈ reqs.keys ∧ p ∉ deleted)
    (rest : List Name) : ∀ (seen : List Name) (st : ZeroState), rest ⊆ keys →
      LoopInv reqs dp R keys deleted seen st →
      LoopInv reqs dp R keys deleted (rest.reverse ++ seen)
        (rest.foldl (fun st k => shareStep dp depth keys (sizeStep dp depth keys st k) k) st) := by
  induction rest with
  | nil => exact fun _ _ _ h => h
  | cons k rest ih =>
    intro seen st hsub h
    have hk := hsub List.mem_cons_self
    obtain ⟨hinv, hsize⟩ := sizeStep_inv hcall hclosed hlen hkeys hk h
    have hstep := shareStep_inv hcall hclosed hlen hkeys hk hinv hsize
    have hrest := ih (k :: seen) _ (fun p hp => hsub (List.mem_cons_of_mem k hp)) hstep
    rw [List.reverse_cons, List.append_assoc]
    exact hrest

theorem removeZeroSized_settles (hclosed : ClosedUnderRemoval reqs dp R) (depth : Nat) :
    CallSettles reqs dp R depth := by
  induction depth with
  | zero =>
    intro keys st hlen htracks hkeys
    have hnil : keys = [] := List.length_eq_zero_iff.mp (by omega)
    refine ⟨htracks, fun p hp hleft => ?_, fun p hp => hp⟩
    have := (hkeys p).mpr ⟨hp, hleft⟩
    rw [hnil] at this
    cases this
  | succ depth ih =>
    intro keys st hlen htracks hkeys
    rw [removeZeroSized_succ]
    have hstart : LoopInv reqs dp R keys st.toDelete [] st :=
      ⟨htracks, fun p hp => hp, .inr ⟨rfl, fun p hp => by cases hp⟩⟩
    obtain ⟨hT, hgrows, hphase⟩ :=
      loop_inv ih hclosed hlen hkeys keys [] st (fun p hp => hp) hstart
    refine ⟨hT, ?_, hgrows⟩
    rcases hphase with hS | ⟨hD, hC⟩
    · exact hS
    · have hall : Checked reqs dp keys keys _ := fun p hp => hC p (by simpa using hp)
      exact Settled.of_checked hall (by rw [hD]; exact hkeys)

end

section

variable (reqs : Reqs Refs) (dp : Name)

def removable : Set Name := {p | ∀ R, ClosedUnderRemoval reqs dp R → p ∈ R}

theorem removable_closed : ClosedUnderRemoval reqs dp (removable reqs dp) := by
  intro p hp R hR
  refine hR p (hp.imp_right fun hshare => ⟨hshare.1, ?_⟩)
  obtain ⟨refs, hrefs, hgone⟩ := hshare.2
  exact ⟨refs, hrefs, fun t ht => ⟨(hgone t ht).1, (hgone t ht).2.imp_right fun h => h R hR⟩⟩

def zeroRun : ZeroState := removeZeroSized dp (reqs.keys.length + 1) reqs.keys ⟨reqs, []⟩

theorem zeroRun_tracks : Tracks reqs dp (removable reqs dp) (zeroRun reqs dp) ∧
    Settled reqs dp (zeroRun reqs dp) := by
  have hcall := removeZeroSized_settles (removable_closed reqs dp) (reqs.keys.length + 1)
  obtain ⟨hT, hS, -⟩ := hcall reqs.keys ⟨reqs, []⟩ (Nat.le_succ _) Tracks.start (by simp)
  exact ⟨hT, hS⟩

theorem zeroRun_closed : ClosedUnderRemoval reqs dp {p | p ∈ (zeroRun reqs dp).toDelete} := by
  obtain ⟨hT, hS⟩ := zeroRun_tracks reqs dp
  intro p hp
  by_contra hleft
  have hmem : p ∈ reqs.keys := by
    rw [← Dict.get?_isSome_iff, Option.isSome_iff_ne_none]
    intro hnone
    rcases hp with hzero | ⟨-, refs, hrefs, -⟩
    · simp [givenSize, hnone] at hzero
    · simp [givenShare, hnone] at hrefs
  obtain ⟨hsize, hrefs⟩ := hS p hmem hleft
  rcases hp with hzero | ⟨hnone, refs₀, hrefs₀, hgone⟩
  · exact hsize hzero
  rcases hT.shared p refs₀ hrefs₀ with ⟨refs, hshare, hsub, -⟩ | ⟨-, -, hdeleted⟩
  · obtain ⟨hne, hkeep⟩ := hrefs refs hshare
    have hnot : ¬ (refs.keep (keeps (reqs.keys.filter (· ∉ (zeroRun reqs dp).toDelete)) dp)).isEmpty =
        true := by rw [hkeep, hne]; exact Bool.false_ne_true
    rw [Refs.isEmpty_keep] at hnot
    push Not at hnot
    obtain ⟨t, ht, hlive⟩ := hnot
    obtain ⟨hdp, hgone⟩ := hgone t (hsub ht)
    rw [ne_eq, Bool.not_eq_false, keeps] at hlive
    simp only [List.mem_filter, decide_eq_true_eq, Bool.or_eq_true, hdp, or_false] at hlive
    exact hgone.elim (fun h => h hlive.1) fun h => hlive.2 h
  · exact hleft (hdeleted hnone)

theorem mem_toDelete_iff (p : Name) : p ∈ (zeroRun reqs dp).toDelete ↔ p ∈ removable reqs dp :=
  ⟨fun h => ((zeroRun_tracks reqs dp).1.deleted p h).2, fun h => h _ (zeroRun_closed reqs dp)⟩

theorem mem_keys_removeAll (p : Name) :
    p ∈ (removeAllZeroSizedPartitions reqs dp).keys ↔ p ∈ reqs.keys ∧ p ∉ removable reqs dp := by
  have hT := (zeroRun_tracks reqs dp).1
  have hget := Dict.get?_isSome_iff (zeroRun reqs dp).reqs p
  rw [hT.keys, Option.isSome_iff_exists] at hget
  rw [removeAllZeroSizedPartitions, Dict.mem_keys_filter, ← mem_toDelete_iff, ← hget]
  constructor
  · rintro ⟨v, hv, hleft⟩
    exact ⟨⟨v, hv⟩, of_decide_eq_true hleft⟩
  · rintro ⟨⟨v, hv⟩, hleft⟩
    exact ⟨v, hv, decide_eq_true hleft⟩

variable {p : Name}

theorem removable_subset (h : p ∈ removable reqs dp) : p ∈ reqs.keys :=
  ((zeroRun_tracks reqs dp).1.deleted p ((mem_toDelete_iff reqs dp p).mpr h)).1

/-- The references of `share_size` that are left, `none` when there are none. -/
def leftShare (left : List Name) (dp : Name) (refs : Refs) : Option Refs :=
  if (refs.keep (keeps left dp)).isEmpty then none else some (refs.keep (keeps left dp))

def Req.leave (left : List Name) (dp : Name) (v : Req Refs) : Req Refs :=
  { v with shareSize := v.shareSize.bind (leftShare left dp) }

theorem leftShare_congr {left left' : List Name} (h : ∀ t, t ∈ left ↔ t ∈ left') (dp : Name)
    (refs : Refs) : leftShare left dp refs = leftShare left' dp refs := by
  have hkeeps : keeps left dp = keeps left' dp := by
    funext t
    simp [keeps, h t]
  rw [leftShare, leftShare, hkeeps]

theorem givenShare_zeroRun (hmem : p ∈ reqs.keys) (hleft : p ∉ removable reqs dp) :
    givenShare (zeroRun reqs dp).reqs p = (givenShare reqs p).bind
      (leftShare (reqs.keys.filter (· ∉ (zeroRun reqs dp).toDelete)) dp) := by
  obtain ⟨hT, hS⟩ := zeroRun_tracks reqs dp
  have hnot : p ∉ (zeroRun reqs dp).toDelete := fun h => hleft ((mem_toDelete_iff reqs dp p).mp h)
  have halive (t : Name)
      (ht : keeps (reqs.keys.filter (· ∉ (zeroRun reqs dp).toDelete)) dp t = true) :
      Alive reqs dp (removable reqs dp) t := by
    simp only [keeps, List.mem_filter, mem_toDelete_iff, decide_eq_true_eq, Bool.or_eq_true] at ht
    exact ht.symm
  cases hgiven : givenShare reqs p with
  | none => exact hT.unshared p hgiven
  | some refs₀ =>
    rw [Option.bind_some, leftShare]
    rcases hT.shared p refs₀ hgiven with ⟨refs, hshare, -, hsame⟩ | ⟨hnone, hdead, -⟩
    · obtain ⟨hne, hkeep⟩ := (hS p hmem hnot).2 refs hshare
      have hlast := hsame _ halive
      rw [hkeep] at hlast
      rw [← hlast, hne, if_neg Bool.false_ne_true, hshare]
    · have hempty : (refs₀.keep (keeps (reqs.keys.filter
          (· ∉ (zeroRun reqs dp).toDelete)) dp)).isEmpty = true := by
        rw [Refs.isEmpty_keep]
        intro t ht
        rw [← Bool.not_eq_true]
        exact fun hlive => hdead t ht (halive t hlive)
      rw [if_pos hempty, hnone]

theorem get?_removeAll (hp : p ∈ (removeAllZeroSizedPartitions reqs dp).keys) :
    (removeAllZeroSizedPartitions reqs dp).get? p =
      (reqs.get? p).map (Req.leave (removeAllZeroSizedPartitions reqs dp).keys dp) := by
  obtain ⟨hT, -⟩ := zeroRun_tracks reqs dp
  obtain ⟨hmem, hleft⟩ := (mem_keys_removeAll reqs dp p).mp hp
  have hnot : p ∉ (zeroRun reqs dp).toDelete := fun h => hleft ((mem_toDelete_iff reqs dp p).mp h)
  have hkept : (removeAllZeroSizedPartitions reqs dp).get? p = (zeroRun reqs dp).reqs.get? p := by
    have hfilter := Dict.get?_filter (fun k _ => decide (k ∉ (zeroRun reqs dp).toDelete))
      (zeroRun reqs dp).reqs p
    rw [decide_eq_true hnot] at hfilter
    exact hfilter.trans (by cases (zeroRun reqs dp).reqs.get? p <;> rfl)
  have hsame (t : Name) : t ∈ reqs.keys.filter (· ∉ (zeroRun reqs dp).toDelete) ↔
      t ∈ (removeAllZeroSizedPartitions reqs dp).keys := by
    rw [mem_keys_removeAll, List.mem_filter, decide_eq_true_eq, mem_toDelete_iff]
  have hshare := givenShare_zeroRun reqs dp hmem hleft
  have hothers := hT.others p
  rw [hkept]
  obtain ⟨v, hv⟩ := Option.isSome_iff_exists.mp ((Dict.get?_isSome_iff reqs p).mpr hmem)
  obtain ⟨w, hw⟩ := Option.isSome_iff_exists.mp
    ((Dict.get?_isSome_iff (zeroRun reqs dp).reqs p).mpr (hT.keys ▸ hmem))
  rw [givenShare, givenShare, hv, hw, Option.bind_some, Option.bind_some] at hshare
  rw [hv, hw, Option.map_some, Option.map_some, Option.some.injEq] at hothers
  have hfun : leftShare (reqs.keys.filter (· ∉ (zeroRun reqs dp).toDelete)) dp =
      leftShare (removeAllZeroSizedPartitions reqs dp).keys dp := funext (leftShare_congr hsame dp)
  rw [hv, hw, Option.map_some, Option.some.injEq, Req.leave, ← hfun, ← hshare]
  cases v
  cases w
  simpa using hothers

theorem keys_removeAll : (removeAllZeroSizedPartitions reqs dp).keys =
    reqs.keys.filter (· ∉ (zeroRun reqs dp).toDelete) := by
  rw [← (zeroRun_tracks reqs dp).1.keys, Dict.keys, Dict.keys, List.filter_map]
  rfl

/-- A `share_size` that is left refers to something that is left. -/
theorem givenShare_removeAll {refs : Refs}
    (h : givenShare (removeAllZeroSizedPartitions reqs dp) p = some refs) :
    refs.isEmpty = false ∧
      refs.keep (keeps (removeAllZeroSizedPartitions reqs dp).keys dp) = refs := by
  obtain ⟨w, hw, hrefs⟩ := Option.bind_eq_some_iff.mp h
  rw [get?_removeAll reqs dp (Dict.mem_keys_of_get? hw)] at hw
  obtain ⟨v, -, rfl⟩ := Option.map_eq_some_iff.mp hw
  obtain ⟨refs₀, -, hleft⟩ := Option.bind_eq_some_iff.mp hrefs
  rw [leftShare] at hleft
  split_ifs at hleft with hne
  rw [Option.some.injEq] at hleft
  subst hleft
  rw [Refs.keep_keep]
  simp only [Bool.and_self]
  exact ⟨by simpa using hne, trivial⟩

theorem givenSize_removeAll (hp : p ∈ (removeAllZeroSizedPartitions reqs dp).keys) :
    givenSize (removeAllZeroSizedPartitions reqs dp) p = givenSize reqs p := by
  rw [givenSize, givenSize, get?_removeAll reqs dp hp, Option.bind_map]
  rfl

theorem removable_removeAll : removable (removeAllZeroSizedPartitions reqs dp) dp = ∅ := by
  rw [Set.eq_empty_iff_forall_notMem]
  refine fun p hp => hp ∅ fun q hq => ?_
  rcases hq with hzero | ⟨-, refs, hrefs, hgone⟩
  · have hmem : q ∈ (removeAllZeroSizedPartitions reqs dp).keys := by
      obtain ⟨w, hw, -⟩ := Option.bind_eq_some_iff.mp hzero
      exact Dict.mem_keys_of_get? hw
    rw [givenSize_removeAll reqs dp hmem] at hzero
    exact ((mem_keys_removeAll reqs dp q).mp hmem).2 fun R hR => hR q (.inl hzero)
  · obtain ⟨hne, hkeep⟩ := givenShare_removeAll reqs dp hrefs
    have hnot : ¬ (refs.keep (keeps (removeAllZeroSizedPartitions reqs dp).keys dp)).isEmpty = true := by
      rw [hkeep, hne]
      exact Bool.false_ne_true
    rw [Refs.isEmpty_keep] at hnot
    push Not at hnot
    obtain ⟨t, ht, hlive⟩ := hnot
    obtain ⟨hdp, hgone⟩ := hgone t ht
    simp only [ne_eq, Bool.not_eq_false, keeps, Bool.or_eq_true, decide_eq_true_eq, hdp,
      or_false] at hlive
    exact (hgone.resolve_left fun h => h hlive).elim

theorem removeAll_removeAll :
    removeAllZeroSizedPartitions (removeAllZeroSizedPartitions reqs dp) dp =
      removeAllZeroSizedPartitions reqs dp := by
  set left := removeAllZeroSizedPartitions reqs dp with hleft
  have hkeys : (removeAllZeroSizedPartitions left dp).keys = left.keys := by
    rw [keys_removeAll, List.filter_eq_self]
    intro p _
    have hnot : p ∉ (zeroRun left dp).toDelete := fun h => by
      simpa [hleft, removable_removeAll] using (mem_toDelete_iff left dp p).mp h
    exact decide_eq_true hnot
  refine Dict.ext_get? hkeys fun p hp => ?_
  rw [get?_removeAll left dp hp, hkeys]
  cases hget : left.get? p with
  | none => rfl
  | some v =>
    have hshare : v.shareSize.bind (leftShare left.keys dp) = v.shareSize := by
      cases hv : v.shareSize with
      | none => rfl
      | some refs =>
        have hgiven : givenShare left p = some refs := by rw [givenShare, hget]; exact hv
        obtain ⟨hne, hkeep⟩ := givenShare_removeAll reqs dp hgiven
        rw [Option.bind_some, leftShare, hkeep, hne, if_neg Bool.false_ne_true]
    rw [Option.map_some, Req.leave, hshare]

/-- What is removed is the least closed set, no remaining `share_size` refers to what is removed,
and the dynamic partition, which has neither a size nor a `share_size`, stays. A second run changes
nothing. -/
theorem removeAllZeroSizedPartitions_least :
    IsLeast {R | ClosedUnderRemoval reqs dp R}
        {p | p ∈ reqs.keys ∧ p ∉ (removeAllZeroSizedPartitions reqs dp).keys} ∧
      (∀ p refs, givenShare (removeAllZeroSizedPartitions reqs dp) p = some refs →
        ∀ t ∈ refs.targets, t = dp ∨ t ∈ (removeAllZeroSizedPartitions reqs dp).keys) ∧
      (dp ∈ reqs.keys → givenSize reqs dp = none → givenShare reqs dp = none →
        dp ∈ (removeAllZeroSizedPartitions reqs dp).keys) ∧
      removeAllZeroSizedPartitions (removeAllZeroSizedPartitions reqs dp) dp =
        removeAllZeroSizedPartitions reqs dp := by
  have hremoved : {p | p ∈ reqs.keys ∧ p ∉ (removeAllZeroSizedPartitions reqs dp).keys} =
      removable reqs dp := by
    ext p
    rw [Set.mem_ofPred_eq, mem_keys_removeAll, not_and, not_not]
    exact ⟨fun h => h.2 h.1, fun h => ⟨removable_subset reqs dp h, fun _ => h⟩⟩
  refine ⟨?_, ?_, ?_, removeAll_removeAll reqs dp⟩
  · rw [hremoved]
    exact ⟨removable_closed reqs dp, fun R hR p hp => hp R hR⟩
  · intro p refs hrefs t ht
    have hkeeps := Refs.mem_targets_of_keep_eq (givenShare_removeAll reqs dp hrefs).2 ht
    simpa [keeps, or_comm] using hkeeps
  · intro hmem hsize hshare
    refine (mem_keys_removeAll reqs dp dp).mpr ⟨hmem, fun hdp => ?_⟩
    refine hdp {p | p ≠ dp} (fun p hp heq => ?_) rfl
    subst heq
    rcases hp with hzero | ⟨-, refs, hrefs, -⟩
    · rw [hsize] at hzero
      cases hzero
    · rw [hshare] at hrefs
      cases hrefs

end

end SdkNrf.PartitionManager
