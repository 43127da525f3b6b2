import SdkNrf.Framework.ExceptRun
import SdkNrf.PartitionManager.Resolve

/-!
# Spans of containers

`solve_inside` and `clean_sub_partitions` change nothing but the spans.
-/

namespace SdkNrf.PartitionManager

open Relation

def Req.unspanned {R : Type} (v : Req R) : Req R := { v with span := none, origSpan := none }

def unspanned? (reqs : PlainReqs) (p : Name) : Option (Req (List Name)) :=
  (reqs.get? p).map Req.unspanned

def isContainer (reqs : PlainReqs) (p : Name) : Bool := ((reqs.get? p).bind Req.span).isSome

@[simp] theorem keys_setSpan (reqs : PlainReqs) (k : Name) (l : List Name) :
    (setSpan reqs k l).keys = reqs.keys := Dict.keys_modify _ _ _

@[simp] theorem unspanned?_setSpan (reqs : PlainReqs) (k q : Name) (l : List Name) :
    unspanned? (setSpan reqs k l) q = unspanned? reqs q := by
  rw [unspanned?, unspanned?, setSpan, Dict.get?_modify]
  split <;> cases reqs.get? q <;> rfl

variable {k : Name}

theorem spanOf_setSpan_self {reqs : PlainReqs} (l : List Name) (h : k ∈ reqs.keys) :
    spanOf (setSpan reqs k l) k = l := by
  obtain ⟨v, hv⟩ := Option.isSome_iff_exists.mp ((Dict.get?_isSome_iff reqs k).mpr h)
  rw [spanOf, setSpan, Dict.get?_modify_self, hv]
  rfl

theorem spanOf_setSpan_of_ne (reqs : PlainReqs) {k q : Name} (l : List Name) (h : q ≠ k) :
    spanOf (setSpan reqs k l) q = spanOf reqs q := by
  rw [spanOf, spanOf, setSpan, Dict.get?_modify_of_ne _ _ h]

theorem isContainer_setSpan {reqs : PlainReqs} (l : List Name) (h : isContainer reqs k = true)
    (q : Name) :
    isContainer (setSpan reqs k l) q = isContainer reqs q := by
  by_cases hq : q = k
  · subst hq
    rw [h, isContainer, setSpan, Dict.get?_modify_self]
    cases hv : reqs.get? q with
    | none => simp [isContainer, hv] at h
    | some v => rfl
  · rw [isContainer, isContainer, setSpan, Dict.get?_modify_of_ne _ _ hq]

theorem mem_keys_of_isContainer {reqs : PlainReqs} (h : isContainer reqs k = true) :
    k ∈ reqs.keys := by
  rw [← Dict.get?_isSome_iff]
  cases hv : reqs.get? k with
  | none => simp [isContainer, hv] at h
  | some v => rfl

theorem mem_leafKeys {reqs : PlainReqs} :
    k ∈ leafKeys reqs ↔ k ∈ reqs.keys ∧ isContainer reqs k = false := by
  simp [leafKeys, isContainer]

theorem mem_containerKeys {reqs : PlainReqs} :
    k ∈ containerKeys reqs ↔ isContainer reqs k = true := by
  simp only [containerKeys, List.mem_filter, isContainer]
  exact ⟨And.right, fun h => ⟨mem_keys_of_isContainer h, h⟩⟩

theorem leafKeys_nodup (reqs : PlainReqs) : (leafKeys reqs).Nodup :=
  reqs.keys_nodup.filter _

theorem spanOf_eq_nil_of_leaf {reqs : PlainReqs} (h : isContainer reqs k = false) :
    spanOf reqs k = [] := by
  rw [isContainer, Option.isSome_eq_false_iff, Option.isNone_iff_eq_none] at h
  rw [spanOf, h]
  rfl

/-- The partition `p` is listed in the span of the container `c`. -/
def PartOf (reqs : PlainReqs) (subs : List Name) (c p : Name) : Prop :=
  c ∈ subs ∧ p ∈ spanOf reqs c

/-- The partition `p` is a part of `c`, directly or through nested containers. -/
abbrev Spanned (reqs : PlainReqs) (subs : List Name) := TransGen (PartOf reqs subs)

/-- What flattening keeps, from `reqs` to `reqs'`. -/
structure Flattens (leaves subs : List Name) (reqs reqs' : PlainReqs) : Prop where
  keys : reqs'.keys = reqs.keys
  unspanned : ∀ q, unspanned? reqs' q = unspanned? reqs q
  container : ∀ q, isContainer reqs' q = isContainer reqs q
  sound : ∀ c p, PartOf reqs' subs c p → Spanned reqs subs c p
  complete : ∀ c l, l ∈ leaves → Spanned reqs subs c l → Spanned reqs' subs c l
  deduped : ∀ c, (spanOf reqs' c).Nodup ∨ (spanOf reqs' c).Sublist (spanOf reqs c) ∧
    ∀ p ∈ spanOf reqs c, p ∈ subs → p ∈ spanOf reqs' c
  others : ∀ c, c ∉ subs → spanOf reqs' c = spanOf reqs c

namespace Flattens

variable {leaves subs : List Name} {reqs₀ reqs reqs' : PlainReqs}

theorem refl (reqs : PlainReqs) : Flattens leaves subs reqs reqs where
  keys := rfl
  unspanned := fun _ => rfl
  container := fun _ => rfl
  sound := fun _ _ h => .single h
  complete := fun _ _ _ h => h
  deduped := fun _ => Or.inr ⟨.refl _, fun _ hp _ => hp⟩
  others := fun _ _ => rfl

theorem trans (h : Flattens leaves subs reqs₀ reqs) (h' : Flattens leaves subs reqs reqs') :
    Flattens leaves subs reqs₀ reqs' where
  keys := h'.keys.trans h.keys
  unspanned := fun q => (h'.unspanned q).trans (h.unspanned q)
  container := fun q => (h'.container q).trans (h.container q)
  sound := fun c p hp => TransGen.closed h.sound c p (h'.sound c p hp)
  complete := fun c l hl hp => h'.complete c l hl (h.complete c l hl hp)
  deduped := by
    intro c
    rcases h'.deduped c with hnd | ⟨hsub, hkeep⟩
    · exact Or.inl hnd
    · refine (h.deduped c).imp (·.sublist hsub) fun ⟨hsub₀, hkeep₀⟩ => ?_
      exact ⟨hsub.trans hsub₀, fun p hp hps => hkeep p (hkeep₀ p hp hps) hps⟩
  others := fun c hc => (h'.others c hc).trans (h.others c hc)

end Flattens

section Steps

variable {ord : SetOrder Name} {leaves subs : List Name} {reqs₀ reqs reqs' : PlainReqs}

theorem replacePart_eq_ok {key part : Name} (h : replacePart ord key part reqs = .ok reqs') :
    part ∈ spanOf reqs key ++ spanOf reqs part ∧ reqs' = setSpan reqs key
      (ord.toList ((spanOf reqs key ++ spanOf reqs part).erase part)) := by
  rw [replacePart] at h
  split at h
  next hmem => exact ⟨hmem, (Except.ok.inj h).symm⟩
  next => cases h

/-- Replacing a nested container by its parts loses no leaf: a path through the container
continues with the parts that took its place. -/
private theorem spanned_replacePart {key part l : Name} (hkey : key ∈ subs)
    (hpart : part ∈ subs) (hl : l ∉ subs) (hmem : key ∈ reqs.keys) {c : Name}
    (h : Spanned reqs subs c l) :
    Spanned (setSpan reqs key
      (ord.toList ((spanOf reqs key ++ spanOf reqs part).erase part))) subs c l := by
  set reqs' := setSpan reqs key
    (ord.toList ((spanOf reqs key ++ spanOf reqs part).erase part)) with hreqs'
  have hother (a b : Name) (ha : a ≠ key) (hp : PartOf reqs subs a b) : PartOf reqs' subs a b := by
    refine ⟨hp.1, ?_⟩
    rw [hreqs', spanOf_setSpan_of_ne _ _ ha]
    exact hp.2
  have hspan (b : Name) (hne : b ≠ part) (hb : b ∈ spanOf reqs key ++ spanOf reqs part) :
      PartOf reqs' subs key b := by
    refine ⟨hkey, ?_⟩
    rw [hreqs', spanOf_setSpan_self _ hmem, ord.mem, List.mem_erase_of_ne hne]
    exact hb
  -- What the nested container spans, the outer one spans without it.
  have hinherit (a : Name) (ha : Spanned reqs' subs a l) : a = part → Spanned reqs' subs key l := by
    induction ha using TransGen.head_induction_on with
    | @single a hal =>
      rintro rfl
      by_cases hk : a = key
      · exact hk ▸ .single hal
      · have hlp : l ≠ a := fun he => hl (he ▸ hpart)
        have hin : l ∈ spanOf reqs a := by
          have := hal.2
          rwa [hreqs', spanOf_setSpan_of_ne _ _ hk] at this
        exact .single (hspan l hlp (List.mem_append_right _ hin))
    | @head a b hab hbl ih =>
      rintro rfl
      by_cases hb : b = a
      · exact ih hb
      by_cases hk : a = key
      · exact hk ▸ .head hab hbl
      · have hin : b ∈ spanOf reqs a := by
          have := hab.2
          rwa [hreqs', spanOf_setSpan_of_ne _ _ hk] at this
        exact .head (hspan b hb (List.mem_append_right _ hin)) hbl
  induction h using TransGen.head_induction_on with
  | @single c hcl =>
    by_cases hc : c = key
    · subst hc
      have hlp : l ≠ part := fun he => hl (he ▸ hpart)
      exact .single (hspan l hlp (List.mem_append_left _ hcl.2))
    · exact .single (hother c l hc hcl)
  | @head c b hcb _ ih =>
    by_cases hc : c = key
    · subst hc
      by_cases hb : b = part
      · exact hinherit b ih hb
      · exact .head (hspan b hb (List.mem_append_left _ hcb.2)) ih
    · exact .head (hother c b hc hcb) ih

theorem Flattens.replacePart {key part : Name} (hf : Flattens leaves subs reqs₀ reqs)
    (hdisj : ∀ l ∈ leaves, l ∉ subs) (hsubs : ∀ c ∈ subs, isContainer reqs₀ c = true)
    (hkey : key ∈ subs) (hpart : part ∈ subs) (hnested : Spanned reqs₀ subs key part)
    (h : replacePart ord key part reqs = .ok reqs') : Flattens leaves subs reqs₀ reqs' := by
  obtain ⟨-, rfl⟩ := replacePart_eq_ok h
  have hcont : isContainer reqs key = true := by rw [hf.container, hsubs key hkey]
  have hmem := mem_keys_of_isContainer hcont
  constructor
  case keys => rw [keys_setSpan, hf.keys]
  case unspanned => intro q; rw [unspanned?_setSpan, hf.unspanned]
  case container => intro q; rw [isContainer_setSpan _ hcont, hf.container]
  case sound =>
    intro c p hp
    by_cases hc : c = key
    · subst hc
      have hin := hp.2
      rw [spanOf_setSpan_self _ hmem, ord.mem] at hin
      rcases List.mem_append.mp (List.mem_of_mem_erase hin) with hin | hin
      · exact hf.sound c p ⟨hkey, hin⟩
      · exact hnested.trans (hf.sound part p ⟨hpart, hin⟩)
    · have hin := hp.2
      rw [spanOf_setSpan_of_ne _ _ hc] at hin
      exact hf.sound c p ⟨hp.1, hin⟩
  case complete =>
    intro c l hl hc
    exact spanned_replacePart hkey hpart (hdisj l hl) hmem (hf.complete c l hl hc)
  case deduped =>
    intro c
    by_cases hc : c = key
    · subst hc
      rw [spanOf_setSpan_self _ hmem]
      exact Or.inl (ord.nodup _)
    · rw [spanOf_setSpan_of_ne _ _ hc]
      exact hf.deduped c
  case others =>
    intro c hc
    have hne : c ≠ key := fun heq => hc (heq ▸ hkey)
    rw [spanOf_setSpan_of_ne _ _ hne, hf.others c hc]

variable {key : Name}

theorem Flattens.replaceParts {parts : List Name} (hf : Flattens leaves subs reqs₀ reqs)
    (hdisj : ∀ l ∈ leaves, l ∉ subs) (hsubs : ∀ c ∈ subs, isContainer reqs₀ c = true)
    (hkey : key ∈ subs) (hnested : ∀ part ∈ parts, Spanned reqs₀ subs key part)
    (h : replaceParts ord subs key parts reqs = .ok reqs') : Flattens leaves subs reqs₀ reqs' := by
  induction parts generalizing reqs with
  | nil =>
    cases h
    exact hf
  | cons part parts ih =>
    have hrest := fun p hp => hnested p (List.mem_cons_of_mem _ hp)
    rw [PartitionManager.replaceParts] at h
    split at h
    next hpart =>
      obtain ⟨reqs₁, h₁, h⟩ := bind_eq_ok.mp h
      have hhead := hnested part (List.mem_cons_self ..)
      exact ih (hf.replacePart hdisj hsubs hkey hpart hhead h₁) hrest h
    next => exact ih hf hrest h

variable {done : Bool}

theorem Flattens.flattenSpan (hf : Flattens leaves subs reqs₀ reqs) (hdisj : ∀ l ∈ leaves, l ∉ subs)
    (hsubs : ∀ c ∈ subs, isContainer reqs₀ c = true) (hkey : key ∈ subs)
    (h : flattenSpan ord subs key reqs = .ok (reqs', done)) :
    Flattens leaves subs reqs₀ reqs' := by
  rw [PartitionManager.flattenSpan] at h
  split at h
  · cases h
    exact hf
  next part hfind =>
    have hpart : part ∈ subs := by simpa using List.find?_some hfind
    have hold : part ∈ spanOf reqs key := List.mem_of_find?_eq_some hfind
    simp only [bind_eq_ok, pure_eq_ok, Prod.mk.injEq] at h
    obtain ⟨reqs₁, h₁, reqs₂, h₂, rfl, -⟩ := h
    have hnested : Spanned reqs₀ subs key part := hf.sound key part ⟨hkey, hold⟩
    refine (hf.replacePart hdisj hsubs hkey hpart hnested h₁).replaceParts hdisj hsubs hkey ?_ h₂
    intro p hp
    rcases List.mem_append.mp (List.mem_of_mem_erase (List.mem_of_mem_drop hp)) with hp | hp
    · exact hf.sound key p ⟨hkey, hp⟩
    · exact hnested.trans (hf.sound part p ⟨hpart, hp⟩)

theorem flattenSpan_done (h : flattenSpan ord subs key reqs = .ok (reqs', true)) :
    reqs' = reqs ∧ ∀ p ∈ spanOf reqs key, p ∉ subs := by
  rw [flattenSpan] at h
  split at h
  next hfind =>
    cases h
    exact ⟨rfl, fun p hp => by simpa using List.find?_eq_none.mp hfind p hp⟩
  next =>
    simp only [bind_eq_ok, pure_eq_ok, Prod.mk.injEq, Bool.false_eq_true, and_false,
      exists_false] at h

theorem removeUnknownParts_sublist (known : Name → Bool) (n i : Nat) (l : List Name) :
    (removeUnknownParts known n i l).Sublist l := by
  induction n generalizing i l with
  | zero => exact List.Sublist.refl _
  | succ n ih =>
    rw [removeUnknownParts]
    split
    · exact List.Sublist.refl _
    next part _ =>
      split
      · exact ih _ _
      · exact (ih _ _).trans List.erase_sublist

theorem mem_removeUnknownParts {known : Name → Bool} {p : Name} (hp : known p = true) (n i : Nat)
    {l : List Name} (h : p ∈ l) : p ∈ removeUnknownParts known n i l := by
  induction n generalizing i l with
  | zero => exact h
  | succ n ih =>
    rw [removeUnknownParts]
    split
    · exact h
    next part _ =>
      apply ih
      split
      · exact h
      next hpart =>
        have hne : p ≠ part := fun he => hpart (he ▸ hp)
        exact (List.mem_erase_of_ne hne).mpr h

theorem Flattens.prune {l : List Name} (hf : Flattens leaves subs reqs₀ reqs) (hkey : key ∈ subs)
    (hcont : isContainer reqs key = true) (hsub : l.Sublist (spanOf reqs key))
    (hkeep : ∀ p ∈ spanOf reqs key, p ∈ subs ∨ p ∈ leaves → p ∈ l) :
    Flattens leaves subs reqs₀ (setSpan reqs key l) := by
  have hmem := mem_keys_of_isContainer hcont
  refine hf.trans ?_
  constructor
  case keys => exact keys_setSpan _ _ _
  case unspanned => exact fun q => unspanned?_setSpan _ _ _ _
  case container => exact isContainer_setSpan _ hcont
  case sound =>
    intro c p hp
    refine .single ⟨hp.1, ?_⟩
    have hin := hp.2
    by_cases hc : c = key
    · subst hc
      rw [spanOf_setSpan_self _ hmem] at hin
      exact hsub.subset hin
    · rwa [spanOf_setSpan_of_ne _ _ hc] at hin
  case complete =>
    intro c x hx hc
    have hedge (a b : Name) (hb : b ∈ subs ∨ b ∈ leaves) (hab : PartOf reqs subs a b) :
        PartOf (setSpan reqs key l) subs a b := by
      refine ⟨hab.1, ?_⟩
      by_cases ha : a = key
      · subst ha
        rw [spanOf_setSpan_self _ hmem]
        exact hkeep b hab.2 hb
      · rw [spanOf_setSpan_of_ne _ _ ha]
        exact hab.2
    induction hc using TransGen.head_induction_on with
    | single hcx => exact .single (hedge _ _ (Or.inr hx) hcx)
    | head hab hbx ih =>
      obtain ⟨_, hbc, _⟩ := TransGen.head'_iff.mp hbx
      exact .head (hedge _ _ (Or.inl hbc.1) hab) ih
  case deduped =>
    intro c
    by_cases hc : c = key
    · subst hc
      rw [spanOf_setSpan_self _ hmem]
      exact Or.inr ⟨hsub, fun p hp hps => hkeep p hp (Or.inl hps)⟩
    · rw [spanOf_setSpan_of_ne _ _ hc]
      exact Or.inr ⟨.refl _, fun _ hp _ => hp⟩
  case others =>
    intro c hc
    have hne : c ≠ key := fun heq => hc (heq ▸ hkey)
    exact spanOf_setSpan_of_ne _ _ hne

/-- The backup of the span in `orig_span`. -/
def backupSpan (reqs : PlainReqs) (key : Name) : PlainReqs :=
  reqs.modify key fun v => { v with origSpan := v.span }

@[simp] theorem spanOf_backupSpan (reqs : PlainReqs) (key q : Name) :
    spanOf (backupSpan reqs key) q = spanOf reqs q := by
  rw [spanOf, spanOf, backupSpan, Dict.get?_modify]
  split <;> cases reqs.get? q <;> rfl

theorem isContainer_backupSpan (reqs : PlainReqs) (key q : Name) :
    isContainer (backupSpan reqs key) q = isContainer reqs q := by
  rw [isContainer, isContainer, backupSpan, Dict.get?_modify]
  split <;> cases reqs.get? q <;> rfl

theorem Flattens.backup (hf : Flattens leaves subs reqs₀ reqs) (key : Name) :
    Flattens leaves subs reqs₀ (backupSpan reqs key) := by
  refine hf.trans ?_
  have hpart (c p : Name) : PartOf (backupSpan reqs key) subs c p ↔ PartOf reqs subs c p := by
    rw [PartOf, PartOf, spanOf_backupSpan]
  constructor
  case keys => exact Dict.keys_modify _ _ _
  case unspanned =>
    intro q
    rw [unspanned?, unspanned?, backupSpan, Dict.get?_modify]
    split <;> cases reqs.get? q <;> rfl
  case container => exact isContainer_backupSpan reqs key
  case sound => exact fun c p hp => .single ((hpart c p).mp hp)
  case complete => exact fun c l _ hc => TransGen.mono (fun a b => (hpart a b).mpr) _ _ hc
  case deduped =>
    intro c
    rw [spanOf_backupSpan]
    exact Or.inr ⟨.refl _, fun _ hp _ => hp⟩
  case others => exact fun c _ => spanOf_backupSpan reqs key c

theorem flattenContainer_eq_ok (h : flattenContainer ord leaves subs key reqs = .ok (reqs', done)) :
    spanOf reqs key ≠ [] ∧ ∃ reqs₁,
      flattenSpan ord subs key (backupSpan reqs key) = .ok (reqs₁, done) ∧
      reqs' = setSpan reqs₁ key (removeUnknownParts
        (fun p => decide (p ∈ subs) || decide (p ∈ leaves)) (spanOf reqs₁ key).length 0
        (spanOf reqs₁ key)) := by
  rw [flattenContainer] at h
  split at h
  next => simp at h
  next hne =>
    simp only [bind_eq_ok, pure_eq_ok, Prod.mk.injEq] at h
    obtain ⟨⟨reqs₁, done₁⟩, h₁, rfl, rfl⟩ := h
    exact ⟨by simpa using hne, reqs₁, h₁, rfl⟩

theorem Flattens.flattenContainer (hf : Flattens leaves subs reqs₀ reqs)
    (hdisj : ∀ l ∈ leaves, l ∉ subs) (hsubs : ∀ c ∈ subs, isContainer reqs₀ c = true)
    (hkey : key ∈ subs) (h : flattenContainer ord leaves subs key reqs = .ok (reqs', done)) :
    Flattens leaves subs reqs₀ reqs' := by
  obtain ⟨-, reqs₁, h₁, rfl⟩ := flattenContainer_eq_ok h
  have hf₁ := (hf.backup key).flattenSpan hdisj hsubs hkey h₁
  refine hf₁.prune hkey (by rw [hf₁.container, hsubs key hkey]) (removeUnknownParts_sublist _ _ _ _) ?_
  intro p hp hknown
  exact mem_removeUnknownParts (by simpa using hknown) _ _ hp

/-- A container in which nothing had to be replaced keeps a part of its span, and that part
holds no nested container. -/
theorem flattenContainer_done (hmem : key ∈ reqs.keys)
    (h : flattenContainer ord leaves subs key reqs = .ok (reqs', true)) :
    (∀ p ∈ spanOf reqs' key, p ∉ subs) ∧ ∀ q, q ≠ key → spanOf reqs' q = spanOf reqs q := by
  obtain ⟨-, reqs₁, h₁, rfl⟩ := flattenContainer_eq_ok h
  obtain ⟨rfl, hnone⟩ := flattenSpan_done h₁
  have hmem' : key ∈ (backupSpan reqs key).keys := by rwa [backupSpan, Dict.keys_modify]
  constructor
  · intro p hp
    rw [spanOf_setSpan_self _ hmem'] at hp
    exact hnone p ((removeUnknownParts_sublist _ _ _ _).subset hp)
  · intro q hq
    rw [spanOf_setSpan_of_ne _ _ hq, spanOf_backupSpan]

theorem Flattens.flattenRound {keys : List Name} (hf : Flattens leaves subs reqs₀ reqs)
    (hdisj : ∀ l ∈ leaves, l ∉ subs) (hsubs : ∀ c ∈ subs, isContainer reqs₀ c = true)
    (hkeys : ∀ k ∈ keys, k ∈ subs) (h : flattenRound ord leaves subs keys reqs = .ok (reqs', done)) :
    Flattens leaves subs reqs₀ reqs' := by
  induction keys generalizing reqs done with
  | nil =>
    cases h
    exact hf
  | cons key keys ih =>
    simp only [PartitionManager.flattenRound, bind_eq_ok, pure_eq_ok, Prod.mk.injEq] at h
    obtain ⟨⟨reqs₁, done₁⟩, h₁, ⟨reqs₂, done₂⟩, h₂, rfl, -⟩ := h
    have hf₁ := hf.flattenContainer hdisj hsubs (hkeys key (List.mem_cons_self ..)) h₁
    exact ih hf₁ (fun k hk => hkeys k (List.mem_cons_of_mem _ hk)) h₂

theorem flattenRound_done {keys : List Name} (hdisj : ∀ l ∈ leaves, l ∉ subs)
    (hsubs : ∀ c ∈ subs, isContainer reqs c = true) (hkeys : ∀ k ∈ keys, k ∈ subs)
    (h : flattenRound ord leaves subs keys reqs = .ok (reqs', true)) :
    (∀ k ∈ keys, ∀ p ∈ spanOf reqs' k, p ∉ subs) ∧
      ∀ k, k ∉ keys → spanOf reqs' k = spanOf reqs k := by
  induction keys generalizing reqs with
  | nil =>
    cases h
    simp
  | cons key keys ih =>
    simp only [flattenRound, bind_eq_ok, pure_eq_ok, Prod.mk.injEq, Bool.and_eq_true] at h
    obtain ⟨⟨reqs₁, done₁⟩, h₁, ⟨reqs₂, done₂⟩, h₂, rfl, rfl, rfl⟩ := h
    have hkey := hkeys key (List.mem_cons_self ..)
    have hf₁ := (Flattens.refl reqs).flattenContainer hdisj hsubs hkey h₁
    obtain ⟨hdone, hother⟩ :=
      flattenContainer_done (mem_keys_of_isContainer (hsubs key hkey)) h₁
    obtain ⟨hrest, hsame⟩ := ih (fun c hc => by rw [hf₁.container, hsubs c hc])
      (fun k hk => hkeys k (List.mem_cons_of_mem _ hk)) h₂
    constructor
    · intro k hk
      by_cases hin : k ∈ keys
      · exact hrest k hin
      · rw [List.mem_cons] at hk
        rw [hsame k hin, hk.resolve_right hin]
        exact hdone
    · intro k hk
      rw [List.mem_cons, not_or] at hk
      rw [hsame k hk.2, hother k hk.1]

theorem flatten_spec {fuel : Nat} (hdisj : ∀ l ∈ leaves, l ∉ subs)
    (hsubs : ∀ c ∈ subs, isContainer reqs c = true)
    (h : flatten ord leaves subs fuel reqs = .ok reqs') :
    Flattens leaves subs reqs reqs' ∧ ∀ c ∈ subs, ∀ p ∈ spanOf reqs' c, p ∉ subs := by
  induction fuel generalizing reqs with
  | zero => cases h
  | succ fuel ih =>
    simp only [flatten, bind_eq_ok] at h
    obtain ⟨⟨reqs₁, done⟩, h₁, h⟩ := h
    have hf₁ := (Flattens.refl reqs).flattenRound hdisj hsubs (fun _ hk => hk) h₁
    cases done with
    | true =>
      simp only [if_true, pure_eq_ok] at h
      subst h
      exact ⟨hf₁, (flattenRound_done hdisj hsubs (fun _ hk => hk) h₁).1⟩
    | false =>
      simp only [Bool.false_eq_true, if_false] at h
      obtain ⟨hf₂, hflat⟩ := ih (fun c hc => by rw [hf₁.container, hsubs c hc]) h
      exact ⟨hf₁.trans hf₂, hflat⟩

end Steps

section Deletion

variable {reqs : PlainReqs} {subs del : List Name} {P : List Name → Prop}

/-- A property of the collected containers is kept by a pass if it is kept when a container is added
all of whose parts have been collected. -/
theorem deletionPass_induct (h : P del) (hadd : ∀ del, ∀ key ∈ subs, P del →
      (∀ p ∈ spanOf reqs key, p ∈ del) → key ∉ del → P (del ++ [key])) :
    P (deletionPass reqs subs del) := by
  induction subs generalizing del with
  | nil => exact h
  | cons key subs ih =>
    rw [deletionPass, List.foldl_cons, ← deletionPass]
    apply ih _ fun del k hk => hadd del k (List.mem_cons_of_mem _ hk)
    split
    next hall =>
      simp only [Bool.and_eq_true, List.all_eq_true, decide_eq_true_eq] at hall
      exact hadd del key (List.mem_cons_self ..) h hall.1 hall.2
    next => exact h

theorem keysToDelete_induct (n : Nat) (h : P del) (hadd : ∀ del, ∀ key ∈ subs, P del →
      (∀ p ∈ spanOf reqs key, p ∈ del) → key ∉ del → P (del ++ [key])) :
    P (keysToDelete reqs subs n del) := by
  induction n generalizing del with
  | zero => exact h
  | succ n ih =>
    rw [keysToDelete]
    split
    · exact h
    · exact ih (deletionPass_induct h hadd)

theorem keysToDelete_closed (n : Nat) (h : ∀ d ∈ del, ∀ p ∈ spanOf reqs d, p ∈ del) :
    ∀ d ∈ keysToDelete reqs subs n del, ∀ p ∈ spanOf reqs d, p ∈ keysToDelete reqs subs n del := by
  apply keysToDelete_induct (P := fun del => ∀ d ∈ del, ∀ p ∈ spanOf reqs d, p ∈ del) n h
  intro del key _ hdel hparts _ d hd p hp
  rcases List.mem_append.mp hd with hd | hd
  · exact List.mem_append_left _ (hdel d hd p hp)
  · rw [List.mem_singleton] at hd
    exact List.mem_append_left _ (hparts p (hd ▸ hp))

theorem keysToDelete_forall {Q : Name → Prop} (n : Nat) (h : ∀ d ∈ del, Q d)
    (hadd : ∀ key ∈ subs, (∀ p ∈ spanOf reqs key, Q p) → Q key) :
    ∀ d ∈ keysToDelete reqs subs n del, Q d := by
  apply keysToDelete_induct (P := fun del => ∀ d ∈ del, Q d) n h
  intro del key hkey hdel hparts _ d hd
  rcases List.mem_append.mp hd with hd | hd
  · exact hdel d hd
  · rw [List.mem_singleton] at hd
    exact hd ▸ hadd key hkey fun p hp => hdel p (hparts p hp)

theorem keysToDelete_subset (n : Nat) (h : ∀ d ∈ del, d ∈ subs) :
    ∀ d ∈ keysToDelete reqs subs n del, d ∈ subs :=
  keysToDelete_forall n h fun _ hkey _ => hkey

end Deletion

theorem spanned_survivors {reqs : PlainReqs} {subs : List Name} {n : Nat} {c l : Name}
    (hc : c ∉ keysToDelete reqs subs n []) (hl : l ∉ subs) (h : Spanned reqs subs c l) :
    Spanned reqs (subs.filter (· ∉ keysToDelete reqs subs n [])) c l := by
  have hclosed : ∀ d ∈ keysToDelete reqs subs n [], ∀ p ∈ spanOf reqs d,
      p ∈ keysToDelete reqs subs n [] := keysToDelete_closed n (by simp)
  have hsubset : ∀ d ∈ keysToDelete reqs subs n [], d ∈ subs := keysToDelete_subset n (by simp)
  set del := keysToDelete reqs subs n []
  -- A path that enters a deleted container never leaves the deleted containers.
  have hdead (a : Name) (ha : Spanned reqs subs a l) : a ∉ del := by
    induction ha using TransGen.head_induction_on with
    | single hal => exact fun had => hl (hsubset l (hclosed _ had l hal.2))
    | head hab _ ih => exact fun had => ih (hclosed _ had _ hab.2)
  induction h using TransGen.head_induction_on with
  | single hcl => exact .single ⟨List.mem_filter.mpr ⟨hcl.1, by simpa using hc⟩, hcl.2⟩
  | head hab hbl ih =>
    exact .head ⟨List.mem_filter.mpr ⟨hab.1, by simpa using hc⟩, hab.2⟩ (ih (hdead _ hbl))

/-- The container that a partition names first under `inside`. -/
def insideOf (reqs : PlainReqs) (k : Name) : Option Name :=
  ((reqs.get? k).bind Req.inside).bind List.head?

theorem insideOf_eq_unspanned (reqs : PlainReqs) (k : Name) :
    insideOf reqs k = ((unspanned? reqs k).bind Req.inside).bind List.head? := by
  rw [insideOf, unspanned?]
  cases reqs.get? k <;> rfl

theorem solveInside_spec {subs keys : List Name} {reqs reqs' : PlainReqs}
    (hsubs : ∀ c ∈ subs, isContainer reqs c = true)
    (h : solveInside subs keys reqs = .ok reqs') :
    reqs'.keys = reqs.keys ∧ (∀ q, unspanned? reqs' q = unspanned? reqs q) ∧
      (∀ q, isContainer reqs' q = isContainer reqs q) ∧
      ∀ c, spanOf reqs' c = spanOf reqs c ++ keys.filter fun k => insideOf reqs k = some c := by
  induction keys generalizing reqs with
  | nil =>
    cases h
    simp
  | cons key keys ih =>
    rw [solveInside] at h
    split at h
    next hnone =>
      obtain ⟨hkeys, huns, hcont, hspan⟩ := ih hsubs h
      refine ⟨hkeys, huns, hcont, fun c => ?_⟩
      rw [hspan, List.filter_cons_of_neg]
      simp [insideOf, hnone]
    next => cases h
    next c rest hc =>
      split at h
      next hmem =>
        have hcc := hsubs c hmem
        obtain ⟨hkeys, huns, hcont, hspan⟩ := ih
          (fun d hd => by rw [isContainer_setSpan _ hcc, hsubs d hd]) h
        have hinside (k : Name) : insideOf (setSpan reqs c (spanOf reqs c ++ [key])) k =
            insideOf reqs k := by
          rw [insideOf_eq_unspanned, unspanned?_setSpan, ← insideOf_eq_unspanned]
        refine ⟨by rw [hkeys, keys_setSpan], fun q => by rw [huns, unspanned?_setSpan],
          fun q => by rw [hcont, isContainer_setSpan _ hcc], fun d => ?_⟩
        have hkey : insideOf reqs key = some c := by simp [insideOf, hc]
        simp only [hspan, hinside]
        by_cases hd : d = c
        · subst hd
          rw [spanOf_setSpan_self _ (mem_keys_of_isContainer hcc),
            List.filter_cons_of_pos (by simpa using hkey), List.append_assoc]
          rfl
        · rw [spanOf_setSpan_of_ne _ _ hd, List.filter_cons_of_neg]
          simp [hkey, Ne.symm hd]
      next => cases h

/-- The parts of a container: what its span lists and the leaves that ask to be inside it. -/
def partsOf (reqs : PlainReqs) (c : Name) : List Name :=
  spanOf reqs c ++ (leafKeys reqs).filter fun k => insideOf reqs k = some c

/-- The container `c` spans `p`, directly or through nested containers. -/
abbrev Spans (reqs : PlainReqs) : Name → Name → Prop :=
  TransGen fun c p => isContainer reqs c = true ∧ p ∈ partsOf reqs c

/-- The container names no part twice, or it has a container of `subs` as a part: its list then
goes through a set. -/
def ListsOnce (pre : PlainReqs) (subs : List Name) (c : Name) : Prop :=
  (partsOf pre c).Nodup ∨ c ∈ subs ∧ ∃ p ∈ partsOf pre c, p ∈ subs

instance (pre : PlainReqs) (subs : List Name) (c : Name) : Decidable (ListsOnce pre subs c) :=
  inferInstanceAs (Decidable (_ ∨ _))

/-- The requirements `reqs` and the containers `subs` that `solve_inside` and
`clean_sub_partitions` make of the prepared requirements `pre`. -/
structure Cleaned (pre reqs : PlainReqs) (subs : List Name) : Prop where
  keys : reqs.keys = pre.keys
  unspanned : ∀ q, unspanned? reqs q = unspanned? pre q
  container : ∀ q, isContainer reqs q = isContainer pre q
  subs_nodup : subs.Nodup
  subs_container : ∀ c ∈ subs, isContainer pre c = true
  flat : ∀ c ∈ subs, ∀ p ∈ spanOf reqs c, p ∉ subs
  spans : ∀ c ∈ subs, ∀ p ∈ spanOf reqs c, Spans pre c p
  mem_span : ∀ c ∈ subs, ∀ l ∈ leafKeys pre, l ∈ spanOf reqs c ↔ Spans pre c l
  nodup : ∀ c, ListsOnce pre subs c → (spanOf reqs c).Nodup
  dropped : ∀ c, isContainer pre c = true → c ∉ subs → ∀ p ∈ spanOf reqs c,
    isContainer pre p = true ∧ p ∉ subs

private theorem leaf_notMem_containers {pre : PlainReqs} {l : Name} (hl : l ∈ leafKeys pre) :
    l ∉ containerKeys pre := by
  rw [mem_containerKeys, (mem_leafKeys.mp hl).2]
  simp

theorem cleaned_of_ok {ord : SetOrder Name} {fuel : Nat} {pre reqs₁ reqs₂ : PlainReqs}
    {subs : List Name} (h₁ : solveInside (containerKeys pre) (leafKeys pre) pre = .ok reqs₁)
    (h₂ : cleanSubPartitions ord fuel (leafKeys pre) (containerKeys pre) reqs₁ =
      .ok (reqs₂, subs)) : Cleaned pre reqs₂ subs := by
  obtain ⟨hkeys, huns, hcont, hspan⟩ := solveInside_spec (fun c hc => mem_containerKeys.mp hc) h₁
  simp only [cleanSubPartitions, bind_eq_ok, pure_eq_ok, Prod.mk.injEq] at h₂
  obtain ⟨reqs, hflatten, rfl, rfl⟩ := h₂
  set del := keysToDelete reqs₁ (containerKeys pre) ((containerKeys pre).length + 1) [] with hdel
  set subs := (containerKeys pre).filter (· ∉ del) with hsubs
  have hin : ∀ c ∈ subs, c ∈ containerKeys pre := fun c hc => (List.mem_filter.mp hc).1
  have hdisj : ∀ l ∈ leafKeys pre, l ∉ subs := fun l hl hls => leaf_notMem_containers hl (hin l hls)
  have hsc : ∀ c ∈ subs, isContainer reqs₁ c = true := fun c hc => by
    rw [hcont, mem_containerKeys.mp (hin c hc)]
  obtain ⟨hf, hflat⟩ := flatten_spec hdisj hsc hflatten
  have hpart (c p : Name) : PartOf reqs₁ (containerKeys pre) c p ↔
      isContainer pre c = true ∧ p ∈ partsOf pre c := by
    rw [PartOf, mem_containerKeys, hspan, partsOf]
  have hspans (c : Name) (hc : c ∈ subs) (p : Name) (hp : p ∈ spanOf reqs c) : Spans pre c p := by
    refine TransGen.mono ?_ _ _ (hf.sound c p ⟨hc, hp⟩)
    exact fun a b hab => (hpart a b).mp ⟨hin a hab.1, hab.2⟩
  constructor
  case keys => rw [hf.keys, hkeys]
  case unspanned => exact fun q => by rw [hf.unspanned, huns]
  case container => exact fun q => by rw [hf.container, hcont]
  case subs_nodup => exact (pre.keys_nodup.filter _).filter _
  case subs_container => exact fun c hc => mem_containerKeys.mp (hin c hc)
  case flat => exact hflat
  case spans => exact hspans
  case mem_span =>
    intro c hc l hl
    constructor
    · exact hspans c hc l
    · intro hspans
      have hall : Spanned reqs₁ (containerKeys pre) c l :=
        TransGen.mono (fun a b => (hpart a b).mpr) _ _ hspans
      have hcd : c ∉ del := by simpa using (List.mem_filter.mp hc).2
      have hsurv := spanned_survivors hcd (leaf_notMem_containers hl) hall
      -- After flattening the parts of a container are no containers, so a path has one step.
      obtain ⟨b, hcb, hbl⟩ := TransGen.head'_iff.mp (hf.complete c l hl hsurv)
      rcases ReflTransGen.cases_head hbl with rfl | ⟨d, hbd, -⟩
      · exact hcb.2
      · exact absurd hbd.1 (hflat c hc b hcb.2)
  case nodup =>
    intro c hc
    rcases hf.deduped c with hnd | ⟨hsub, hkeep⟩
    · exact hnd
    · rw [hspan] at hsub hkeep
      rcases hc with hnd | ⟨hcs, p, hp, hps⟩
      · exact hnd.sublist hsub
      · exact absurd hps (hflat c hcs p (hkeep p hp hps))
  case dropped =>
    intro c hc hcs p hp
    have hcd : c ∈ del := by
      by_contra hnd
      exact hcs (List.mem_filter.mpr ⟨mem_containerKeys.mpr hc, by simpa using hnd⟩)
    rw [hf.others c hcs] at hp
    have hpd : p ∈ del := keysToDelete_closed _ (by simp) c hcd p hp
    refine ⟨mem_containerKeys.mp (keysToDelete_subset _ (by simp) p hpd), fun hps => ?_⟩
    exact absurd hpd (by simpa using (List.mem_filter.mp hps).2)

end SdkNrf.PartitionManager
