import SdkNrf.Framework.Fuel
import SdkNrf.PartitionManager.Flattening

/-!
# When the flattening loop ends

Every round of `clean_sub_partitions` takes the spans through backups, replacements of a nested
container by its parts, and removals of unknown parts.
-/

namespace SdkNrf.PartitionManager

open Relation

/-- The partition `p` is a part of the container `c`, as a descent. -/
def Nested (reqs : PlainReqs) (subs : List Name) (p c : Name) : Prop := PartOf reqs subs c p

inductive FlattenStep (ord : SetOrder Name) (leaves subs : List Name) :
    PlainReqs → PlainReqs → Prop
  | backup {reqs : PlainReqs} (key : Name) :
      FlattenStep ord leaves subs reqs (backupSpan reqs key)
  | replace {reqs : PlainReqs} {key part : Name} (hkey : key ∈ subs) (hpart : part ∈ subs)
      (hmem : part ∈ spanOf reqs key ++ spanOf reqs part) :
      FlattenStep ord leaves subs reqs
        (setSpan reqs key (ord.toList ((spanOf reqs key ++ spanOf reqs part).erase part)))
  | prune {reqs : PlainReqs} {key : Name} {l : List Name} (hkey : key ∈ subs)
      (hsub : l.Sublist (spanOf reqs key))
      (hkeep : ∀ p ∈ spanOf reqs key, p ∈ subs ∨ p ∈ leaves → p ∈ l) :
      FlattenStep ord leaves subs reqs (setSpan reqs key l)

abbrev FlattenRun (ord : SetOrder Name) (leaves subs : List Name) :=
  ReflTransGen (FlattenStep ord leaves subs)

section Runs

variable {ord : SetOrder Name} {leaves subs : List Name} {reqs reqs' : PlainReqs}

theorem FlattenStep.keys (h : FlattenStep ord leaves subs reqs reqs') : reqs'.keys = reqs.keys := by
  cases h with
  | backup key => exact Dict.keys_modify _ _ _
  | replace => exact keys_setSpan _ _ _
  | prune => exact keys_setSpan _ _ _

theorem FlattenRun.keys (h : FlattenRun ord leaves subs reqs reqs') : reqs'.keys = reqs.keys := by
  induction h with
  | refl => rfl
  | tail _ hstep ih => exact hstep.keys.trans ih

variable {key : Name}

theorem replaceParts_run {parts : List Name} (hkey : key ∈ subs)
    (h : replaceParts ord subs key parts reqs = .ok reqs') :
    FlattenRun ord leaves subs reqs reqs' := by
  induction parts generalizing reqs with
  | nil =>
    cases h
    exact .refl
  | cons part parts ih =>
    rw [replaceParts] at h
    split at h
    next hpart =>
      obtain ⟨reqs₁, h₁, h⟩ := bind_eq_ok.mp h
      obtain ⟨hmem, rfl⟩ := replacePart_eq_ok h₁
      exact .head (.replace hkey hpart hmem) (ih h)
    next => exact ih h

variable (leaves) in

theorem flattenSpan_run {done : Bool} (hkey : key ∈ subs)
    (h : flattenSpan ord subs key reqs = .ok (reqs', done)) :
    (reqs' = reqs ∧ done = true) ∨ ∃ part ∈ subs, part ∈ spanOf reqs key ∧
      FlattenRun ord leaves subs
        (setSpan reqs key (ord.toList ((spanOf reqs key ++ spanOf reqs part).erase part)))
        reqs' := by
  rw [flattenSpan] at h
  split at h
  next =>
    cases h
    exact Or.inl ⟨rfl, rfl⟩
  next part hfind =>
    right
    simp only [bind_eq_ok, pure_eq_ok, Prod.mk.injEq] at h
    obtain ⟨reqs₁, h₁, reqs₂, h₂, rfl, -⟩ := h
    obtain ⟨-, rfl⟩ := replacePart_eq_ok h₁
    exact ⟨part, by simpa using List.find?_some hfind, List.mem_of_find?_eq_some hfind,
      replaceParts_run hkey h₂⟩

theorem flattenContainer_run {done : Bool} (hkey : key ∈ subs)
    (h : flattenContainer ord leaves subs key reqs = .ok (reqs', done)) :
    FlattenRun ord leaves subs reqs reqs' := by
  obtain ⟨-, reqs₁, h₁, rfl⟩ := flattenContainer_eq_ok h
  have hprune : FlattenStep ord leaves subs reqs₁ (setSpan reqs₁ key (removeUnknownParts
      (fun p => decide (p ∈ subs) || decide (p ∈ leaves)) (spanOf reqs₁ key).length 0
      (spanOf reqs₁ key))) := by
    apply FlattenStep.prune hkey (removeUnknownParts_sublist _ _ _ _)
    intro p hp hknown
    exact mem_removeUnknownParts (by simpa using hknown) _ _ hp
  refine .head (.backup key) (.tail ?_ hprune)
  rcases flattenSpan_run leaves hkey h₁ with ⟨rfl, -⟩ | ⟨part, hpart, hmem, hrun⟩
  · exact .refl
  · exact .head (.replace hkey hpart (List.mem_append_left _ hmem)) hrun

variable {keys : List Name}

theorem flattenRound_run {done : Bool} (hkeys : ∀ k ∈ keys, k ∈ subs)
    (h : flattenRound ord leaves subs keys reqs = .ok (reqs', done)) :
    FlattenRun ord leaves subs reqs reqs' := by
  induction keys generalizing reqs done with
  | nil =>
    cases h
    exact .refl
  | cons key keys ih =>
    simp only [flattenRound, bind_eq_ok, pure_eq_ok, Prod.mk.injEq] at h
    obtain ⟨⟨reqs₁, done₁⟩, h₁, ⟨reqs₂, done₂⟩, h₂, rfl, -⟩ := h
    have hrest := ih (fun k hk => hkeys k (List.mem_cons_of_mem _ hk)) h₂
    exact (flattenContainer_run (hkeys key (List.mem_cons_self ..)) h₁).trans hrest

theorem flatten_run {fuel : Nat} (h : flatten ord leaves subs fuel reqs = .ok reqs') :
    FlattenRun ord leaves subs reqs reqs' := by
  induction fuel generalizing reqs with
  | zero => cases h
  | succ fuel ih =>
    simp only [flatten, bind_eq_ok] at h
    obtain ⟨⟨reqs₁, done⟩, h₁, h⟩ := h
    have hround := flattenRound_run (fun _ hk => hk) h₁
    split at h
    · rw [pure_eq_ok] at h
      exact h ▸ hround
    · exact hround.trans (ih h)

def load (w : Name → Nat) (reqs : PlainReqs) (c : Name) : Nat := ((spanOf reqs c).map w).sum

def Balanced (w : Name → Nat) (subs : List Name) (reqs : PlainReqs) : Prop :=
  ∀ c ∈ subs, load w reqs c < w c

variable {w : Name → Nat}

theorem load_setSpan_self (l : List Name) (h : key ∈ reqs.keys) :
    load w (setSpan reqs key l) key = (l.map w).sum := by
  rw [load, spanOf_setSpan_self _ h]

theorem load_setSpan_of_ne {key c : Name} (l : List Name) (h : c ≠ key) :
    load w (setSpan reqs key l) c = load w reqs c := by
  rw [load, load, spanOf_setSpan_of_ne _ _ h]

theorem load_replace_lt {key part : Name} (hbal : Balanced w subs reqs) (hpart : part ∈ subs)
    (hmem : part ∈ spanOf reqs key ++ spanOf reqs part) (hkey : key ∈ reqs.keys) :
    load w (setSpan reqs key (ord.toList ((spanOf reqs key ++ spanOf reqs part).erase part))) key <
      load w reqs key := by
  rw [load_setSpan_self _ hkey]
  apply sum_map_lt_of_replace w hmem (hbal part hpart) (ord.nodup _)
  intro x hx
  rwa [ord.mem] at hx

theorem FlattenStep.load_le (h : FlattenStep ord leaves subs reqs reqs')
    (hin : ∀ c ∈ subs, c ∈ reqs.keys) (hbal : Balanced w subs reqs) (c : Name) :
    load w reqs' c ≤ load w reqs c := by
  cases h with
  | backup key => rw [load, load, spanOf_backupSpan]
  | @replace key part hkey hpart hmem =>
    by_cases hc : c = key
    · subst hc
      exact (load_replace_lt hbal hpart hmem (hin c hkey)).le
    · exact (load_setSpan_of_ne _ hc).le
  | @prune key l hkey hsub =>
    by_cases hc : c = key
    · subst hc
      rw [load_setSpan_self _ (hin c hkey)]
      exact (hsub.map w).sum_le_sum fun _ _ => Nat.zero_le _
    · exact (load_setSpan_of_ne _ hc).le

theorem FlattenRun.load_le (h : FlattenRun ord leaves subs reqs reqs')
    (hin : ∀ c ∈ subs, c ∈ reqs.keys) (hbal : Balanced w subs reqs) (c : Name) :
    load w reqs' c ≤ load w reqs c := by
  induction h using ReflTransGen.head_induction_on with
  | refl => exact le_refl _
  | @head reqs reqs₁ hstep _ ih =>
    have hle := hstep.load_le hin hbal
    have hin₁ : ∀ c ∈ subs, c ∈ reqs₁.keys := fun c hc => by rw [hstep.keys]; exact hin c hc
    exact (ih hin₁ fun c hc => (hle c).trans_lt (hbal c hc)).trans (hle c)

theorem FlattenRun.balanced (h : FlattenRun ord leaves subs reqs reqs')
    (hin : ∀ c ∈ subs, c ∈ reqs.keys) (hbal : Balanced w subs reqs) : Balanced w subs reqs' :=
  fun c hc => (h.load_le hin hbal c).trans_lt (hbal c hc)

theorem flattenContainer_load_lt (hkey : key ∈ subs) (hin : ∀ c ∈ subs, c ∈ reqs.keys)
    (hbal : Balanced w subs reqs)
    (h : flattenContainer ord leaves subs key reqs = .ok (reqs', false)) :
    load w reqs' key < load w reqs key := by
  obtain ⟨-, reqs₁, h₁, rfl⟩ := flattenContainer_eq_ok h
  have hin₀ : ∀ c ∈ subs, c ∈ (backupSpan reqs key).keys := by
    intro c hc
    rw [backupSpan, Dict.keys_modify]
    exact hin c hc
  have hload₀ (c : Name) : load w (backupSpan reqs key) c = load w reqs c := by
    rw [load, load, spanOf_backupSpan]
  have hbal₀ : Balanced w subs (backupSpan reqs key) := fun c hc => by
    rw [hload₀]
    exact hbal c hc
  rcases flattenSpan_run leaves hkey h₁ with ⟨-, hdone⟩ | ⟨part, hpart, hmem, hrun⟩
  · cases hdone
  have hmem' := List.mem_append_left (spanOf (backupSpan reqs key) part) hmem
  have hstep : FlattenStep ord leaves subs (backupSpan reqs key) _ := .replace hkey hpart hmem'
  have hin₁ : ∀ c ∈ subs, c ∈ (setSpan (backupSpan reqs key) key (ord.toList
      ((spanOf (backupSpan reqs key) key ++ spanOf (backupSpan reqs key) part).erase part))).keys :=
    fun c hc => by
      rw [keys_setSpan]
      exact hin₀ c hc
  have hbal₁ : Balanced w subs (setSpan (backupSpan reqs key) key (ord.toList
      ((spanOf (backupSpan reqs key) key ++ spanOf (backupSpan reqs key) part).erase part))) :=
    fun c hc => (hstep.load_le hin₀ hbal₀ c).trans_lt (hbal₀ c hc)
  calc load w (setSpan reqs₁ key _) key
      _ ≤ load w reqs₁ key := by
        rw [load_setSpan_self _ (by rw [hrun.keys]; exact hin₁ key hkey)]
        exact ((removeUnknownParts_sublist _ _ _ _).map w).sum_le_sum fun _ _ => Nat.zero_le _
      _ ≤ load w (setSpan (backupSpan reqs key) key _) key := hrun.load_le hin₁ hbal₁ key
      _ < load w (backupSpan reqs key) key := load_replace_lt hbal₀ hpart hmem' (hin₀ key hkey)
      _ = load w reqs key := hload₀ key

theorem flattenRound_load_lt (hkeys : ∀ k ∈ keys, k ∈ subs) (hin : ∀ c ∈ subs, c ∈ reqs.keys)
    (hbal : Balanced w subs reqs) (h : flattenRound ord leaves subs keys reqs = .ok (reqs', false)) :
    ∃ k ∈ subs, load w reqs' k < load w reqs k := by
  induction keys generalizing reqs with
  | nil => cases h
  | cons key keys ih =>
    simp only [flattenRound, bind_eq_ok, pure_eq_ok, Prod.mk.injEq] at h
    obtain ⟨⟨reqs₁, done₁⟩, h₁, ⟨reqs₂, done₂⟩, h₂, rfl, hdone⟩ := h
    have hkey := hkeys key (List.mem_cons_self ..)
    have hrest : ∀ k ∈ keys, k ∈ subs := fun k hk => hkeys k (List.mem_cons_of_mem _ hk)
    have hrun := flattenContainer_run hkey h₁
    have hin₁ : ∀ c ∈ subs, c ∈ reqs₁.keys := fun c hc => by rw [hrun.keys]; exact hin c hc
    have hbal₁ := hrun.balanced hin hbal
    cases done₁ with
    | false =>
      have hlt := flattenContainer_load_lt hkey hin hbal h₁
      exact ⟨key, hkey, ((flattenRound_run hrest h₂).load_le hin₁ hbal₁ key).trans_lt hlt⟩
    | true =>
      dsimp only at h₂
      rw [Bool.true_and] at hdone
      obtain ⟨k, hk, hlt⟩ := ih hrest hin₁ hbal₁ (hdone ▸ h₂)
      exact ⟨k, hk, hlt.trans_le (hrun.load_le hin hbal k)⟩

def Occupied (leaves subs : List Name) (reqs : PlainReqs) : Prop :=
  ∀ c ∈ subs, ∃ p ∈ spanOf reqs c, p ∈ subs ∨ p ∈ leaves

theorem FlattenStep.occupied (h : FlattenStep ord leaves subs reqs reqs')
    (hin : ∀ c ∈ subs, c ∈ reqs.keys) (hocc : Occupied leaves subs reqs) :
    Occupied leaves subs reqs' := by
  intro c hc
  obtain ⟨p, hp, hknown⟩ := hocc c hc
  cases h with
  | backup key =>
    rw [spanOf_backupSpan]
    exact ⟨p, hp, hknown⟩
  | @replace key part hkey hpart hmem =>
    by_cases hck : c = key
    · subst hck
      rw [spanOf_setSpan_self _ (hin c hkey)]
      simp only [ord.mem]
      by_cases hpc : part ∈ spanOf reqs c
      · -- The part goes once; what it spans stays, be it the part itself.
        obtain ⟨q, hq, hqknown⟩ := hocc part hpart
        refine ⟨q, ?_, hqknown⟩
        rw [List.erase_append_left _ hpc]
        exact List.mem_append_right _ hq
      · have hne : p ≠ part := fun he => hpc (he ▸ hp)
        exact ⟨p, (List.mem_erase_of_ne hne).mpr (List.mem_append_left _ hp), hknown⟩
    · rw [spanOf_setSpan_of_ne _ _ hck]
      exact ⟨p, hp, hknown⟩
  | @prune key l hkey _ hkeep =>
    by_cases hck : c = key
    · subst hck
      rw [spanOf_setSpan_self _ (hin c hkey)]
      exact ⟨p, hkeep p hp hknown, hknown⟩
    · rw [spanOf_setSpan_of_ne _ _ hck]
      exact ⟨p, hp, hknown⟩

theorem FlattenRun.occupied (h : FlattenRun ord leaves subs reqs reqs')
    (hin : ∀ c ∈ subs, c ∈ reqs.keys) (hocc : Occupied leaves subs reqs) :
    Occupied leaves subs reqs' := by
  induction h using ReflTransGen.head_induction_on with
  | refl => exact hocc
  | @head reqs reqs₁ hstep _ ih =>
    apply ih
    · intro c hc
      rw [hstep.keys]
      exact hin c hc
    · exact hstep.occupied hin hocc

variable {e : Exc}

theorem replacePart_error {key part : Name} (h : replacePart ord key part reqs = .error e) :
    e = .valueError := by
  rw [replacePart] at h
  split at h
  · cases h
  · cases h
    rfl

theorem replaceParts_error {parts : List Name} (h : replaceParts ord subs key parts reqs = .error e) :
    e = .valueError := by
  induction parts generalizing reqs with
  | nil => cases h
  | cons part parts ih =>
    rw [replaceParts] at h
    split at h
    · rcases bind_eq_error.mp h with h | ⟨reqs₁, -, h⟩
      · exact replacePart_error h
      · exact ih h
    · exact ih h

/-- The one exception of the loop is the `ValueError` of a part that is no longer listed. -/
theorem flattenContainer_error (hkey : key ∈ subs) (hocc : Occupied leaves subs reqs)
    (h : flattenContainer ord leaves subs key reqs = .error e) : e = .valueError := by
  rw [flattenContainer] at h
  split at h
  next hempty =>
    obtain ⟨p, hp, -⟩ := hocc key hkey
    rw [List.isEmpty_iff] at hempty
    simp [hempty] at hp
  next =>
    rcases bind_eq_error.mp h with h | ⟨x, -, h⟩
    · rw [flattenSpan] at h
      split at h
      · cases h
      · rcases bind_eq_error.mp h with h | ⟨reqs₁, -, h⟩
        · exact replacePart_error h
        · rcases bind_eq_error.mp h with h | ⟨reqs₂, -, h⟩
          · exact replaceParts_error h
          · cases h
    · cases h

theorem flattenRound_error (hkeys : ∀ k ∈ keys, k ∈ subs) (hin : ∀ c ∈ subs, c ∈ reqs.keys)
    (hocc : Occupied leaves subs reqs) (h : flattenRound ord leaves subs keys reqs = .error e) :
    e = .valueError := by
  induction keys generalizing reqs with
  | nil => cases h
  | cons key keys ih =>
    have hkey := hkeys key (List.mem_cons_self ..)
    rw [flattenRound] at h
    rcases bind_eq_error.mp h with h | ⟨⟨reqs₁, done₁⟩, h₁, h⟩
    · exact flattenContainer_error hkey hocc h
    · have hrun := flattenContainer_run hkey h₁
      rcases bind_eq_error.mp h with h | ⟨x, -, h⟩
      · apply ih (fun k hk => hkeys k (List.mem_cons_of_mem _ hk)) _ (hrun.occupied hin hocc) h
        intro c hc
        rw [hrun.keys]
        exact hin c hc
      · cases h

theorem flatten_error {fuel : Nat} (hin : ∀ c ∈ subs, c ∈ reqs.keys)
    (hocc : Occupied leaves subs reqs) (h : flatten ord leaves subs fuel reqs = .error e) :
    e = .valueError ∨ e = .running := by
  induction fuel generalizing reqs with
  | zero =>
    cases h
    exact Or.inr rfl
  | succ fuel ih =>
    rw [flatten] at h
    rcases bind_eq_error.mp h with h | ⟨⟨reqs₁, done⟩, h₁, h⟩
    · exact Or.inl (flattenRound_error (fun _ hk => hk) hin hocc h)
    · have hrun := flattenRound_run (fun _ hk => hk) h₁
      cases done with
      | true => cases h
      | false =>
        apply ih _ (hrun.occupied hin hocc) h
        intro c hc
        rw [hrun.keys]
        exact hin c hc

theorem flatten_stable : FuelStable .running fun n => flatten ord leaves subs n reqs := by
  intro n h
  induction n generalizing reqs with
  | zero => exact absurd rfl h
  | succ n ih =>
    dsimp only at h ih ⊢
    rw [flatten] at h
    rw [flatten, flatten]
    cases hround : flattenRound ord leaves subs subs reqs with
    | error e => rfl
    | ok x =>
      obtain ⟨reqs₁, done⟩ := x
      rw [hround] at h
      cases done with
      | true => rfl
      | false => exact ih h

theorem flatten_ne_running {n : Nat} (hin : ∀ c ∈ subs, c ∈ reqs.keys)
    (hocc : Occupied leaves subs reqs) (hbal : Balanced w subs reqs)
    (hn : (subs.map (load w reqs)).sum < n) :
    flatten ord leaves subs n reqs ≠ .error .running := by
  induction n generalizing reqs with
  | zero => omega
  | succ n ih =>
    rw [flatten]
    cases hround : flattenRound ord leaves subs subs reqs with
    | error e =>
      have he := flattenRound_error (fun _ hk => hk) hin hocc hround
      subst he
      exact fun h => by cases h
    | ok x =>
      obtain ⟨reqs₁, done⟩ := x
      have hrun := flattenRound_run (fun _ hk => hk) hround
      cases done with
      | true => exact fun h => by cases h
      | false =>
        apply ih _ (hrun.occupied hin hocc) (hrun.balanced hin hbal)
        · obtain ⟨k, hk, hlt⟩ := flattenRound_load_lt (fun _ hk => hk) hin hbal hround
          have hless : (subs.map (load w reqs₁)).sum < (subs.map (load w reqs)).sum :=
            List.sum_lt_sum _ _ (fun c _ => hrun.load_le hin hbal c) ⟨k, hk, hlt⟩
          omega
        · intro c hc
          rw [hrun.keys]
          exact hin c hc

/-- A container from which every descent ends after a change of a span was such a container
before the change. -/
theorem FlattenStep.acc (h : FlattenStep ord leaves subs reqs reqs')
    (hin : ∀ c ∈ subs, c ∈ reqs.keys) {c : Name} (hacc : Acc (Nested reqs' subs) c) :
    Acc (Nested reqs subs) c := by
  induction hacc with
  | intro c _ ih =>
    cases h with
    | backup key =>
      constructor
      intro p hp
      apply ih
      rw [Nested, PartOf, spanOf_backupSpan]
      exact hp
    | @replace key part hkey hpart hmem =>
      by_cases hck : c = key
      · subst hck
        have hnew (p : Name) (hp : p ∈ (spanOf reqs c ++ spanOf reqs part).erase part) :
            Acc (Nested reqs subs) p := by
          apply ih
          refine ⟨hkey, ?_⟩
          rwa [spanOf_setSpan_self _ (hin c hkey), ord.mem]
        constructor
        intro p hp
        by_cases hpp : p = part
        · subst hpp
          -- What the part spans has taken its place.
          constructor
          intro q hq
          apply hnew
          rw [List.erase_append_left _ hp.2]
          exact List.mem_append_right _ hq.2
        · exact hnew p ((List.mem_erase_of_ne hpp).mpr (List.mem_append_left _ hp.2))
      · constructor
        intro p hp
        apply ih
        refine ⟨hp.1, ?_⟩
        rw [spanOf_setSpan_of_ne _ _ hck]
        exact hp.2
    | @prune key l hkey hsub hkeep =>
      constructor
      intro p hp
      by_cases hps : p ∈ subs
      · apply ih
        refine ⟨hp.1, ?_⟩
        by_cases hck : c = key
        · subst hck
          rw [spanOf_setSpan_self _ (hin c hkey)]
          exact hkeep p hp.2 (Or.inl hps)
        · rw [spanOf_setSpan_of_ne _ _ hck]
          exact hp.2
      · exact ⟨_, fun q hq => absurd hq.1 hps⟩

theorem FlattenRun.acc (h : FlattenRun ord leaves subs reqs reqs')
    (hin : ∀ c ∈ subs, c ∈ reqs.keys) {c : Name} (hacc : Acc (Nested reqs' subs) c) :
    Acc (Nested reqs subs) c := by
  induction h using ReflTransGen.head_induction_on with
  | refl => exact hacc
  | @head reqs reqs₁ hstep _ ih =>
    apply hstep.acc hin
    apply ih
    intro c hc
    rw [hstep.keys]
    exact hin c hc

end Runs

section Deletion

variable {reqs : PlainReqs} {all subs del : List Name}

theorem keysToDelete_acc (n : Nat) (h : ∀ d ∈ del, Acc (Nested reqs all) d) :
    ∀ d ∈ keysToDelete reqs subs n del, Acc (Nested reqs all) d :=
  keysToDelete_forall n h fun _ _ hparts => ⟨_, fun p hp => hparts p hp.2⟩

private theorem length_le_deletionPass (reqs : PlainReqs) (subs del : List Name) :
    del.length ≤ (deletionPass reqs subs del).length := by
  induction subs generalizing del with
  | nil => exact le_refl _
  | cons key subs ih =>
    rw [deletionPass, List.foldl_cons, ← deletionPass]
    refine le_trans ?_ (ih _)
    split <;> simp

private theorem occupied_of_deletionPass
    (h : (deletionPass reqs subs del).length ≤ del.length) :
    deletionPass reqs subs del = del ∧
      ∀ key ∈ subs, key ∉ del → ∃ p ∈ spanOf reqs key, p ∉ del := by
  induction subs with
  | nil => exact ⟨rfl, by simp⟩
  | cons key subs ih =>
    rw [deletionPass, List.foldl_cons, ← deletionPass] at h ⊢
    split at h
    next =>
      have hle := length_le_deletionPass reqs subs (del ++ [key])
      rw [List.length_append, List.length_singleton] at hle
      omega
    next hfree =>
      rw [if_neg hfree]
      obtain ⟨heq, hrest⟩ := ih h
      refine ⟨heq, ?_⟩
      intro k hk hkd
      rcases List.mem_cons.mp hk with rfl | hk
      · simp only [Bool.and_eq_true, List.all_eq_true, decide_eq_true_eq, hkd,
          not_false_eq_true, and_true] at hfree
        push Not at hfree
        exact hfree
      · exact hrest k hk hkd

theorem keysToDelete_occupied {n : Nat} (hnd : del.Nodup) (hsub : ∀ d ∈ del, d ∈ subs)
    (hn : subs.length < n + del.length) : ∀ key ∈ subs, key ∉ keysToDelete reqs subs n del →
      ∃ p ∈ spanOf reqs key, p ∉ keysToDelete reqs subs n del := by
  have hle : del.length ≤ subs.length := (hnd.subperm hsub).length_le
  induction n generalizing del with
  | zero => omega
  | succ n ih =>
    rw [keysToDelete]
    split
    next heq => exact (occupied_of_deletionPass (congrArg List.length heq).le).2
    next hne =>
      have hlt : del.length < (deletionPass reqs subs del).length := by
        by_contra hle
        exact hne (occupied_of_deletionPass (by omega)).1
      obtain ⟨hnd', hsub'⟩ := deletionPass_induct (P := fun del => del.Nodup ∧ ∀ d ∈ del, d ∈ subs)
        ⟨hnd, hsub⟩ fun del key hkey hdel _ hfresh =>
          ⟨List.concat_eq_append ▸ hdel.1.concat hfresh, by simpa [or_imp, forall_and] using ⟨hdel.2, hkey⟩⟩
      exact ih hnd' hsub' (by omega) (hnd'.subperm hsub').length_le

end Deletion

def ContainersDescend (pre : PlainReqs) : Prop :=
  WellFounded fun p c => isContainer pre c = true ∧ p ∈ partsOf pre c

section ContainerPhase

variable {ord : SetOrder Name} {fuel : Nat} {pre reqs₁ : PlainReqs}

theorem cleanSubPartitions_stable (ord : SetOrder Name) (leaves subs : List Name)
    (reqs : PlainReqs) :
    FuelStable .running fun n => cleanSubPartitions ord n leaves subs reqs := by
  apply FuelStable.bind flatten_stable
  exact fun reqs => FuelStable.const _

private theorem spanOf_inside
    (hinside : solveInside (containerKeys pre) (leafKeys pre) pre = .ok reqs₁) (c : Name) :
    spanOf reqs₁ c = partsOf pre c := by
  obtain ⟨-, -, -, hspan⟩ := solveInside_spec (fun c hc => mem_containerKeys.mp hc) hinside
  rw [hspan, partsOf]

private theorem nested_inside
    (hinside : solveInside (containerKeys pre) (leafKeys pre) pre = .ok reqs₁) (c p : Name) :
    Nested reqs₁ (containerKeys pre) p c ↔ isContainer pre c = true ∧ p ∈ partsOf pre c := by
  rw [Nested, PartOf, mem_containerKeys, spanOf_inside hinside]

def survivors (pre reqs₁ : PlainReqs) : List Name :=
  (containerKeys pre).filter
    (· ∉ keysToDelete reqs₁ (containerKeys pre) ((containerKeys pre).length + 1) [])

private theorem survivors_mem_keys
    (hinside : solveInside (containerKeys pre) (leafKeys pre) pre = .ok reqs₁) :
    ∀ c ∈ survivors pre reqs₁, c ∈ reqs₁.keys := by
  obtain ⟨hkeys, -⟩ := solveInside_spec (fun c hc => mem_containerKeys.mp hc) hinside
  intro c hc
  rw [hkeys]
  exact mem_keys_of_isContainer (mem_containerKeys.mp (List.mem_filter.mp hc).1)

private theorem survivors_occupied
    (hinside : solveInside (containerKeys pre) (leafKeys pre) pre = .ok reqs₁)
    (hparts : ∀ c, ∀ p ∈ partsOf pre c, p ∈ pre.keys) :
    Occupied (leafKeys pre) (survivors pre reqs₁) reqs₁ := by
  intro c hc
  rw [survivors, List.mem_filter, decide_eq_true_eq] at hc
  obtain ⟨p, hp, hpd⟩ := keysToDelete_occupied List.nodup_nil (by simp) (by simp) c hc.1 hc.2
  refine ⟨p, hp, ?_⟩
  rw [spanOf_inside hinside] at hp
  cases hcont : isContainer pre p with
  | true =>
    left
    rw [survivors, List.mem_filter, decide_eq_true_eq]
    exact ⟨mem_containerKeys.mpr hcont, hpd⟩
  | false => exact Or.inr (mem_leafKeys.mpr ⟨hparts c p hp, hcont⟩)

theorem cleanSubPartitions_error
    (hinside : solveInside (containerKeys pre) (leafKeys pre) pre = .ok reqs₁)
    (hparts : ∀ c, ∀ p ∈ partsOf pre c, p ∈ pre.keys) {e : Exc}
    (h : cleanSubPartitions ord fuel (leafKeys pre) (containerKeys pre) reqs₁ = .error e) :
    e = .valueError ∨ e = .running := by
  rw [cleanSubPartitions] at h
  rcases bind_eq_error.mp h with h | ⟨reqs₂, -, h⟩
  · exact flatten_error (survivors_mem_keys hinside) (survivors_occupied hinside hparts) h
  · cases h

theorem cleanSubPartitions_ends
    (hinside : solveInside (containerKeys pre) (leafKeys pre) pre = .ok reqs₁)
    (hparts : ∀ c, ∀ p ∈ partsOf pre c, p ∈ pre.keys) (hdescend : ContainersDescend pre) :
    FuelEnds .running fun n =>
      cleanSubPartitions ord n (leafKeys pre) (containerKeys pre) reqs₁ := by
  have hnext : WellFounded fun p c => p ∈ if isContainer pre c = true then partsOf pre c else [] := by
    apply hdescend.mono
    intro p c hp
    split at hp
    next hc => exact ⟨hc, hp⟩
    next => simp at hp
  obtain ⟨w, hw⟩ := exists_weight hnext
  have hbal : Balanced w (survivors pre reqs₁) reqs₁ := by
    intro c hc
    have hcont := mem_containerKeys.mp (List.mem_filter.mp hc).1
    rw [load, spanOf_inside hinside, hw c, if_pos hcont]
    omega
  have hends : FuelEnds .running fun n =>
      flatten ord (leafKeys pre) (survivors pre reqs₁) n reqs₁ :=
    ⟨_, flatten_ne_running (survivors_mem_keys hinside) (survivors_occupied hinside hparts) hbal
      (Nat.lt_succ_self _)⟩
  apply FuelEnds.bind flatten_stable (fun reqs => FuelStable.const _) hends
  intro n reqs₂ _
  exact ⟨0, fun h => by cases h⟩

theorem containersDescend_of_ok {reqs₂ : PlainReqs} {subs : List Name}
    (hinside : solveInside (containerKeys pre) (leafKeys pre) pre = .ok reqs₁)
    (h : cleanSubPartitions ord fuel (leafKeys pre) (containerKeys pre) reqs₁ =
      .ok (reqs₂, subs)) : ContainersDescend pre := by
  simp only [cleanSubPartitions, bind_eq_ok, pure_eq_ok, Prod.mk.injEq] at h
  obtain ⟨reqs, hflatten, rfl, hsubs⟩ := h
  obtain ⟨-, -, hcont, -⟩ := solveInside_spec (fun c hc => mem_containerKeys.mp hc) hinside
  have hin := survivors_mem_keys hinside
  have hflat := (flatten_spec (fun l hl hls => ?_) (fun c hc => ?_) hflatten).2
  · have hfinal (c : Name) : Acc (Nested reqs (survivors pre reqs₁)) c :=
      ⟨_, fun p hp => ⟨_, fun q hq => absurd hq.1 (hflat c hp.1 p hp.2)⟩⟩
    have hstart (c : Name) : Acc (Nested reqs₁ (survivors pre reqs₁)) c :=
      (flatten_run hflatten).acc hin (hfinal c)
    have hall (c : Name) : Acc (Nested reqs₁ (containerKeys pre)) c := by
      induction hstart c with
      | intro c _ ih =>
        by_cases hc : c ∈ keysToDelete reqs₁ (containerKeys pre) ((containerKeys pre).length + 1) []
        · exact keysToDelete_acc _ (by simp) c hc
        · constructor
          intro p hp
          exact ih p ⟨List.mem_filter.mpr ⟨hp.1, by simpa using hc⟩, hp.2⟩
    exact (WellFounded.intro hall).mono fun p c hp => (nested_inside hinside c p).mpr hp
  · have hls' := mem_containerKeys.mp (List.mem_filter.mp hls).1
    rw [(mem_leafKeys.mp hl).2] at hls'
    cases hls'
  · rw [hcont]
    exact mem_containerKeys.mp (List.mem_filter.mp hc).1

end ContainerPhase

end SdkNrf.PartitionManager
