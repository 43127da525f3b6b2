import Mathlib

/-!
# Insertion-ordered dictionaries

A finite map that remembers the order in which its keys were first written.
-/

namespace SdkNrf

structure Dict (κ α : Type*) where
  items : List (κ × α)
  nodupKeys : (items.map Prod.fst).Nodup

namespace Dict

variable {κ α β : Type*}

def keys (d : Dict κ α) : List κ := d.items.map Prod.fst

def empty : Dict κ α := ⟨[], List.nodup_nil⟩

theorem keys_nodup (d : Dict κ α) : d.keys.Nodup := d.nodupKeys

@[ext] theorem ext {d e : Dict κ α} (h : d.items = e.items) : d = e := by
  cases d
  cases e
  simp_all

instance [DecidableEq κ] [DecidableEq α] : DecidableEq (Dict κ α) := fun d e =>
  decidable_of_iff (d.items = e.items) ⟨Dict.ext, congrArg Dict.items⟩

def mapValues (f : α → β) (d : Dict κ α) : Dict κ β where
  items := d.items.map fun p => (p.1, f p.2)
  nodupKeys := by
    have h := d.nodupKeys
    simpa [List.map_map, Function.comp_def] using h

@[simp] theorem keys_mapValues (f : α → β) (d : Dict κ α) : (d.mapValues f).keys = d.keys := by
  simp [keys, mapValues, Function.comp_def]

def mapItemsM {ε : Type*} (f : α → Except ε β) : List (κ × α) → Except ε (List (κ × β))
  | [] => .ok []
  | e :: es =>
    match f e.2 with
    | .error err => .error err
    | .ok b =>
      match mapItemsM f es with
      | .error err => .error err
      | .ok bs => .ok ((e.1, b) :: bs)

variable {ε : Type*}

theorem mapItemsM_forall₂ {f : α → Except ε β} {es : List (κ × α)} {bs : List (κ × β)}
    (h : mapItemsM f es = .ok bs) :
    List.Forall₂ (fun e b => b.1 = e.1 ∧ f e.2 = .ok b.2) es bs := by
  induction es generalizing bs with
  | nil =>
    cases h
    exact .nil
  | cons e es ih =>
    rw [mapItemsM] at h
    split at h
    · cases h
    · next b hb =>
      split at h
      · cases h
      · next rest hrest =>
        cases h
        exact .cons ⟨rfl, hb⟩ (ih hrest)

theorem mapItemsM_keys {f : α → Except ε β} {es : List (κ × α)} {bs : List (κ × β)}
    (h : mapItemsM f es = .ok bs) :
    bs.map Prod.fst = es.map Prod.fst := by
  have hall := mapItemsM_forall₂ h
  clear h
  induction hall with
  | nil => rfl
  | cons hab _ ih => rw [List.map_cons, List.map_cons, hab.1, ih]

def mapValuesM {ε : Type*} (f : α → Except ε β) (d : Dict κ α) : Except ε (Dict κ β) :=
  match h : mapItemsM f d.items with
  | .error e => .error e
  | .ok es => .ok ⟨es, by rw [mapItemsM_keys h]; exact d.nodupKeys⟩

theorem keys_mapValuesM {f : α → Except ε β} {d : Dict κ α} {e : Dict κ β}
    (h : d.mapValuesM f = .ok e) : e.keys = d.keys := by
  rw [mapValuesM] at h
  split at h
  · cases h
  next es hes =>
    cases h
    exact mapItemsM_keys hes

theorem mapItemsM_error {f : α → Except ε β} {es : List (κ × α)} {e : ε}
    (h : mapItemsM f es = .error e) : ∃ v, f v = .error e := by
  induction es with
  | nil => cases h
  | cons x es ih =>
    rw [mapItemsM] at h
    split at h
    next hx =>
      cases h
      exact ⟨_, hx⟩
    next =>
      split at h
      next hes =>
        cases h
        exact ih hes
      next => cases h

theorem mapValuesM_error {f : α → Except ε β} {d : Dict κ α} {e : ε} (h : d.mapValuesM f = .error e) :
    ∃ v, f v = .error e := by
  rw [mapValuesM] at h
  split at h
  next hes =>
    cases h
    exact mapItemsM_error hes
  next => cases h

def filter (p : κ → α → Bool) (d : Dict κ α) : Dict κ α where
  items := d.items.filter fun e => p e.1 e.2
  nodupKeys := d.nodupKeys.sublist (List.filter_sublist.map Prod.fst)
variable [DecidableEq κ]

def get? (d : Dict κ α) (k : κ) : Option α := d.items.lookup k

def modify (d : Dict κ α) (k : κ) (f : α → α) : Dict κ α where
  items := d.items.map fun e => if e.1 = k then (e.1, f e.2) else e
  nodupKeys := by
    have h : (d.items.map fun e => if e.1 = k then (e.1, f e.2) else e).map Prod.fst =
        d.items.map Prod.fst := by
      rw [List.map_map]
      apply List.map_congr_left
      intro e _
      by_cases hk : e.1 = k <;> simp [hk]
    rw [h]
    exact d.nodupKeys

def set (d : Dict κ α) (k : κ) (v : α) : Dict κ α :=
  if h : k ∈ d.keys then d.modify k fun _ => v
  else ⟨d.items ++ [(k, v)], by
    rw [List.map_append, List.nodup_append]
    refine ⟨d.nodupKeys, by simp, ?_⟩
    intro a ha b hb
    simp only [List.map_cons, List.map_nil, List.mem_singleton] at hb
    subst hb
    exact fun hab => h (hab ▸ ha)⟩

def erase (d : Dict κ α) (k : κ) : Dict κ α := d.filter fun k' _ => decide (k' ≠ k)

def update (d e : Dict κ α) : Dict κ α := e.items.foldl (fun d p => d.set p.1 p.2) d

private theorem lookup_eq_some {l : List (κ × α)} (hnd : (l.map Prod.fst).Nodup) (k : κ) (v : α) :
    l.lookup k = some v ↔ (k, v) ∈ l := by
  induction l with
  | nil => simp
  | cons e l ih =>
    obtain ⟨k', v'⟩ := e
    rw [List.map_cons, List.nodup_cons] at hnd
    rw [List.lookup_cons, List.mem_cons]
    by_cases hk : k = k'
    · subst hk
      simp only [beq_self_eq_true, Option.some.injEq, Prod.mk.injEq, true_and]
      constructor
      · exact fun h => Or.inl h.symm
      · rintro (h | h)
        · exact h.symm
        · exact absurd (List.mem_map_of_mem h) hnd.1
    · rw [beq_eq_false_iff_ne.mpr hk]
      simp [hk, ih hnd.2]

theorem get?_eq_some_iff (d : Dict κ α) (k : κ) (v : α) :
    d.get? k = some v ↔ (k, v) ∈ d.items :=
  lookup_eq_some d.nodupKeys k v

theorem get?_isSome_iff (d : Dict κ α) (k : κ) : (d.get? k).isSome ↔ k ∈ d.keys := by
  rw [Option.isSome_iff_exists]
  constructor
  · rintro ⟨v, hv⟩
    exact List.mem_map_of_mem ((get?_eq_some_iff d k v).mp hv)
  · intro h
    obtain ⟨⟨k', v⟩, hmem, rfl⟩ := List.mem_map.mp h
    exact ⟨v, (get?_eq_some_iff d _ v).mpr hmem⟩

theorem get?_eq_none_iff (d : Dict κ α) (k : κ) : d.get? k = none ↔ k ∉ d.keys := by
  rw [← get?_isSome_iff, Option.not_isSome_iff_eq_none]

theorem mem_keys_of_get? {d : Dict κ α} {k : κ} {v : α} (h : d.get? k = some v) : k ∈ d.keys := by
  rw [← get?_isSome_iff, h]
  rfl

private theorem get?_congr {d : Dict κ α} {e : Dict κ β} {k : κ} {f : β → α}
    (h : ∀ v, (k, v) ∈ d.items ↔ ∃ w, (k, w) ∈ e.items ∧ v = f w) :
    d.get? k = (e.get? k).map f := by
  apply Option.ext
  intro v
  simp only [Option.map_eq_some_iff, get?_eq_some_iff]
  rw [h]
  constructor
  · rintro ⟨w, hw, rfl⟩
    exact ⟨w, hw, rfl⟩
  · rintro ⟨w, hw, rfl⟩
    exact ⟨w, hw, rfl⟩

@[simp] theorem get?_mapValues (f : α → β) (d : Dict κ α) (k : κ) :
    (d.mapValues f).get? k = (d.get? k).map f := by
  apply get?_congr
  intro v
  simp only [mapValues, List.mem_map, Prod.mk.injEq, Prod.exists]
  constructor
  · rintro ⟨a, b, hab, rfl, rfl⟩
    exact ⟨b, hab, rfl⟩
  · rintro ⟨w, hw, rfl⟩
    exact ⟨k, w, hw, rfl, rfl⟩

theorem get?_filter (p : κ → α → Bool) (d : Dict κ α) (k : κ) :
    (d.filter p).get? k = (d.get? k).filter (p k) := by
  apply Option.ext
  intro v
  rw [get?_eq_some_iff, Option.filter_eq_some_iff, get?_eq_some_iff]
  simp [filter]

theorem mem_keys_filter (p : κ → α → Bool) (d : Dict κ α) (k : κ) :
    k ∈ (d.filter p).keys ↔ ∃ v, d.get? k = some v ∧ p k v = true := by
  rw [← get?_isSome_iff, get?_filter, Option.isSome_iff_exists]
  simp only [Option.filter_eq_some_iff]

@[simp] theorem keys_modify (d : Dict κ α) (k : κ) (f : α → α) : (d.modify k f).keys = d.keys := by
  simp only [keys, modify, List.map_map]
  apply List.map_congr_left
  intro e _
  by_cases hk : e.1 = k <;> simp [hk]

theorem get?_modify (d : Dict κ α) (k k' : κ) (f : α → α) :
    (d.modify k f).get? k' = if k' = k then (d.get? k').map f else d.get? k' := by
  by_cases hk : k' = k
  · subst hk
    simp only [if_true]
    apply get?_congr
    intro v
    simp only [modify, List.mem_map, Prod.exists]
    constructor
    · rintro ⟨a, b, hab, h⟩
      by_cases ha : a = k'
      · subst ha
        simp only [if_true, Prod.mk.injEq, true_and] at h
        exact ⟨b, hab, h.symm⟩
      · rw [if_neg ha, Prod.mk.injEq] at h
        exact absurd h.1 ha
    · rintro ⟨w, hw, rfl⟩
      exact ⟨k', w, hw, by simp⟩
  · rw [if_neg hk]
    refine Eq.trans (get?_congr (f := fun v => v) ?_) Option.map_id'
    intro v
    simp only [modify, List.mem_map, Prod.exists]
    constructor
    · rintro ⟨a, b, hab, h⟩
      by_cases ha : a = k
      · simp only [ha, if_true, Prod.mk.injEq] at h
        exact absurd h.1.symm hk
      · simp only [ha, if_false, Prod.mk.injEq] at h
        obtain ⟨rfl, rfl⟩ := h
        exact ⟨b, hab, rfl⟩
    · rintro ⟨w, hw, rfl⟩
      exact ⟨k', _, hw, by simp [hk]⟩

@[simp] theorem get?_modify_self (d : Dict κ α) (k : κ) (f : α → α) :
    (d.modify k f).get? k = (d.get? k).map f := by
  rw [get?_modify, if_pos rfl]

theorem get?_modify_of_ne (d : Dict κ α) {k k' : κ} (f : α → α) (h : k' ≠ k) :
    (d.modify k f).get? k' = d.get? k' := by
  rw [get?_modify, if_neg h]

theorem forall₂_items {R : α → β → Prop} {d : Dict κ α} {e : Dict κ β} (hkeys : d.keys = e.keys)
    (h : ∀ k v w, d.get? k = some v → e.get? k = some w → R v w) :
    List.Forall₂ (fun a b => a.1 = b.1 ∧ R a.2 b.2) d.items e.items := by
  have hlen : d.items.length = e.items.length := by
    simpa [keys] using congrArg List.length hkeys
  refine List.forall₂_iff_get.mpr ⟨hlen, fun i hi hi' => ?_⟩
  have hfst : d.items[i].1 = e.items[i].1 := by
    have hi₁ : i < d.keys.length := by simpa [keys] using hi
    have hi₂ : i < e.keys.length := by simpa [keys] using hi'
    have hkey : d.keys[i] = e.keys[i] := by simp only [hkeys]
    simpa [keys] using hkey
  have hd := (get?_eq_some_iff d d.items[i].1 d.items[i].2).mpr (List.getElem_mem hi)
  have he := (get?_eq_some_iff e e.items[i].1 e.items[i].2).mpr (List.getElem_mem hi')
  exact ⟨hfst, h _ _ _ hd (hfst ▸ he)⟩

/-- Dictionaries with the same keys in the same order and the same values are equal. -/
theorem ext_get? {d e : Dict κ α} (hkeys : d.keys = e.keys) (h : ∀ k ∈ d.keys, d.get? k = e.get? k) :
    d = e := by
  have hall : List.Forall₂ (fun a b => a.1 = b.1 ∧ a.2 = b.2) d.items e.items := by
    refine forall₂_items hkeys fun k v w hv hw => ?_
    rw [h k (mem_keys_of_get? hv), hw, Option.some.injEq] at hv
    exact hv.symm
  apply Dict.ext
  rw [← List.forall₂_eq_eq_eq]
  exact hall.imp fun _ _ hab => Prod.ext hab.1 hab.2

/-- Values on which a fallible function does the same give the same result, errors included. -/
theorem mapValuesM_congr {f : α → Except ε β} {d e : Dict κ α} (hkeys : d.keys = e.keys)
    (h : ∀ k v w, d.get? k = some v → e.get? k = some w → f v = f w) :
    d.mapValuesM f = e.mapValuesM f := by
  have hitems : mapItemsM f d.items = mapItemsM f e.items := by
    have hall := forall₂_items hkeys h
    generalize d.items = l at hall ⊢
    generalize e.items = l' at hall ⊢
    induction hall with
    | nil => rfl
    | cons hab _ ih => rw [mapItemsM, mapItemsM, hab.1, hab.2, ih]
  rw [mapValuesM, mapValuesM]
  split <;> split <;> simp_all

private theorem exists_of_forall₂ {R : α → β → Prop} {as : List α} {bs : List β}
    (h : List.Forall₂ R as bs) {b : β} (hb : b ∈ bs) : ∃ a ∈ as, R a b := by
  induction h with
  | nil => simp at hb
  | @cons a b' as bs hab _ ih =>
    rcases List.mem_cons.mp hb with rfl | hb
    · exact ⟨a, List.mem_cons_self .., hab⟩
    · obtain ⟨a', ha', hR⟩ := ih hb
      exact ⟨a', List.mem_cons_of_mem _ ha', hR⟩

theorem get?_mapValuesM {f : α → Except ε β} {d : Dict κ α} {e : Dict κ β}
    (h : d.mapValuesM f = .ok e) {k : κ} {w : β} (hw : e.get? k = some w) :
    ∃ v, d.get? k = some v ∧ f v = .ok w := by
  rw [mapValuesM] at h
  split at h
  · cases h
  next es hes =>
    cases h
    obtain ⟨⟨k', v⟩, hmem, hk, hf⟩ :=
      exists_of_forall₂ (mapItemsM_forall₂ hes) ((get?_eq_some_iff _ _ _).mp hw)
    obtain rfl : k = k' := hk
    exact ⟨v, (get?_eq_some_iff _ _ _).mpr hmem, hf⟩

theorem keys_set_of_mem {d : Dict κ α} {k : κ} (v : α) (h : k ∈ d.keys) :
    (d.set k v).keys = d.keys := by
  rw [set, dif_pos h, keys_modify]

theorem keys_set_of_notMem {d : Dict κ α} {k : κ} (v : α) (h : k ∉ d.keys) :
    (d.set k v).keys = d.keys ++ [k] := by
  rw [set, dif_neg h]
  simp [keys]

theorem mem_keys_set (d : Dict κ α) (k k' : κ) (v : α) :
    k' ∈ (d.set k v).keys ↔ k' = k ∨ k' ∈ d.keys := by
  by_cases h : k ∈ d.keys
  · rw [keys_set_of_mem v h]
    constructor
    · exact Or.inr
    · rintro (rfl | h')
      · exact h
      · exact h'
  · rw [keys_set_of_notMem v h, List.mem_append, List.mem_singleton, or_comm]

theorem get?_set (d : Dict κ α) (k k' : κ) (v : α) :
    (d.set k v).get? k' = if k' = k then some v else d.get? k' := by
  by_cases h : k ∈ d.keys
  · rw [set, dif_pos h, get?_modify]
    by_cases hk : k' = k
    · subst hk
      obtain ⟨w, hw⟩ := Option.isSome_iff_exists.mp ((get?_isSome_iff d k').mpr h)
      simp [hw]
    · simp [hk]
  · rw [set, dif_neg h]
    apply Option.ext
    intro w
    rw [get?_eq_some_iff]
    simp only [List.mem_append, List.mem_singleton, Prod.mk.injEq]
    by_cases hk : k' = k
    · subst hk
      have hn : (k', w) ∉ d.items := fun hm => h (List.mem_map_of_mem hm)
      simp [hn, eq_comm]
    · simp [hk, get?_eq_some_iff]

@[simp] theorem get?_set_self (d : Dict κ α) (k : κ) (v : α) : (d.set k v).get? k = some v := by
  rw [get?_set, if_pos rfl]

theorem get?_set_of_ne (d : Dict κ α) {k k' : κ} (v : α) (h : k' ≠ k) :
    (d.set k v).get? k' = d.get? k' := by
  rw [get?_set, if_neg h]

private theorem foldl_set_get? (l : List (κ × α)) (hnodup : (l.map Prod.fst).Nodup) (d : Dict κ α) (k : κ) :
    (l.foldl (fun d p => d.set p.1 p.2) d).get? k = (l.lookup k).or (d.get? k) := by
  induction l generalizing d with
  | nil => rfl
  | cons p l ih =>
    rw [List.map_cons, List.nodup_cons] at hnodup
    rw [List.foldl_cons, ih hnodup.2, get?_set, List.lookup_cons]
    by_cases hk : k = p.1
    · have hnone : l.lookup p.1 = none := by
        rw [List.lookup_eq_none_iff]
        intro q hq
        simp only [bne_iff_ne, ne_eq]
        exact fun heq => hnodup.1 (heq ▸ List.mem_map_of_mem hq)
      simp [hk, hnone]
    · simp [hk, beq_false_of_ne hk]

theorem get?_update (d e : Dict κ α) (k : κ) : (d.update e).get? k = (e.get? k).or (d.get? k) :=
  foldl_set_get? e.items e.nodupKeys d k

theorem mem_keys_update (d e : Dict κ α) (k : κ) : k ∈ (d.update e).keys ↔ k ∈ e.keys ∨ k ∈ d.keys := by
  rw [← get?_isSome_iff, ← get?_isSome_iff, ← get?_isSome_iff, get?_update, Option.isSome_or, Bool.or_eq_true]

end Dict

end SdkNrf
