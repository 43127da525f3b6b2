import SdkNrf.Agps.Process

/-!
# The elements of an encoding

An encoding is a list of elements, the first one of each group with the type and the count in front of it.
-/

namespace SdkNrf.Agps

structure Item where
  type : AgpsType
  block : List UInt8
  count : Option Nat
  deriving DecidableEq, Repr

def Item.header (i : Item) : List UInt8 :=
  match i.count with
  | some n => [UInt8.ofNat i.type.code, UInt8.ofNat n, UInt8.ofNat (n / 2 ^ 8)]
  | none => []

def encodeItems (items : List Item) : List UInt8 := items.flatMap fun i => i.header ++ i.block

def Group.items (g : Group) : List Item :=
  match g.elements with
  | [] => []
  | b :: bs => ⟨g.type, b, some g.elements.length⟩ :: bs.map fun b => ⟨g.type, b, none⟩

def itemsOf (groups : List Group) : List Item := groups.flatMap Group.items

def Continues : Statics → List Item → Prop
  | s, [] => s.elementsLeftToProcess = 0
  | s, i :: rest => elementLength i.type ≠ 0 ∧ i.block.length = elementLength i.type ∧
    match i.count with
    | some n => s.elementsLeftToProcess = 0 ∧ 1 ≤ n ∧ n < 2 ^ 16 ∧ Continues ⟨n - 1, i.type.code⟩ rest
    | none => 0 < s.elementsLeftToProcess ∧ s.elementType = i.type.code ∧
        Continues ⟨s.elementsLeftToProcess - 1, s.elementType⟩ rest

@[simp] theorem encodeItems_cons (i : Item) (items : List Item) :
    encodeItems (i :: items) = i.header ++ (i.block ++ encodeItems items) := by
  simp [encodeItems]

theorem encodeItems_append (items items' : List Item) :
    encodeItems (items ++ items') = encodeItems items ++ encodeItems items' := by
  simp [encodeItems]

theorem encodeItems_items (g : Group) : encodeItems g.items = g.encode := by
  have hrest : ∀ bs : List (List UInt8),
      encodeItems (bs.map fun b => ⟨g.type, b, none⟩) = bs.flatten := by
    intro bs
    induction bs with
    | nil => rfl
    | cons b bs ih =>
      rw [List.map_cons, encodeItems_cons, ih, List.flatten_cons]
      rfl
  rw [Group.items, Group.encode, Group.header]
  split
  · next hnil => exact absurd hnil g.nonempty
  · next b bs hcons =>
    rw [encodeItems_cons, hrest, hcons, List.flatten_cons]
    rfl

theorem encode_eq (groups : List Group) : encode groups = 1 :: encodeItems (itemsOf groups) := by
  rw [encode, itemsOf]
  congr 1
  induction groups with
  | nil => rfl
  | cons g groups ih =>
    rw [List.flatMap_cons, List.flatMap_cons, encodeItems_append, ← ih, encodeItems_items]

theorem continues_map (t : AgpsType) (ht : elementLength t ≠ 0) (bs : List (List UInt8))
    (hbs : ∀ b ∈ bs, b.length = elementLength t) {items : List Item}
    (hitems : Continues ⟨0, t.code⟩ items) :
    Continues ⟨bs.length, t.code⟩ ((bs.map fun b => ⟨t, b, none⟩) ++ items) := by
  induction bs with
  | nil => exact hitems
  | cons b bs ih =>
    rw [List.forall_mem_cons] at hbs
    exact ⟨ht, hbs.1, Nat.succ_pos _, rfl, ih hbs.2⟩

theorem continues_itemsOf (groups : List Group) (type : Nat) :
    Continues ⟨0, type⟩ (itemsOf groups) := by
  induction groups generalizing type with
  | nil => rfl
  | cons g groups ih =>
    rw [itemsOf, List.flatMap_cons, Group.items]
    split
    · next hnil => exact absurd hnil g.nonempty
    · next b bs hcons =>
      have hlengths := g.lengths
      have hlt := g.length_lt
      rw [hcons, List.forall_mem_cons] at hlengths
      rw [hcons] at hlt
      refine ⟨g.handled, hlengths.1, rfl, ?_, ?_, ?_⟩
      · rw [hcons]
        exact Nat.succ_pos _
      · rwa [hcons]
      · rw [hcons]
        exact continues_map g.type g.handled bs hlengths.2 (ih g.type.code)

theorem code_injective {t t' : AgpsType} (h : UInt8.ofNat t.code = UInt8.ofNat t'.code) : t = t' := by
  cases t <;> cases t' <;> first | rfl | cases h

theorem count_injective {n n' : Nat} (hn : n < 2 ^ 16) (hn' : n' < 2 ^ 16)
    (hlow : UInt8.ofNat n = UInt8.ofNat n')
    (hhigh : UInt8.ofNat (n / 2 ^ 8) = UInt8.ofNat (n' / 2 ^ 8)) : n = n' := by
  have h0 := congrArg UInt8.toNat hlow
  have h1 := congrArg UInt8.toNat hhigh
  simp only [UInt8.toNat_ofNat'] at h0 h1
  omega

theorem encodeItems_ne_nil {i : Item} {items : List Item} (h : i.block.length ≠ 0) :
    encodeItems (i :: items) ≠ [] := by
  intro hnil
  rw [encodeItems_cons, List.append_eq_nil_iff, List.append_eq_nil_iff] at hnil
  exact h (List.length_eq_zero_iff.mpr hnil.2.1)

theorem Continues.unique {s : Statics} {items items' : List Item} (h : Continues s items)
    (h' : Continues s items') (heq : encodeItems items = encodeItems items') : items = items' := by
  induction items generalizing s items' with
  | nil =>
    cases items' with
    | nil => rfl
    | cons i' rest' =>
      exact absurd heq.symm (encodeItems_ne_nil (h'.2.1 ▸ h'.1))
  | cons i rest ih =>
    cases items' with
    | nil => exact absurd heq (encodeItems_ne_nil (h.2.1 ▸ h.1))
    | cons i' rest' =>
      obtain ⟨t, b, count⟩ := i
      obtain ⟨t', b', count'⟩ := i'
      obtain ⟨-, hlen, hrest⟩ := h
      obtain ⟨-, hlen', hrest'⟩ := h'
      rw [encodeItems_cons, encodeItems_cons] at heq
      -- The count that is left says whether there is a header.
      cases count with
      | none =>
        cases count' with
        | some n' => exact absurd hrest'.1 (by have := hrest.1; omega)
        | none =>
          have htype : t = t' := by
            have hcode : t.code = t'.code := hrest.2.1.symm.trans hrest'.2.1
            have hsome := (AgpsType.ofCode_code t).symm.trans
              ((congrArg AgpsType.ofCode hcode).trans (AgpsType.ofCode_code t'))
            exact Option.some.inj hsome
          subst htype
          simp only [Item.header, List.nil_append] at heq
          obtain ⟨rfl, hrests⟩ := List.append_inj heq (hlen.trans hlen'.symm)
          rw [ih hrest.2.2 hrest'.2.2 hrests]
      | some n =>
        cases count' with
        | none => exact absurd hrest.1 (by have := hrest'.1; omega)
        | some n' =>
          simp only [Item.header, List.cons_append, List.nil_append, List.cons.injEq] at heq
          obtain ⟨hcode, hlow, hhigh, hblocks⟩ := heq
          obtain rfl := code_injective hcode
          obtain rfl := count_injective hrest.2.2.1 hrest'.2.2.1 hlow hhigh
          obtain ⟨rfl, hrests⟩ := List.append_inj hblocks (hlen.trans hlen'.symm)
          rw [ih hrest.2.2.2 hrest'.2.2.2 hrests]

theorem itemsOf_unique {groups groups' : List Group} (h : encode groups = encode groups') :
    itemsOf groups = itemsOf groups' := by
  rw [encode_eq, encode_eq, List.cons.injEq] at h
  exact (continues_itemsOf groups 0).unique (continues_itemsOf groups' 0) h.2

end SdkNrf.Agps
