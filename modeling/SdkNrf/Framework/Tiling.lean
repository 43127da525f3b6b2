import Mathlib

/-!
# Tilings of an interval

A list of objects with an address and a size tiles an interval when each object starts where the one before it
ends.
-/

namespace SdkNrf

variable {α : Type*} {addr size : α → Option Int}

/-- The objects of the list follow each other from `a` to `b` without gap or overlap. -/
def Tiles (addr size : α → Option Int) : List α → Int → Int → Prop
  | [], a, b => a = b
  | p :: ps, a, b => ∃ z, addr p = some a ∧ size p = some z ∧ Tiles addr size ps (a + z) b

namespace Tiles

variable {a b : Int}

theorem head {p : α} {ps : List α} (h : Tiles addr size (p :: ps) a b) :
    addr p = some a := by
  obtain ⟨_, ha, _⟩ := h
  exact ha

theorem isSome {l : List α} (h : Tiles addr size l a b) :
    ∀ p ∈ l, (addr p).isSome ∧ (size p).isSome := by
  induction l generalizing a with
  | nil => simp
  | cons q l ih =>
    obtain ⟨z, ha, hz, hrest⟩ := h
    simp only [List.forall_mem_cons, ha, hz, Option.isSome_some, and_self, true_and]
    exact ih hrest

/-- A tiling splits where its list splits. -/
theorem append_iff {l m : List α} :
    Tiles addr size (l ++ m) a b ↔ ∃ c, Tiles addr size l a c ∧ Tiles addr size m c b := by
  induction l generalizing a with
  | nil => simp [Tiles]
  | cons p ps ih =>
    simp only [List.cons_append, Tiles, ih]
    constructor
    · rintro ⟨z, ha, hz, c, hps, hm⟩
      exact ⟨c, ⟨z, ha, hz, hps⟩, hm⟩
    · rintro ⟨c, ⟨z, ha, hz, hps⟩, hm⟩
      exact ⟨z, ha, hz, c, hps, hm⟩

/-- Neighbours touch. -/
theorem next {l : List α} (h : Tiles addr size l a b) {i : Nat} {p q : α} (hp : l[i]? = some p)
    (hq : l[i + 1]? = some q) :
    ∃ x z, addr p = some x ∧ size p = some z ∧ addr q = some (x + z) := by
  induction l generalizing a i with
  | nil => simp at hp
  | cons r rs ih =>
    obtain ⟨z, ha, hz, hrs⟩ := h
    cases i with
    | zero =>
      cases rs with
      | nil => simp at hq
      | cons s rs =>
        simp only [List.getElem?_cons_zero, List.getElem?_cons_succ, Option.some.injEq] at hp hq
        subst hp hq
        exact ⟨a, z, ha, hz, hrs.head⟩
    | succ i => exact ih hrs (by simpa using hp) (by simpa using hq)

theorem last {l : List α} (h : Tiles addr size l a b) {p : α} (hp : l.getLast? = some p) :
    ∃ x z, addr p = some x ∧ size p = some z ∧ x + z = b := by
  obtain ⟨l, rfl⟩ := List.getLast?_eq_some_iff.mp hp
  obtain ⟨c, -, z, ha, hz, hb⟩ := append_iff.mp h
  exact ⟨c, z, ha, hz, hb⟩

theorem add_sum {l : List α} (h : Tiles addr size l a b) :
    a + (l.filterMap size).sum = b := by
  induction l generalizing a with
  | nil =>
    have hab : a = b := h
    simpa using hab
  | cons p ps ih =>
    obtain ⟨z, -, hz, hps⟩ := h
    rw [List.filterMap_cons_some hz, List.sum_cons, ← ih hps, Int.add_assoc]

theorem le_end {l : List α} (h : Tiles addr size l a b)
    (hnn : ∀ p ∈ l, ∀ z, size p = some z → 0 ≤ z) : a ≤ b := by
  induction l generalizing a with
  | nil => exact le_of_eq h
  | cons p ps ih =>
    obtain ⟨z, -, hz, hps⟩ := h
    have h0 := hnn p (List.mem_cons_self ..) z hz
    have h1 := ih hps fun q hq => hnn q (List.mem_cons_of_mem _ hq)
    omega

theorem mem_bounds {l : List α} (h : Tiles addr size l a b)
    (hnn : ∀ p ∈ l, ∀ z, size p = some z → 0 ≤ z) {p : α} (hp : p ∈ l) :
    ∃ x z, addr p = some x ∧ size p = some z ∧ 0 ≤ z ∧ a ≤ x ∧ x + z ≤ b := by
  obtain ⟨l₁, l₂, rfl⟩ := List.append_of_mem hp
  obtain ⟨c, h₁, z, hx, hz, h₂⟩ := append_iff.mp h
  have hle₁ := h₁.le_end fun q hq => hnn q (List.mem_append_left _ hq)
  have hle₂ := h₂.le_end fun q hq =>
    hnn q (List.mem_append_right _ (List.mem_cons_of_mem _ hq))
  exact ⟨c, z, hx, hz, hnn p hp z hz, hle₁, hle₂⟩

end Tiles

/-- The number `x` is an address of the object `p`. -/
def InRange (addr size : α → Option Int) (p : α) (x : Int) : Prop :=
  ∃ a z, addr p = some a ∧ size p = some z ∧ a ≤ x ∧ x < a + z

/-- Between two selected objects there is no other object of positive size, unless nothing of
positive size is selected behind it. -/
def Contiguous (size : α → Option Int) (sel : α → Prop) (l : List α) : Prop :=
  ∀ l₁ x l₂, l = l₁ ++ x :: l₂ → ¬ sel x → (∃ z, size x = some z ∧ 0 < z) →
    (∃ p ∈ l₁, sel p) → ∀ q ∈ l₂, sel q → ∀ z, size q = some z → z ≤ 0

def selectedSize (size : α → Option Int) (sel : α → Bool) (l : List α) : Int :=
  ((l.filter sel).filterMap size).sum

namespace Tiles

variable {sel : α → Bool}

private theorem selectedSize_eq_zero {l : List α} {a b : Int} (h : Tiles addr size l a b)
    (hnn : ∀ p ∈ l, ∀ z, size p = some z → 0 ≤ z)
    (hzero : ∀ q ∈ l, sel q = true → ∀ z, size q = some z → z ≤ 0) :
    selectedSize size sel l = 0 := by
  induction l generalizing a with
  | nil => rfl
  | cons p ps ih =>
    obtain ⟨z, -, hz, hps⟩ := h
    have hrest := ih hps (fun q hq => hnn q (List.mem_cons_of_mem _ hq))
      (fun q hq => hzero q (List.mem_cons_of_mem _ hq))
    rw [selectedSize] at hrest ⊢
    by_cases hs : sel p = true
    · rw [List.filter_cons_of_pos hs, List.filterMap_cons_some hz, List.sum_cons, hrest]
      have h0 := hnn p (List.mem_cons_self ..) z hz
      have h1 := hzero p (List.mem_cons_self ..) hs z hz
      omega
    · rw [List.filter_cons_of_neg hs, hrest]

/-- A selection without gaps from its start on fills the beginning of the interval. -/
private theorem cover_of_packed {l : List α} {a b : Int} (h : Tiles addr size l a b)
    (hnn : ∀ p ∈ l, ∀ z, size p = some z → 0 ≤ z)
    (hpacked : ∀ l₁ x l₂, l = l₁ ++ x :: l₂ → sel x = false →
      (∃ z, size x = some z ∧ 0 < z) → ∀ q ∈ l₂, sel q = true → ∀ z, size q = some z → z ≤ 0)
    (x : Int) : (a ≤ x ∧ x < a + selectedSize size sel l) ↔
      ∃ p ∈ l, sel p = true ∧ InRange addr size p x := by
  induction l generalizing a with
  | nil =>
    simp only [selectedSize, List.filter_nil, List.filterMap_nil, List.sum_nil, List.not_mem_nil,
      false_and, exists_false, iff_false]
    omega
  | cons p ps ih =>
    have hps := h
    obtain ⟨z, ha, hz, hps⟩ := hps
    have hnn' := fun q hq => hnn q (List.mem_cons_of_mem p hq)
    have h0 := hnn p (List.mem_cons_self ..) z hz
    have hrest := ih hps hnn' fun l₁ y l₂ heq =>
      hpacked (p :: l₁) y l₂ (by rw [heq, List.cons_append])
    have hin : InRange addr size p x ↔ a ≤ x ∧ x < a + z := by
      constructor
      · rintro ⟨a', z', ha', hz', hle, hlt⟩
        rw [ha, Option.some.injEq] at ha'
        rw [hz, Option.some.injEq] at hz'
        omega
      · exact fun hx => ⟨a, z, ha, hz, hx.1, hx.2⟩
    simp only [List.exists_mem_cons_iff]
    by_cases hs : sel p = true
    · rw [← hrest, hin, selectedSize, List.filter_cons_of_pos hs, List.filterMap_cons_some hz,
        List.sum_cons, ← selectedSize]
      have hnonneg : 0 ≤ selectedSize size sel ps := by
        rw [selectedSize]
        apply List.sum_nonneg
        intro y hy
        obtain ⟨q, hq, hqy⟩ := List.mem_filterMap.mp hy
        exact hnn' q (List.mem_of_mem_filter hq) y hqy
      simp only [hs, true_and]
      omega
    · rw [selectedSize, List.filter_cons_of_neg hs, ← selectedSize]
      rw [Bool.not_eq_true] at hs
      simp only [hs, Bool.false_eq_true, false_and, false_or]
      by_cases hz0 : z = 0
      · subst hz0
        rw [← hrest, Int.add_zero]
      · -- A gap: nothing selected behind it has a positive size.
        have hzero := hpacked [] p ps rfl hs ⟨z, hz, by omega⟩
        rw [selectedSize_eq_zero hps hnn' hzero]
        constructor
        · intro hx
          omega
        · rintro ⟨q, hq, hqs, a', z', -, hz', hle, hlt⟩
          have := hzero q hq hqs z' hz'
          omega

/-- The selected objects fill an interval that starts at the least of their addresses exactly
when they are contiguous. -/
theorem cover_iff {l : List α} {a b : Int} (h : Tiles addr size l a b) (sel : α → Bool)
    (hnn : ∀ p ∈ l, ∀ z, size p = some z → 0 ≤ z) {m : Int}
    (hmin : ∃ p ∈ l, sel p = true ∧ addr p = some m)
    (hle : ∀ p ∈ l, sel p = true → ∀ x, addr p = some x → m ≤ x) :
    (∀ x, (m ≤ x ∧ x < m + selectedSize size sel l) ↔
      ∃ p ∈ l, sel p = true ∧ InRange addr size p x) ↔ Contiguous size (sel · = true) l := by
  constructor
  · rintro hcover l₁ y l₂ rfl hy ⟨zy, hzy, hpos⟩ ⟨p, hp, hps⟩ q hq hqs z hz
    by_contra hlt
    obtain ⟨c, h₁, zy', hay, hzy', h₂⟩ := append_iff.mp h
    obtain rfl : zy = zy' := Option.some.inj (hzy.symm.trans hzy')
    have hnn₁ := fun p hp => hnn p (List.mem_append_left (y :: l₂) hp)
    have hnn₂ := fun p hp =>
      hnn p (List.mem_append_right l₁ (List.mem_cons_of_mem y hp))
    obtain ⟨ap, zp, hap, hzp, hzp0, hap0, hapc⟩ := h₁.mem_bounds hnn₁ hp
    obtain ⟨aq, zq, haq, hzq, -, haqc, -⟩ := h₂.mem_bounds hnn₂ hq
    obtain rfl : z = zq := Option.some.inj (hz.symm.trans hzq)
    have hmp := hle p (List.mem_append_left _ hp) hps ap hap
    have hqin := (hcover aq).mpr ⟨q, List.mem_append_right _ (List.mem_cons_of_mem _ hq), hqs,
      aq, z, haq, hz, le_rfl, by omega⟩
    -- The first address of the gap lies in the interval but in no selected object.
    obtain ⟨r, hr, hrs, ar, zr, har, hzr, hle', hlt'⟩ := (hcover c).mp (by omega)
    rcases List.mem_append.mp hr with hr | hr
    · obtain ⟨ar', zr', har', hzr', -, -, hend⟩ := h₁.mem_bounds hnn₁ hr
      obtain rfl : ar = ar' := Option.some.inj (har.symm.trans har')
      obtain rfl : zr = zr' := Option.some.inj (hzr.symm.trans hzr')
      omega
    · rcases List.mem_cons.mp hr with rfl | hr
      · exact hy hrs
      · obtain ⟨ar', zr', har', -, -, hstart, -⟩ := h₂.mem_bounds hnn₂ hr
        obtain rfl : ar = ar' := Option.some.inj (har.symm.trans har')
        omega
  · intro hcont
    -- Everything before the first selected object is irrelevant.
    obtain ⟨p, hp, hps, hpm⟩ := hmin
    obtain ⟨f, hf⟩ := Option.isSome_iff_exists.mp
      (List.find?_isSome.mpr ⟨p, hp, hps⟩ : (l.find? sel).isSome)
    obtain ⟨hfs, l₁, l₂, rfl, hnone⟩ := List.find?_eq_some_iff_append.mp hf
    obtain ⟨c, h₁, h₂⟩ := append_iff.mp h
    have hnn₂ := fun p hp => hnn p (List.mem_append_right l₁ hp)
    have hmc : m = c := by
      obtain ⟨-, hfc, -, -⟩ := id h₂
      have h1 := hle f (List.mem_append_right _ (List.mem_cons_self ..)) hfs c hfc
      have hpl : p ∈ f :: l₂ := by
        rcases List.mem_append.mp hp with hp | hp
        · have := hnone p hp
          simp [hps] at this
        · exact hp
      obtain ⟨x, -, hx, -, -, hcx, -⟩ := h₂.mem_bounds hnn₂ hpl
      rw [hpm, Option.some.injEq] at hx
      omega
    subst hmc
    have hsel : selectedSize size sel (l₁ ++ f :: l₂) = selectedSize size sel (f :: l₂) := by
      rw [selectedSize, selectedSize, List.filter_append,
        List.filter_eq_nil_iff.mpr fun q hq => by simpa using hnone q hq, List.nil_append]
    intro x
    rw [hsel, cover_of_packed h₂ hnn₂ ?_ x]
    · constructor
      · rintro ⟨q, hq, hqs, hqx⟩
        exact ⟨q, List.mem_append_right _ hq, hqs, hqx⟩
      · rintro ⟨q, hq, hqs, hqx⟩
        rcases List.mem_append.mp hq with hq | hq
        · have := hnone q hq
          simp [hqs] at this
        · exact ⟨q, hq, hqs, hqx⟩
    · intro k₁ y k₂ heq hy hpos q hq
      have hf1 : f ∈ k₁ := by
        cases k₁ with
        | nil =>
          rw [List.nil_append, List.cons.injEq] at heq
          rw [← heq.1, hfs] at hy
          cases hy
        | cons g k₁ =>
          rw [List.cons_append, List.cons.injEq] at heq
          exact heq.1 ▸ List.mem_cons_self ..
      refine hcont (l₁ ++ k₁) y k₂ ?_ (by simp [hy]) hpos ⟨f, List.mem_append_right _ hf1, hfs⟩ q hq
      rw [heq, List.append_assoc]

/-- With sizes that are not negative, the addresses of the interval are those of the objects. -/
theorem inRange_iff {l : List α} {a b : Int} (h : Tiles addr size l a b)
    (hnn : ∀ p ∈ l, ∀ z, size p = some z → 0 ≤ z) (x : Int) :
    (a ≤ x ∧ x < b) ↔ ∃ p ∈ l, InRange addr size p x := by
  constructor
  · rintro ⟨hlo, hhi⟩
    induction l generalizing a with
    | nil =>
      have hab : a = b := h
      omega
    | cons p ps ih =>
      obtain ⟨z, ha, hz, hps⟩ := h
      by_cases hx : x < a + z
      · exact ⟨p, by simp, a, z, ha, hz, hlo, hx⟩
      · obtain ⟨q, hq, hrange⟩ := ih hps (fun q hq => hnn q (by simp [hq])) (not_lt.mp hx)
        exact ⟨q, by simp [hq], hrange⟩
  · rintro ⟨p, hp, a', z, ha, hz, hlo, hhi⟩
    obtain ⟨a'', z', ha', hz', -, hlower, hupper⟩ := h.mem_bounds hnn hp
    obtain rfl : a'' = a' := Option.some.inj (ha'.symm.trans ha)
    obtain rfl : z' = z := Option.some.inj (hz'.symm.trans hz)
    omega

theorem inRange_unique {l : List α} {a b : Int} (h : Tiles addr size l a b)
    (hnn : ∀ p ∈ l, ∀ z, size p = some z → 0 ≤ z) {p q : α} {x : Int} (hp : p ∈ l) (hq : q ∈ l)
    (hpx : InRange addr size p x)
    (hqx : InRange addr size q x) : p = q := by
  induction l generalizing a with
  | nil => cases hp
  | cons o os ih =>
    obtain ⟨z, ha, hz, hos⟩ := h
    have hnn' : ∀ p ∈ os, ∀ z, size p = some z → 0 ≤ z := fun p hp => hnn p (by simp [hp])
    -- The first object ends where the others start.
    have hfirst {r : α} (hr : r ∈ os) (hrx : InRange addr size r x) (hox : InRange addr size o x) :
      False := by
      have hbeyond := (hos.inRange_iff hnn' x).mpr ⟨r, hr, hrx⟩
      obtain ⟨a', z', ha', hz', -, hhi⟩ := hox
      obtain rfl : a' = a := Option.some.inj (ha'.symm.trans ha)
      obtain rfl : z' = z := Option.some.inj (hz'.symm.trans hz)
      omega
    rcases List.mem_cons.mp hp with rfl | hp'
    · rcases List.mem_cons.mp hq with rfl | hq'
      · rfl
      · exact (hfirst hq' hqx hpx).elim
    · rcases List.mem_cons.mp hq with rfl | hq'
      · exact (hfirst hp' hpx hqx).elim
      · exact ih hos hnn' hp' hq'

end Tiles

end SdkNrf
