import SdkNrf.Framework.BinarySearch
import SdkNrf.Framework.SelectionSort

/-!
# The items of a HID report

The table of the usages that are pressed, as `hid_state.c` keeps it: an array sorted by usage, the
free entries with usage 0 first.
-/

namespace SdkNrf.Desktop.HidState

structure Item where
  usageId : UInt16
  value : Int16
  deriving DecidableEq, Repr

structure Items where
  itemCountMax : Nat
  itemCount : Nat
  item : List Item
  deriving DecidableEq, Repr

/-- `usage_id_compare` compares these. -/
def usageKey (it : Item) : Nat := it.usageId.toNat

def sortByUsageId : List Item → List Item := selectionSort usageKey

def clearItems (items : Items) : Items :=
  { items with itemCount := 0, item := List.replicate items.item.length ⟨0, 0⟩ }

/-- The end of `key_value_set`: the table is sorted when the number of items has changed. -/
def resort (prevItemCount : Nat) (items : Items) : Items :=
  if prevItemCount ≠ items.itemCount then { items with item := sortByUsageId items.item } else items

/-- `key_value_set`: the table and whether an update is needed. -/
def keyValueSet (items : Items) (usageId : UInt16) (value : Int16) : Option (Items × Bool) :=
  if usageId = 0 ∨ items.itemCountMax = 0 ∨ value = 0 then none
  else
    match searchByKey usageKey items.item usageId.toNat with
    | some i =>
      items.item[i]?.bind fun pItem =>
        if pItem.value + value = 0 then
          if items.itemCount = 0 then none
          else some (resort items.itemCount { items with
            itemCount := items.itemCount - 1
            item := items.item.set i ⟨0, pItem.value + value⟩ }, true)
        else some (resort items.itemCount { items with
          item := items.item.set i { pItem with value := pItem.value + value } }, true)
    | none =>
      if value < 0 then some (items, false)
      else if items.itemCountMax ≤ items.itemCount then some (items, false)
      else if items.item.length ≤ items.itemCount then none
      else
        items.item[items.item.length - items.itemCount - 1]?.bind fun free =>
          if free.usageId ≠ 0 then none
          else some (resort items.itemCount { items with
            itemCount := (items.itemCount + 1) % 2 ^ 8
            item := items.item.set (items.item.length - items.itemCount - 1) ⟨usageId, value⟩ }, true)

/-- The number of items is that of the used entries, and these have different usages and positive
values. -/
structure Items.Valid (items : Items) : Prop where
  pos : 0 < items.itemCountMax
  byte : items.itemCountMax < 2 ^ 8
  fits : items.itemCountMax ≤ items.item.length
  count : items.itemCount = items.item.countP (·.usageId ≠ 0)
  le : items.itemCount ≤ items.itemCountMax
  distinct : items.item.Pairwise fun a b => a.usageId = b.usageId → a.usageId = 0
  positive : ∀ it ∈ items.item, it.usageId ≠ 0 → 0 < it.value.toInt

/-- The table is also sorted; the free entries are the ones with the least usage. -/
structure Items.Ordered (items : Items) : Prop extends items.Valid where
  sorted : items.item.Pairwise fun a b => a.usageId.toNat ≤ b.usageId.toNat

def Items.stored (items : Items) (u : UInt16) : Int :=
  ((items.item.find? (·.usageId = u)).map (·.value.toInt)).getD 0

def held (l : List Item) (u : UInt16) : Int :=
  ((l.filter (·.usageId = u)).map (·.value.toInt)).sum

section Tables

variable {l l₁ l₂ : List Item} {u : UInt16}

theorem held_perm (h : l₁.Perm l₂) (u : UInt16) : held l₁ u = held l₂ u :=
  ((h.filter _).map _).sum_eq

theorem held_append_cons (l₁ l₂ : List Item) (it : Item) (u : UInt16) :
    held (l₁ ++ it :: l₂) u =
      held l₁ u + (if it.usageId = u then it.value.toInt else 0) + held l₂ u := by
  by_cases h : it.usageId = u
  · simp [held, h, Int.add_assoc]
  · simp [held, h]

theorem held_of_absent (h : ∀ it ∈ l, it.usageId ≠ u) : held l u = 0 := by
  have hnone : l.filter (·.usageId = u) = [] := by
    rw [List.filter_eq_nil_iff]
    simpa using h
  rw [held, hnone]
  rfl

theorem stored_eq_held {items : Items}
    (h : items.item.Pairwise fun a b => a.usageId = b.usageId → a.usageId = 0) (hu : u ≠ 0) :
    items.stored u = held items.item u := by
  rw [Items.stored]
  revert h
  induction items.item with
  | nil => exact fun _ => rfl
  | cons it l ih =>
    intro h
    rw [List.pairwise_cons] at h
    have hnil : held [] u = 0 := rfl
    rw [show it :: l = [] ++ it :: l from rfl, held_append_cons, List.nil_append, hnil]
    by_cases heq : it.usageId = u
    · have habsent : held l u = 0 := by
        apply held_of_absent
        intro other hother hsame
        exact hu (heq ▸ h.1 other hother (heq.trans hsame.symm))
      simp [heq, habsent]
    · simp [heq, ih h.2]

theorem Items.Valid.mem_unique {items : Items} (h : items.Valid) (hitem : items.item = l₁ ++ it :: l₂)
    (hused : it.usageId ≠ 0) : (∀ other ∈ l₁, other.usageId ≠ it.usageId) ∧
      ∀ other ∈ l₂, other.usageId ≠ it.usageId := by
  have hdistinct := h.distinct
  rw [hitem, List.pairwise_append, List.pairwise_cons] at hdistinct
  obtain ⟨-, ⟨hright, -⟩, hleft⟩ := hdistinct
  constructor
  · intro other hother heq
    exact hused (heq ▸ hleft other hother it (List.mem_cons_self ..) heq)
  · intro other hother heq
    exact hused (hright other hother heq.symm)

end Tables

theorem Items.Valid.sort {items : Items} (h : items.Valid) :
    ({ items with item := sortByUsageId items.item } : Items).Ordered := by
  have hperm : (sortByUsageId items.item).Perm items.item := perm_selectionSort usageKey items.item
  refine { pos := h.pos, byte := h.byte, fits := ?_, count := ?_, le := h.le, distinct := ?_, positive := ?_, sorted := ?_ }
  · rw [hperm.length_eq]
    exact h.fits
  · rw [hperm.countP_eq]
    exact h.count
  · apply (hperm.pairwise_iff _).mpr h.distinct
    intro a b hab heq
    exact heq.trans (hab heq.symm)
  · intro it hit
    exact h.positive it (hperm.mem_iff.mp hit)
  · exact pairwise_selectionSort usageKey items.item

theorem held_sort (l : List Item) (u : UInt16) : held (sortByUsageId l) u = held l u :=
  held_perm (perm_selectionSort usageKey l) u

theorem Items.Valid.resort {items : Items} (h : items.Valid) (prevItemCount : Nat)
    (hne : prevItemCount ≠ items.itemCount) : (resort prevItemCount items).Ordered ∧
      ∀ u, held (HidState.resort prevItemCount items).item u = held items.item u := by
  rw [HidState.resort, if_pos hne]
  exact ⟨h.sort, held_sort items.item⟩

section Search

variable {items : Items} {usageId : UInt16}

theorem search_found {i : Nat}
    (hfind : searchByKey usageKey items.item usageId.toNat = some i) :
    ∃ l₁ it l₂, items.item = l₁ ++ it :: l₂ ∧ l₁.length = i ∧ it.usageId = usageId := by
  obtain ⟨it, hget, hkey⟩ := searchBetween_sound hfind
  obtain ⟨hlt, rfl⟩ := List.getElem?_eq_some_iff.mp hget
  refine ⟨items.item.take i, items.item[i], items.item.drop (i + 1), ?_, ?_, UInt16.toNat_inj.mp hkey⟩
  · rw [List.getElem_cons_drop, List.take_append_drop]
  · exact List.length_take_of_le hlt.le

theorem search_none (h : items.Ordered) (hused : usageId ≠ 0)
    (hfind : searchByKey usageKey items.item usageId.toNat = none) :
    ∀ it ∈ items.item, it.usageId ≠ usageId := by
  intro it hit heq
  obtain ⟨i, hlt, rfl⟩ := List.mem_iff_getElem.mp hit
  have hfound : searchByKey usageKey items.item (usageKey items.item[i]) = some i := by
    apply searchByKey_unique h.sorted (List.getElem?_eq_getElem hlt)
    intro j other hother hkey
    obtain ⟨hj, rfl⟩ := List.getElem?_eq_some_iff.mp hother
    have hsame : items.item[j].usageId = items.item[i].usageId := UInt16.toNat_inj.mp hkey
    have hdistinct := h.distinct
    rw [List.pairwise_iff_getElem] at hdistinct
    rcases Nat.lt_trichotomy j i with hji | rfl | hij
    · exact absurd (hsame.symm.trans (hdistinct j i hj hlt hji hsame)) (heq ▸ hused)
    · rfl
    · exact absurd (hdistinct i j hlt hj hij hsame.symm) (heq ▸ hused)
  rw [usageKey, heq, hfind] at hfound
  cases hfound

theorem free_of_lt (h : items.Ordered) {i : Nat} (hlt : i < items.item.length)
    (hfree : items.itemCount + i < items.item.length) : items.item[i].usageId = 0 := by
  by_contra hused
  have hlast : ∀ it ∈ items.item.drop i, it.usageId ≠ 0 := by
    intro it hit hzero
    obtain ⟨j, hj, rfl⟩ := List.mem_iff_getElem.mp hit
    rw [List.getElem_drop] at hzero
    have hij : i + j < items.item.length := by
      rw [List.length_drop] at hj
      omega
    have hle : items.item[i].usageId.toNat ≤ items.item[i + j].usageId.toNat := by
      rcases Nat.eq_zero_or_pos j with rfl | hpos
      · exact Nat.le_refl _
      · exact List.pairwise_iff_getElem.mp h.sorted i (i + j) hlt hij (by omega)
    rw [hzero] at hle
    exact hused (UInt16.toNat_inj.mp (Nat.le_zero.mp hle))
  have hcount : (items.item.drop i).countP (·.usageId ≠ 0) = items.item.length - i := by
    rw [← List.length_drop, List.countP_eq_length]
    simpa using hlast
  have hsplit := congrArg (List.countP (fun it : Item => it.usageId ≠ 0))
    (List.take_append_drop i items.item)
  rw [List.countP_append, hcount, ← h.count] at hsplit
  omega

end Search

structure KeyCall where
  usageId : UInt16
  pressed : Bool
  used : usageId ≠ 0

def KeyCall.value (c : KeyCall) : Int16 := if c.pressed then 1 else -1

theorem KeyCall.value_ne_zero (c : KeyCall) : c.value ≠ 0 := by
  rw [KeyCall.value]
  split <;> decide

theorem KeyCall.toInt_value (c : KeyCall) : c.value.toInt = if c.pressed then 1 else -1 := by
  rw [KeyCall.value]
  split <;> rfl

def Changes (items items' : Items) (c : KeyCall) (accepted : Bool) : Prop :=
  ∀ u ≠ 0, held items'.item u =
    held items.item u + if accepted ∧ c.usageId = u then c.value.toInt else 0

section Step

variable {items : Items} {l₁ l₂ : List Item} {it : Item}

theorem Items.Valid.replace (h : items.Valid) (hitem : items.item = l₁ ++ it :: l₂) {new : Item}
    (habsent : new.usageId ≠ 0 → (∀ other ∈ l₁, other.usageId ≠ new.usageId) ∧
      ∀ other ∈ l₂, other.usageId ≠ new.usageId)
    (hpositive : new.usageId ≠ 0 → 0 < new.value.toInt) {itemCount : Nat}
    (hcount : itemCount + (if it.usageId ≠ 0 then 1 else 0) =
      items.itemCount + if new.usageId ≠ 0 then 1 else 0)
    (hle : itemCount ≤ items.itemCountMax) :
    ({ items with itemCount := itemCount, item := l₁ ++ new :: l₂ } : Items).Valid := by
  have hdistinct := h.distinct
  have hfits := h.fits
  have hcounted := h.count
  rw [hitem] at hdistinct hfits hcounted
  refine { pos := h.pos, byte := h.byte, fits := ?_, count := ?_, le := hle, distinct := ?_, positive := ?_ }
  · simpa using hfits
  · simp only [List.countP_append, List.countP_cons, decide_eq_true_eq] at hcounted ⊢
    omega
  · rw [List.pairwise_append, List.pairwise_cons] at hdistinct ⊢
    obtain ⟨hleft, ⟨hmiddle, hright⟩, hcross⟩ := hdistinct
    refine ⟨hleft, ⟨fun b hb heq => ?_, hright⟩, fun a ha b hb heq => ?_⟩
    · by_contra hused
      exact (habsent hused).2 b hb heq.symm
    · rcases List.mem_cons.mp hb with rfl | hb
      · by_contra hused
        exact (habsent (heq ▸ hused)).1 a ha heq
      · exact hcross a ha b (List.mem_cons_of_mem _ hb) heq
  · intro other hother hused
    rcases List.mem_append.mp hother with hl | hr
    · exact h.positive other (by rw [hitem]; simp [hl]) hused
    · rcases List.mem_cons.mp hr with rfl | hr
      · exact hpositive hused
      · exact h.positive other (by rw [hitem]; simp [hr]) hused

theorem toInt_add_of_lt {x v : Int16} (hlow : -2 ^ 15 ≤ x.toInt + v.toInt)
    (hhigh : x.toInt + v.toInt < 2 ^ 15) : (x + v).toInt = x.toInt + v.toInt := by
  rw [Int16.toInt_add]
  exact Int.bmod_eq_of_le (by omega) (by omega)

theorem keyValueSet_found (h : items.Ordered) (c : KeyCall)
    (hitem : items.item = l₁ ++ it :: l₂) (husage : it.usageId = c.usageId)
    (hfind : searchByKey usageKey items.item c.usageId.toNat = some l₁.length)
    (hbound : c.pressed = true → items.stored c.usageId < 2 ^ 15 - 1) :
    ∃ items', keyValueSet items c.usageId c.value = some (items', true) ∧ items'.Ordered ∧
      Changes items items' c true := by
  have hused : it.usageId ≠ 0 := husage ▸ c.used
  obtain ⟨hleft, hright⟩ := h.toValid.mem_unique hitem hused
  have hheld : held items.item c.usageId = it.value.toInt := by
    rw [hitem, held_append_cons, if_pos husage, held_of_absent (husage ▸ hleft),
      held_of_absent (husage ▸ hright)]
    omega
  have hpos := h.positive it (by rw [hitem]; simp) hused
  have hsum : (it.value + c.value).toInt = it.value.toInt + c.value.toInt := by
    rw [stored_eq_held h.distinct c.used, hheld] at hbound
    have hmax := it.value.toInt_lt
    have hvalue := c.toInt_value
    apply toInt_add_of_lt
    · split at hvalue <;> omega
    · split at hvalue
      next hpressed =>
        have := hbound hpressed
        omega
      next => omega
  have hget : items.item[l₁.length]? = some it := by simp [hitem]
  have hset (new : Item) : items.item.set l₁.length new = l₁ ++ new :: l₂ := by simp [hitem]
  have hchange {new : Item} (hnew : ∀ u ≠ 0, (if new.usageId = u then new.value.toInt else 0) =
      if c.usageId = u then it.value.toInt + c.value.toInt else 0) (u : UInt16) (hu : u ≠ 0) :
      held (l₁ ++ new :: l₂) u =
        held items.item u + if true = true ∧ c.usageId = u then c.value.toInt else 0 := by
    rw [hitem, held_append_cons, held_append_cons, hnew u hu, husage]
    by_cases heq : c.usageId = u
    · simp only [heq, if_true, and_self]
      omega
    · simp [heq]
  rw [keyValueSet, if_neg (by simp [c.used, h.pos.ne', c.value_ne_zero]), hfind]
  simp only [hget, Option.bind_some, hset]
  have hcount : items.itemCount ≠ 0 := by
    rw [h.count, hitem]
    simp [List.countP_append, hused]
  have hle := h.le
  split
  next hzero =>
    have hvalid : ({ items with
        itemCount := items.itemCount - 1
        item := l₁ ++ ⟨0, it.value + c.value⟩ :: l₂ } : Items).Valid := by
      apply h.toValid.replace hitem (by simp) (by simp)
      · simp only [ne_eq, hused, not_false_eq_true, if_true, not_true_eq_false, if_false]
        omega
      · omega
    obtain ⟨hordered, hheld'⟩ := hvalid.resort items.itemCount (by simp only; omega)
    refine ⟨_, rfl, hordered, fun u hu => (hheld' u).trans (hchange ?_ u hu)⟩
    intro w hw
    rw [hzero] at hsum
    rw [if_neg (Ne.symm hw), ← hsum]
    split <;> rfl
  next hne =>
    refine ⟨_, rfl, ?_, ?_⟩
    · rw [HidState.resort, if_neg (by simp)]
      have hvalid : ({ items with item := l₁ ++
        { it with value := it.value + c.value } :: l₂ } : Items).Valid := by
        refine h.toValid.replace hitem ?_ ?_ rfl hle
        · exact fun _ => ⟨hleft, hright⟩
        · intro _
          have hvalue := c.toInt_value
          have hnonzero : it.value.toInt + c.value.toInt ≠ 0 := by
            rw [← hsum]
            exact fun h0 => hne (Int16.toInt_inj.mp h0)
          simp only [hsum]
          split at hvalue <;> omega
      refine { hvalid with sorted := ?_ }
      have hsorted := h.sorted
      rw [hitem] at hsorted
      simpa [List.pairwise_append] using hsorted
    · rw [HidState.resort, if_neg (by simp)]
      refine hchange ?_
      intro u _
      simp only [husage, hsum]

theorem keyValueSet_absent (h : items.Ordered) (c : KeyCall)
    (hfind : searchByKey usageKey items.item c.usageId.toNat = none) :
    ∃ items' accepted, keyValueSet items c.usageId c.value = some (items', accepted) ∧
      items'.Ordered ∧ Changes items items' c accepted := by
  have habsent := search_none h c.used hfind
  have hsame : Changes items items c false := fun u _ => by simp
  rw [keyValueSet, if_neg (by simp [c.used, h.pos.ne', c.value_ne_zero]), hfind]
  simp only
  split
  · exact ⟨items, false, rfl, h, hsame⟩
  next hnonneg =>
    have hpressed : c.pressed = true := by
      by_contra hreleased
      apply hnonneg
      rw [KeyCall.value, if_neg hreleased]
      decide
    split
    · exact ⟨items, false, rfl, h, hsame⟩
    next hfull =>
      have hfits := h.fits
      have hbyte := h.byte
      rw [if_neg (by omega)]
      have hlt : items.item.length - items.itemCount - 1 < items.item.length := by omega
      have hfree := free_of_lt h hlt (by omega)
      rw [List.getElem?_eq_getElem hlt, Option.bind_some, if_neg (by simpa using hfree)]
      generalize items.item.length - items.itemCount - 1 = i at *
      have hitem : items.item = items.item.take i ++ items.item[i] :: items.item.drop (i + 1) := by
        rw [List.getElem_cons_drop, List.take_append_drop]
      have hset : items.item.set i ⟨c.usageId, c.value⟩ =
          items.item.take i ++ ⟨c.usageId, c.value⟩ :: items.item.drop (i + 1) :=
        List.set_eq_take_append_cons_drop .. |>.trans (if_pos hlt)
      have hone : c.value.toInt = 1 := by rw [c.toInt_value, if_pos hpressed]
      have hvalid : ({ items with
          itemCount := (items.itemCount + 1) % 2 ^ 8
          item := items.item.take i ++ ⟨c.usageId, c.value⟩ :: items.item.drop (i + 1) } :
          Items).Valid := by
        apply h.toValid.replace hitem
        · intro _
          exact ⟨fun other hother => habsent other (List.mem_of_mem_take hother),
            fun other hother => habsent other (List.mem_of_mem_drop hother)⟩
        · intro _
          rw [hone]
          decide
        · simp only [hfree, ne_eq, not_true_eq_false, if_false, c.used, not_false_eq_true, if_true]
          omega
        · omega
      obtain ⟨hordered, hheld⟩ := hvalid.resort items.itemCount (by simp only; omega)
      rw [hset]
      refine ⟨_, _, rfl, hordered, fun u hu => (hheld u).trans ?_⟩
      have hbefore : held items.item u = held _ u := congrArg (held · u) hitem
      rw [held_append_cons, if_neg (by rw [hfree]; exact hu.symm)] at hbefore
      rw [held_append_cons, hbefore]
      simp only [true_and]
      omega

theorem keyValueSet_spec (h : items.Ordered) (c : KeyCall)
    (hbound : c.pressed = true → items.stored c.usageId < 2 ^ 15 - 1) :
    ∃ items' accepted, keyValueSet items c.usageId c.value = some (items', accepted) ∧
      items'.Ordered ∧ Changes items items' c accepted := by
  cases hfind : searchByKey usageKey items.item c.usageId.toNat with
  | none => exact keyValueSet_absent h c hfind
  | some i =>
    obtain ⟨l₁, it, l₂, hitem, rfl, husage⟩ := search_found hfind
    obtain ⟨items', hset⟩ := keyValueSet_found h c hitem husage hfind hbound
    exact ⟨items', true, hset⟩

end Step

/-- Calls of `key_value_set` in a row: the table and the calls that were accepted. -/
def keyValueRun : Items → List KeyCall → Option (Items × List KeyCall)
  | items, [] => some (items, [])
  | items, c :: calls =>
    (keyValueSet items c.usageId c.value).bind fun set =>
      (keyValueRun set.1 calls).map fun run => (run.1, if set.2 then c :: run.2 else run.2)

def acceptedSum (calls : List KeyCall) (u : UInt16) : Int :=
  ((calls.filter (·.usageId = u)).map (·.value.toInt)).sum

def emptyTable (itemCountMax length : Nat) : Items := ⟨itemCountMax, 0, List.replicate length ⟨0, 0⟩⟩

/-- The run ends without a failed assertion, in an ordered table that holds the sums of what was
accepted. -/
def RunRight (items : Items) (calls : List KeyCall) : Prop :=
  ∃ items' accepted, keyValueRun items calls = some (items', accepted) ∧ items'.Ordered ∧
    ∀ u ≠ 0, items'.stored u = acceptedSum accepted u

/-- No usage is pressed while its value is the greatest one of 16 bits. -/
def CountsFit : Items → List KeyCall → Prop
  | _, [] => True
  | items, c :: calls => (c.pressed = true → items.stored c.usageId < 2 ^ 15 - 1) ∧
      ∀ set, keyValueSet items c.usageId c.value = some set → CountsFit set.1 calls

theorem acceptedSum_cons (c : KeyCall) (calls : List KeyCall) (u : UInt16) :
    acceptedSum (c :: calls) u = (if c.usageId = u then c.value.toInt else 0) + acceptedSum calls u := by
  by_cases h : c.usageId = u
  · simp [acceptedSum, h]
  · simp [acceptedSum, h]

theorem keyValueRun_spec {items : Items} (h : items.Ordered) {calls : List KeyCall}
    (hfit : CountsFit items calls) : ∃ items' accepted, keyValueRun items calls = some (items', accepted) ∧
      items'.Ordered ∧ ∀ u ≠ 0, held items'.item u = held items.item u + acceptedSum accepted u := by
  induction calls generalizing items with
  | nil => exact ⟨items, [], rfl, h, fun u _ => (Int.add_zero _).symm⟩
  | cons c calls ih =>
    obtain ⟨hbound, hlater⟩ := hfit
    obtain ⟨items₁, accepted, hset, hordered, hchange⟩ := keyValueSet_spec h c hbound
    obtain ⟨items₂, rest, hrun, hordered₂, hrest⟩ := ih hordered (hlater _ hset)
    refine ⟨items₂, if accepted then c :: rest else rest, ?_, hordered₂, fun u hu => ?_⟩
    · rw [keyValueRun, hset, Option.bind_some, hrun]
      rfl
    · rw [hrest u hu, hchange u hu]
      cases accepted
      · simp
      · rw [if_pos rfl, acceptedSum_cons]
        simp only [true_and]
        omega

theorem emptyTable_ordered {itemCountMax length : Nat} (hpos : 0 < itemCountMax)
    (hbyte : itemCountMax < 2 ^ 8) (hfits : itemCountMax ≤ length) :
    (emptyTable itemCountMax length).Ordered := by
  refine { pos := hpos, byte := hbyte, fits := ?_, count := ?_, le := Nat.zero_le _, distinct := ?_, positive := ?_, sorted := ?_ }
  · simpa [emptyTable] using hfits
  · simp [emptyTable, List.countP_replicate]
  · exact List.pairwise_replicate.mpr (Or.inr fun _ => rfl)
  · intro it hit hused
    exact absurd (congrArg Item.usageId (List.eq_of_mem_replicate hit)) hused
  · exact List.pairwise_replicate.mpr (Or.inr (Nat.le_refl _))

/-- Every run from an empty table is right as long as no count exceeds 16 bits. -/
theorem keyValueRun_right {itemCountMax length : Nat} (hpos : 0 < itemCountMax)
    (hbyte : itemCountMax < 2 ^ 8) (hfits : itemCountMax ≤ length) {calls : List KeyCall}
    (hfit : CountsFit (emptyTable itemCountMax length) calls) :
    RunRight (emptyTable itemCountMax length) calls := by
  obtain ⟨items, accepted, hrun, hordered, hheld⟩ :=
    keyValueRun_spec (emptyTable_ordered hpos hbyte hfits) hfit
  refine ⟨items, accepted, hrun, hordered, fun u hu => ?_⟩
  have hempty : held (emptyTable itemCountMax length).item u = 0 := by
    apply held_of_absent
    intro it hit heq
    exact hu ((congrArg Item.usageId (List.eq_of_mem_replicate hit)).symm.trans heq).symm
  rw [stored_eq_held hordered.distinct hu, hheld u hu, hempty, Int.zero_add]

theorem press_used : (4 : UInt16) ≠ 0 := by decide

def press : KeyCall := ⟨4, true, press_used⟩

theorem keyValueRun_right_press : RunRight (emptyTable 1 1) [press] :=
  keyValueRun_right (by decide) (by decide) (by decide) ⟨fun _ => by decide, fun _ _ => trivial⟩

def pressedTable (n : Nat) : Items := ⟨1, 1, [⟨4, Int16.ofNat n⟩]⟩

theorem keyValueSet_pressedTable {n : Nat} (h : n + 1 < 2 ^ 16) :
    keyValueSet (pressedTable n) press.usageId press.value = some (pressedTable (n + 1), true) := by
  have hsum : Int16.ofNat n + 1 = Int16.ofNat (n + 1) := by
    apply Int16.toBitVec_inj.mp
    simp
  have hne : Int16.ofNat (n + 1) ≠ 0 := by
    intro h0
    have hbits := congrArg (fun x : Int16 => x.toBitVec.toNat) h0
    simp at hbits
    omega
  have hfind : searchByKey usageKey (pressedTable n).item (4 : UInt16).toNat = some 0 := by
    simp [pressedTable, searchByKey, searchBetween, usageKey]
  have hget : (pressedTable n).item[0]? = some ⟨4, Int16.ofNat n⟩ := rfl
  change keyValueSet (pressedTable n) 4 1 = _
  rw [keyValueSet, if_neg (by simp [pressedTable]), hfind]
  simp only [hget, Option.bind_some]
  rw [hsum, if_neg hne]
  rfl

theorem keyValueRun_pressedTable (k : Nat) {n : Nat} (h : n + k < 2 ^ 16) :
    keyValueRun (pressedTable n) (List.replicate k press) =
      some (pressedTable (n + k), List.replicate k press) := by
  induction k generalizing n with
  | zero => rfl
  | succ k ih =>
    rw [List.replicate_succ, keyValueRun, keyValueSet_pressedTable (by omega), Option.bind_some,
      ih (by omega), Nat.add_right_comm]
    rfl

/-- The count of 2 ^ 15 presses is negative. -/
theorem presses_wrong : ¬ RunRight (emptyTable 1 1) (List.replicate (2 ^ 15) press) := by
  rintro ⟨items, accepted, hrun, hordered, -⟩
  have hfirst : keyValueSet (emptyTable 1 1) press.usageId press.value = some (pressedTable 1, true) := by
    decide
  rw [show 2 ^ 15 = (2 ^ 15 - 1) + 1 from rfl, List.replicate_succ, keyValueRun, hfirst,
    Option.bind_some, keyValueRun_pressedTable _ (by decide), Option.map_some, Option.some.injEq,
    Prod.mk.injEq] at hrun
  rw [← hrun.1] at hordered
  have hpositive := hordered.positive ⟨4, Int16.ofNat (1 + (2 ^ 15 - 1))⟩ (List.mem_singleton.mpr rfl)
    (by decide)
  exact absurd hpositive (by decide)

end SdkNrf.Desktop.HidState
