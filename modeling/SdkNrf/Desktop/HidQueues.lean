import SdkNrf.Desktop.HidReports

/-!
# Report data

What the operations on the data of one report do to its items and to its queued events.
-/

namespace SdkNrf.Desktop.HidReports

open SdkNrf.Desktop.HidState

section Queues

variable {eventq : Eventq} {nodes : EventNodes} {node : UInt32 × ItemEvent}

def eventsOf (eventq : Eventq) : EventNodes :=
  eventq.root.root.filterMap fun a => (eventq.root.memory a).map fun event => (a, event)

theorem eventsOf_eq (h : eventq.Queues nodes) : eventsOf eventq = nodes := by
  have hlive := h.live
  rw [eventsOf, h.root]
  clear h
  induction nodes with
  | nil => rfl
  | cons node nodes ih =>
    rw [List.forall_mem_cons] at hlive
    rw [List.map_cons, List.filterMap_cons, hlive.1, Option.map_some, ih hlive.2]

theorem queues_nil {memory : UInt32 → Option ItemEvent} : (⟨⟨[], memory⟩, 0⟩ : Eventq).Queues [] where
  root := rfl
  distinct := List.nodup_nil
  live := by simp
  len := rfl
  nonnull := by simp
  button := by simp

theorem Queues.tail (h : eventq.Queues (node :: nodes)) {root : NodeList UInt32 ItemEvent}
    (hroot : root.Holds nodes) : (⟨root, eventq.len - 1⟩ : Eventq).Queues nodes where
  toHolds := hroot
  len := by simp [h.len]
  nonnull := fun other hother => h.nonnull other (List.mem_cons_of_mem _ hother)
  button := fun other hother => h.button other (List.mem_cons_of_mem _ hother)

theorem resetFrom_spec {root : NodeList UInt32 ItemEvent} (h : root.Holds nodes) {fuel : Nat}
    (hfuel : nodes.length < fuel) : ∃ root', resetFrom fuel root root.root.head? = some root' := by
  induction nodes generalizing root fuel with
  | nil =>
    obtain ⟨fuel, rfl⟩ := Nat.exists_eq_add_one_of_ne_zero (Nat.ne_zero_of_lt hfuel)
    simp [h.root, resetFrom]
  | cons node nodes ih =>
    obtain ⟨fuel, rfl⟩ := Nat.exists_eq_add_one_of_ne_zero (Nat.ne_zero_of_lt hfuel)
    obtain ⟨root', hpop, hholds, -⟩ := h.pop
    have hnext : root.peekNext node.1 = some (nodes.head?.map Prod.fst) :=
      @NodeList.Holds.peekNext_eq _ _ _ _ [] nodes node h
    have hhead : nodes.head?.map Prod.fst = root'.root.head? := by rw [hholds.root, List.head?_map]
    rw [h.root, List.map_cons, List.head?_cons, resetFrom, hnext, Option.bind_some, hpop, Option.bind_some,
      hhead]
    apply ih hholds
    simpa using hfuel

theorem eventqReset_spec (h : eventq.Queues nodes) :
    ∃ eventq', eventqReset eventq = some eventq' ∧ eventq'.Queues [] := by
  have hfuel : nodes.length < fuelOf eventq.root := by
    rw [fuelOf_eq h.toHolds]
    omega
  obtain ⟨root, hroot⟩ := resetFrom_spec h.toHolds hfuel
  exact ⟨_, by rw [eventqReset, hroot, Option.map_some], queues_nil⟩

theorem eventqIsEmpty_spec (h : eventq.Queues nodes) : eventqIsEmpty eventq = some nodes.isEmpty := by
  cases nodes <;> simp [eventqIsEmpty, h.root, h.len]

theorem eventqAppend_spec (h : eventq.Queues nodes) {a : UInt32} (hnonnull : a ≠ 0)
    (hfresh : ∀ other ∈ nodes, other.1 ≠ a) {usageId : UInt16} {value : Int16}
    (hvalue : value = 1 ∨ value = -1) (now : UInt32) :
    (eventqAppend eventq (some a) usageId value now).Queues (nodes ++ [(a, ⟨⟨usageId, value⟩, now⟩)]) where
  root := by simp [eventqAppend, h.root]
  distinct := by
    have hnew : a ∉ nodes.map Prod.fst := by
      intro hmem
      obtain ⟨other, hother, heq⟩ := List.mem_map.mp hmem
      exact hfresh other hother heq
    rw [List.map_append, List.nodup_append]
    exact ⟨h.distinct, by simp, by rintro x hx y hy rfl; simp at hy; exact hnew (hy ▸ hx)⟩
  live := by
    intro other hother
    rcases List.mem_append.mp hother with hold | hnew
    · simp only [eventqAppend, Function.update_of_ne (hfresh other hold)]
      exact h.live other hold
    · rw [List.mem_singleton.mp hnew]
      simp [eventqAppend]
  len := by simp [eventqAppend, h.len]
  nonnull := by
    intro other hother
    rcases List.mem_append.mp hother with hold | hnew
    · exact h.nonnull other hold
    · rw [List.mem_singleton.mp hnew]
      exact hnonnull
  button := by
    intro other hother
    rcases List.mem_append.mp hother with hold | hnew
    · exact h.button other hold
    · rw [List.mem_singleton.mp hnew]
      exact hvalue

end Queues

section Values

variable {items items' : Items} {nodes : EventNodes} {node : UInt32 × ItemEvent} {u : UInt16}

theorem usageSum_cons (node : UInt32 × ItemEvent) (nodes : EventNodes) (u : UInt16) :
    usageSum (node :: nodes) u =
      (if node.2.item.usageId = u then node.2.item.value.toInt else 0) + usageSum nodes u := by
  by_cases h : node.2.item.usageId = u <;> simp [usageSum, held, h]

theorem usageSum_append (nodes more : EventNodes) (u : UInt16) :
    usageSum (nodes ++ more) u = usageSum nodes u + usageSum more u := by
  simp [usageSum, held]

@[simp] theorem usageSum_nil (u : UInt16) : usageSum [] u = 0 := rfl

def presses (nodes : EventNodes) (u : UInt16) : Nat :=
  nodes.countP fun node => node.2.item.usageId = u ∧ node.2.item.value = 1

def Fits (items : Items) (nodes : EventNodes) : Prop :=
  ∀ u ≠ 0, held items.item u + presses nodes u < 2 ^ 15

/-- The value of a usage with its queued events is at most the number of keys that are pressed, and so is
the sum of the last ones of the events. -/
def Owned (pressed : UInt16 → Nat) (items : Items) (nodes : EventNodes) : Prop :=
  ∀ u ≠ 0, held items.item u + usageSum nodes u ≤ pressed u ∧ ∀ k, usageSum (nodes.drop k) u ≤ pressed u

theorem held_nonneg (h : items.Valid) (hu : u ≠ 0) : 0 ≤ held items.item u := by
  apply List.sum_nonneg
  intro v hv
  obtain ⟨it, hit, rfl⟩ := List.mem_map.mp hv
  obtain ⟨hmem, husage⟩ := List.mem_filter.mp hit
  exact (h.positive it hmem (by simpa [of_decide_eq_true husage] using hu)).le

/-- What `key_value_set` does to the values: a key up of a usage that is not in the table has no effect. -/
theorem keyValueSet_held (h : items.Ordered) (c : KeyCall)
    (hbound : c.pressed = true → held items.item c.usageId < 2 ^ 15 - 1) :
    ∃ items' accepted, keyValueSet items c.usageId c.value = some (items', accepted) ∧ items'.Ordered ∧
      (∀ u ≠ 0, u ≠ c.usageId → held items'.item u = held items.item u) ∧
      held items'.item c.usageId ≤ max 0 (held items.item c.usageId + c.value.toInt) := by
  have hnonneg := held_nonneg h.toValid c.used
  have hvalue := c.toInt_value
  rw [← stored_eq_held h.distinct c.used] at hbound
  obtain ⟨items', accepted, hset, hordered, hchange⟩ := keyValueSet_spec h c hbound
  refine ⟨items', accepted, hset, hordered, fun u hu hne => ?_, ?_⟩
  · rw [hchange u hu, if_neg fun hand => hne hand.2.symm, Int.add_zero]
  · have hsame := hchange c.usageId c.used
    cases accepted with
    | true =>
      rw [if_pos ⟨rfl, rfl⟩] at hsame
      omega
    | false =>
      rw [if_neg (by simp), Int.add_zero] at hsame
      cases hfind : searchByKey usageKey items.item c.usageId.toNat with
      | none =>
        have hzero : held items.item c.usageId = 0 := held_of_absent (search_none h c.used hfind)
        omega
      | some i =>
        obtain ⟨l₁, it, l₂, hitem, rfl, husage⟩ := search_found hfind
        obtain ⟨items'', hfound, -⟩ := keyValueSet_found h c hitem husage hfind hbound
        rw [hfound] at hset
        simp at hset

end Values

section Content

variable {cfg : Config} {timely : Prop} {pressed pressed' : UInt16 → Nat} {d : ReportId} {items : Items}
  {nodes : EventNodes} {node : UInt32 × ItemEvent} {rd : ReportData}

def Mapped (cfg : Config) (d : ReportId) (u : UInt16) : Prop :=
  ∃ map ∈ cfg.hidKeymap, map.reportId = d ∧ map.usageId = u

def IsKey (cfg : Config) (d : ReportId) (it : Item) : Prop :=
  it.usageId ≠ 0 ∧ Mapped cfg d it.usageId ∧ (it.value = 1 ∨ it.value = -1)

structure Kept (cfg : Config) (timely : Prop) (pressed : UInt16 → Nat) (d : ReportId) (items : Items)
    (nodes : EventNodes) : Prop where
  ordered : items.Ordered
  mapped : ∀ u ≠ 0, held items.item u ≠ 0 → Mapped cfg d u
  queued : ∀ node ∈ nodes, IsKey cfg d node.2.item
  fits : Fits items nodes
  owned : timely → Owned pressed items nodes
  room : nodes.length ≤ cfg.queueSize

/-- The call of `key_value_set` for a key. -/
theorem IsKey.call {it : Item} (h : IsKey cfg d it) :
    ∃ c : KeyCall, c.usageId = it.usageId ∧ c.value = it.value ∧ (c.pressed = true ↔ it.value = 1) := by
  rcases h.2.2 with hv | hv
  · exact ⟨⟨it.usageId, true, h.1⟩, rfl, hv.symm, by simp [hv]⟩
  · exact ⟨⟨it.usageId, false, h.1⟩, rfl, hv.symm, by simp [hv]⟩

theorem presses_cons (node : UInt32 × ItemEvent) (nodes : EventNodes) (u : UInt16) :
    presses (node :: nodes) u =
      presses nodes u + if node.2.item.usageId = u ∧ node.2.item.value = 1 then 1 else 0 := by
  simp [presses, List.countP_cons]

theorem Kept.pop (h : Kept cfg timely pressed d items (node :: nodes)) :
    ∃ items' accepted, keyValueSet items node.2.item.usageId node.2.item.value = some (items', accepted) ∧
      Kept cfg timely pressed d items' nodes := by
  obtain ⟨hkey, hqueued⟩ := List.forall_mem_cons.mp h.queued
  obtain ⟨c, husage, hvalue, hpress⟩ := hkey.call
  have hone := c.toInt_value
  have hfit (u : UInt16) (hu : u ≠ 0) := h.fits u hu
  simp only [presses_cons, ← husage, ← hvalue] at hfit
  rw [← hvalue] at hpress
  obtain ⟨items', accepted, hset, hordered, hother, hsame⟩ := keyValueSet_held h.ordered c (by
    intro hp
    have := hfit c.usageId c.used
    rw [if_pos ⟨rfl, hpress.mp hp⟩] at this
    omega)
  have hnonneg (u : UInt16) (hu : u ≠ 0) := held_nonneg h.ordered.toValid hu
  refine ⟨items', accepted, by rw [← husage, ← hvalue, hset], hordered, fun u hu hne => ?_, hqueued,
    fun u hu => ?_, fun ht u hu => ?_, (Nat.le_succ _).trans h.room⟩
  · by_cases heq : u = c.usageId
    · rw [heq, husage]
      exact hkey.2.1
    · rw [hother u hu heq] at hne
      exact h.mapped u hu hne
  · have hu' := hfit u hu
    have hn := hnonneg u hu
    by_cases heq : u = c.usageId
    · subst heq
      by_cases hp : c.pressed = true
      · rw [if_pos hp] at hone
        rw [if_pos ⟨rfl, hpress.mp hp⟩] at hu'
        omega
      · rw [if_neg hp] at hone
        omega
    · rw [hother u hu heq]
      omega
  · obtain ⟨hsum, hsuffix⟩ := h.owned ht u hu
    refine ⟨?_, fun k => hsuffix (k + 1)⟩
    have hzero := hsuffix 1
    rw [List.drop_one, List.tail_cons] at hzero
    rw [usageSum_cons, ← husage, ← hvalue] at hsum
    by_cases heq : u = c.usageId
    · subst heq
      rw [if_pos rfl] at hsum
      omega
    · rw [if_neg (Ne.symm heq)] at hsum
      rw [hother u hu heq]
      omega

theorem clearItems_ordered (h : items.Ordered) : (clearItems items).Ordered :=
  emptyTable_ordered h.pos h.byte h.fits

theorem held_clearItems (items : Items) {u : UInt16} (hu : u ≠ 0) : held (clearItems items).item u = 0 := by
  apply held_of_absent
  intro it hit heq
  rw [List.eq_of_mem_replicate hit] at heq
  exact hu heq.symm

theorem Kept.clear (h : Kept cfg timely pressed d items nodes) :
    Kept cfg timely pressed d (clearItems items) [] where
  ordered := clearItems_ordered h.ordered
  mapped := fun u hu hne => absurd (held_clearItems items hu) hne
  queued := by simp
  fits := fun u hu => by simp [held_clearItems items hu, presses]
  owned := fun _ u hu => by simp [held_clearItems items hu]
  room := Nat.zero_le _

theorem Kept.drop (h : Kept cfg timely pressed d items nodes) (p : Nat)
    (hempty : timely → p = 0 ∨ ∀ u ≠ 0, held items.item u = 0) :
    Kept cfg timely pressed d items (nodes.drop p) where
  ordered := h.ordered
  mapped := h.mapped
  queued := fun node hnode => h.queued node (List.mem_of_mem_drop hnode)
  fits := fun u hu => by
    have hle : presses (nodes.drop p) u ≤ presses nodes u :=
      (List.drop_sublist p nodes).countP_le
    have := h.fits u hu
    omega
  owned := fun ht u hu => by
    obtain ⟨hsum, hsuffix⟩ := h.owned ht u hu
    refine ⟨?_, fun k => by rw [List.drop_drop]; exact hsuffix (p + k)⟩
    rcases hempty ht with rfl | hzero
    · exact hsum
    · rw [hzero u hu, Int.zero_add]
      exact hsuffix p
  room := by
    rw [List.length_drop]
    exact (Nat.sub_le _ _).trans h.room

def Counts (pressed pressed' : UInt16 → Nat) (it : Item) : Prop :=
  ∀ u, (pressed' u : Int) = pressed u + if it.usageId = u then it.value.toInt else 0

theorem Kept.set (h : Kept cfg timely pressed d items []) {it : Item} (hkey : IsKey cfg d it)
    (hcounts : Counts pressed pressed' it)
    (hfit : it.value = 1 → held items.item it.usageId < 2 ^ 15 - 1) :
    ∃ items' accepted, keyValueSet items it.usageId it.value = some (items', accepted) ∧
      Kept cfg timely pressed' d items' [] := by
  obtain ⟨c, husage, hvalue, hpress⟩ := hkey.call
  have hone := c.toInt_value
  rw [← hvalue] at hpress
  simp only [Counts, ← husage, ← hvalue] at hfit hcounts ⊢
  obtain ⟨items', accepted, hset, hordered, hother, hsame⟩ :=
    keyValueSet_held h.ordered c fun hp => hfit (hpress.mp hp)
  have hnonneg := held_nonneg h.ordered.toValid c.used
  refine ⟨items', accepted, hset, hordered, fun u hu hne => ?_, by simp, fun u hu => ?_,
    fun ht u hu => ?_, Nat.zero_le _⟩
  · by_cases heq : u = c.usageId
    · rw [heq, husage]
      exact hkey.2.1
    · rw [hother u hu heq] at hne
      exact h.mapped u hu hne
  · have hu' := h.fits u hu
    simp only [presses, List.countP_nil] at hu' ⊢
    by_cases heq : u = c.usageId
    · subst heq
      by_cases hp : c.pressed = true
      · have := hfit (hpress.mp hp)
        rw [if_pos hp] at hone
        omega
      · rw [if_neg hp] at hone
        omega
    · rw [hother u hu heq]
      exact hu'
  · obtain ⟨hsum, -⟩ := h.owned ht u hu
    have hcount := hcounts u
    simp only [usageSum_nil, List.drop_nil, Int.add_zero] at hsum ⊢
    refine ⟨?_, fun _ => by omega⟩
    by_cases heq : u = c.usageId
    · subst heq
      rw [if_pos rfl] at hcount
      omega
    · rw [if_neg (Ne.symm heq)] at hcount
      rw [hother u hu heq]
      omega

theorem Kept.append (h : Kept cfg timely pressed d items nodes) (hkey : IsKey cfg d node.2.item)
    (hcounts : Counts pressed pressed' node.2.item) (hroom : nodes.length < cfg.queueSize)
    (hfit : node.2.item.value = 1 →
      held items.item node.2.item.usageId + presses nodes node.2.item.usageId < 2 ^ 15 - 1) :
    Kept cfg timely pressed' d items (nodes ++ [node]) where
  ordered := h.ordered
  mapped := h.mapped
  queued := fun other hother => by
    rcases List.mem_append.mp hother with hold | hnew
    · exact h.queued other hold
    · rw [List.mem_singleton.mp hnew]
      exact hkey
  fits := fun u hu => by
    have hsplit : presses (nodes ++ [node]) u = presses nodes u + presses [node] u := List.countP_append
    have hu' := h.fits u hu
    rw [hsplit, presses_cons]
    simp only [presses, List.countP_nil] at hu' hfit ⊢
    by_cases hnew : node.2.item.usageId = u ∧ node.2.item.value = 1
    · have := hfit hnew.2
      rw [hnew.1] at this
      rw [if_pos hnew]
      omega
    · rw [if_neg hnew]
      omega
  owned := fun ht u hu => by
    obtain ⟨hsum, hsuffix⟩ := h.owned ht u hu
    have hcount := hcounts u
    have hlast : usageSum [node] u = if node.2.item.usageId = u then node.2.item.value.toInt else 0 := by
      rw [usageSum_cons, usageSum_nil, Int.add_zero]
    rw [usageSum_append, hlast]
    refine ⟨by omega, fun k => ?_⟩
    rw [List.drop_append, usageSum_append]
    have hle := hsuffix k
    cases hk : k - nodes.length with
    | zero =>
      rw [List.drop_zero, hlast]
      omega
    | succ n =>
      have hover := hsuffix k
      rw [List.drop_eq_nil_of_le (by omega : nodes.length ≤ k), usageSum_nil] at hover ⊢
      rw [List.drop_eq_nil_of_le (by simp), usageSum_nil]
      omega
  room := by
    rw [List.length_append, List.length_singleton]
    exact hroom

end Content

end SdkNrf.Desktop.HidReports
