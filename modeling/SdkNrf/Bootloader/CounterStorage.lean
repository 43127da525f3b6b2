import SdkNrf.Bootloader.Storage

/-!
# The monotonic counter over write-once memory

A recorded value is written into the first erased slot of the version counter.
-/

namespace SdkNrf.Bootloader

variable {cfg : StorageConfig} {mem mem' : WordMemory}

theorem keyData_aligned (cfg : StorageConfig) (i : Nat) : keyData cfg i % 4 = 0 := by
  have ha := cfg.address_aligned
  have hmul : ((4 + cfg.publicKeyHashLen) * i) % 4 = 0 := by
    rw [Nat.mul_mod, show (4 + cfg.publicKeyHashLen) % 4 = 0 by have := cfg.hashLen_aligned; omega]
    simp
  rw [keyData]
  omega

theorem keyData_even (idx : Nat) : keyData cfg idx % 2 = 0 := by
  have := keyData_aligned cfg idx
  omega

theorem keyData_le (cfg : StorageConfig) {i j : Nat} (h : i < j) :
    keyData cfg i + 4 ≤ keyData cfg j := by
  have hmul := Nat.mul_le_mul_left (4 + cfg.publicKeyHashLen) h
  rw [Nat.mul_succ] at hmul
  simp only [keyData]
  omega

variable {description : BitVec 16}

theorem findCounter_le {count p c : Nat} (h : findCounter mem description count p = some c) :
    p ≤ c := by
  induction count generalizing p with
  | zero => simp [findCounter] at h
  | succ count ih =>
    rw [findCounter] at h
    split at h
    · simp only [Option.some.injEq] at h
      omega
    · have := ih h
      omega

theorem findCounter_even {count p c : Nat} (hp : p % 2 = 0)
    (h : findCounter mem description count p = some c) : c % 2 = 0 := by
  induction count generalizing p with
  | zero => simp [findCounter] at h
  | succ count ih =>
    rw [findCounter] at h
    split at h
    · simp only [Option.some.injEq] at h
      omega
    · apply ih _ h
      omega

theorem findCounter_congr {count p c : Nat} (hp : p % 2 = 0)
    (h : findCounter mem description count p = some c) (hagree : AgreeBelow (c + 4) mem mem') :
    findCounter mem' description count p = some c := by
  induction count generalizing p with
  | zero => simp [findCounter] at h
  | succ count ih =>
    have hle := findCounter_le h
    rw [findCounter] at h ⊢
    rw [hagree p hp (by omega)]
    split at h
    next hdesc => rw [if_pos hdesc, h]
    next hdesc =>
      rw [if_neg hdesc, hagree (p + 2) (by omega) (by omega)]
      apply ih _ h
      omega

theorem getCounterStruct_le {c : Nat} (h : getCounterStruct cfg mem description = some c) :
    collectionAddress cfg mem + 4 ≤ c := by
  rw [getCounterStruct, getCounterCollection] at h
  split at h
  · exact findCounter_le h
  · simp at h

theorem getCounterStruct_even {c : Nat} (h : getCounterStruct cfg mem description = some c) :
    c % 2 = 0 := by
  rw [getCounterStruct, getCounterCollection] at h
  split at h
  · refine findCounter_even ?_ h
    have : collectionAddress cfg mem % 2 = 0 := keyData_even _
    omega
  · simp at h

theorem AgreeBelow.numPublicKeysRead {bound : Nat} (h : AgreeBelow bound mem mem')
    (hbound : cfg.provisionAddress + 12 ≤ bound) :
    numPublicKeysRead cfg mem' = numPublicKeysRead cfg mem := by
  have ha := cfg.address_aligned
  apply h.word
  omega

theorem getCounterStruct_congr {c : Nat} (h : getCounterStruct cfg mem description = some c)
    (hagree : AgreeBelow (c + 4) mem mem') :
    getCounterStruct cfg mem' description = some c := by
  have hle := getCounterStruct_le h
  have hstart : cfg.provisionAddress + 12 ≤ collectionAddress cfg mem := by
    rw [collectionAddress, keyData]
    omega
  have heven : collectionAddress cfg mem % 2 = 0 := keyData_even _
  have haddr : collectionAddress cfg mem' = collectionAddress cfg mem := by
    rw [collectionAddress, collectionAddress, hagree.numPublicKeysRead (by omega)]
  rw [getCounterStruct, getCounterCollection] at h ⊢
  rw [haddr, hagree _ heven (by omega)]
  split at h
  next htype =>
    rw [if_pos htype]
    simp only [Option.bind_some] at h ⊢
    rw [hagree _ (by omega) (by omega)]
    exact findCounter_congr (by omega) h hagree
  next => simp at h

theorem numMonotonicCounterSlots_congr {c : Nat}
    (h : getCounterStruct cfg mem counterDescVersion = some c)
    (hagree : AgreeBelow (c + 4) mem mem') :
    numMonotonicCounterSlots cfg mem' = numMonotonicCounterSlots cfg mem := by
  have heven := getCounterStruct_even h
  simp only [numMonotonicCounterSlots, getCounterStruct_congr h hagree, h,
    hagree (c + 2) (by omega) (by omega)]

section Scan

variable {slots : Nat}

theorem le_getCounterLoop (n i : Nat) (highest : BitVec 16) :
    highest ≤ (getCounterLoop mem slots n i highest).1 := by
  induction n generalizing i highest with
  | zero => simp [getCounterLoop]
  | succ n ih =>
    simp only [getCounterLoop]
    split
    · simp
    · refine BitVec.le_trans ?_ (ih (i + 1) _)
      split
      next hlt => exact BitVec.le_of_lt hlt
      next => exact BitVec.le_refl _

theorem getCounterLoop_none {n i : Nat} {highest : BitVec 16}
    (h : (getCounterLoop mem slots n i highest).2 = none) :
    ∀ j, i ≤ j → j < i + n → slotValue mem slots j ≠ 0 := by
  induction n generalizing i highest with
  | zero =>
    intro j hij hj
    omega
  | succ n ih =>
    intro j hij hj
    simp only [getCounterLoop] at h
    split at h
    · simp at h
    next hne =>
      rcases Nat.eq_or_lt_of_le hij with rfl | hlt
      · exact hne
      · exact ih h j (by omega) (by omega)

theorem getCounterLoop_some {n i a : Nat} {highest : BitVec 16}
    (h : (getCounterLoop mem slots n i highest).2 = some a) :
    ∃ j, i ≤ j ∧ j < i + n ∧ a = slots + 2 * j ∧ slotValue mem slots j = 0 ∧
      ∀ l, i ≤ l → l < j → slotValue mem slots l ≠ 0 := by
  induction n generalizing i highest with
  | zero => simp [getCounterLoop] at h
  | succ n ih =>
    simp only [getCounterLoop] at h
    split at h
    next hzero =>
      simp only [Option.some.injEq] at h
      refine ⟨i, le_refl _, by omega, h.symm, hzero, ?_⟩
      intro l hil hli
      omega
    next hne =>
      obtain ⟨j, hij, hj, ha, hzero, hused⟩ := ih h
      refine ⟨j, by omega, by omega, ha, hzero, ?_⟩
      intro l hil hlj
      rcases Nat.eq_or_lt_of_le hil with rfl | hlt
      · exact hne
      · exact hused l hlt hlj

/-- After a larger value has been recorded in the first free slot, the scan returns it, as long as
the slots behind are erased. -/
theorem getCounterLoop_recorded {n i j : Nat} {highest new : BitVec 16}
    (hfree : (getCounterLoop mem slots n i highest).2 = some (slots + 2 * j))
    (hnew : (getCounterLoop mem slots n i highest).1 < new)
    (herased : ∀ l, j < l → l < i + n → slotValue mem slots l = 0)
    (hslot : slotValue mem' slots j = new)
    (hother : ∀ l, l ≠ j → slotValue mem' slots l = slotValue mem slots l) :
    (getCounterLoop mem' slots n i highest).1 = new := by
  induction n generalizing i highest with
  | zero => simp [getCounterLoop] at hfree
  | succ n ih =>
    have hpos : new ≠ 0 := by
      intro h0
      rw [h0] at hnew
      exact absurd hnew (by simp)
    simp only [getCounterLoop] at hfree hnew ⊢
    by_cases hzero : slotValue mem slots i = 0
    · simp only [hzero, if_true, Option.some.injEq] at hfree hnew
      obtain rfl : i = j := by omega
      rw [hslot, if_neg hpos, if_pos hnew]
      cases n with
      | zero => rfl
      | succ n =>
        simp only [getCounterLoop]
        rw [hother (i + 1) (by omega), herased (i + 1) (by omega) (by omega), if_pos rfl]
    · simp only [hzero, if_false] at hfree hnew
      have hij : i ≠ j := by
        obtain ⟨j', hj', -, hj'', -, -⟩ := getCounterLoop_some hfree
        omega
      rw [hother i hij, if_neg hzero]
      apply ih hfree hnew
      intro l hl hln
      apply herased l hl
      omega

end Scan

def usedSlots (mem : WordMemory) (slots n : Nat) : Finset Nat :=
  (Finset.range n).filter fun i => slotValue mem slots i ≠ 0

/-- A page of the bootloader storage. Slots are written in order, so whatever lies behind an erased
slot of the version counter is erased too; a new page has nothing but erased slots. -/
structure ProvisionPage (cfg : StorageConfig) where
  mem : WordMemory
  erased_above : ∀ i j, i ≤ j → j < numMonotonicCounterSlots cfg mem →
    slotValue mem (counterSlots cfg mem) i = 0 → slotValue mem (counterSlots cfg mem) j = 0

/-- What a call that succeeds does: it fills the first erased slot, `i`, and leaves every other
half-word as it is. -/
structure RecordedAt (cfg : StorageConfig) (mem mem' : WordMemory) (new : BitVec 16) (i : Nat) :
    Prop where
  inside : i < numMonotonicCounterSlots cfg mem
  used : ∀ l < i, readHalfword mem (counterSlots cfg mem + 2 * l) ≠ 0xFFFF#16
  erased : readHalfword mem (counterSlots cfg mem + 2 * i) = 0xFFFF#16
  written : readHalfword mem' (counterSlots cfg mem + 2 * i) = ~~~ new
  changed : new ≠ 0
  others : ∀ q, q % 2 = 0 → q ≠ counterSlots cfg mem + 2 * i →
    readHalfword mem' q = readHalfword mem q

theorem slotValue_eq_zero {slots i : Nat} :
    slotValue mem slots i = 0 ↔ readHalfword mem (slots + 2 * i) = 0xFFFF#16 := by
  rw [slotValue]
  constructor
  · intro h
    have := congrArg (~~~ ·) h
    simpa using this
  · intro h
    rw [h]
    rfl

theorem exists_counter_of_slot {i : Nat} (h : i < numMonotonicCounterSlots cfg mem) :
    ∃ c, getCounterStruct cfg mem counterDescVersion = some c ∧ counterSlots cfg mem = c + 4 := by
  cases hc : getCounterStruct cfg mem counterDescVersion with
  | none => simp [numMonotonicCounterSlots, hc] at h
  | some c => exact ⟨c, rfl, by rw [counterSlots, hc, Option.getD_some]⟩

theorem counterSlots_even {i : Nat} (h : i < numMonotonicCounterSlots cfg mem) :
    counterSlots cfg mem % 2 = 0 := by
  obtain ⟨c, hc, hslots⟩ := exists_counter_of_slot h
  have := getCounterStruct_even hc
  omega

namespace RecordedAt

variable {new : BitVec 16} {i : Nat}

theorem agreeBelow (h : RecordedAt cfg mem mem' new i) :
    AgreeBelow (counterSlots cfg mem) mem mem' := by
  intro q hq hlt
  apply h.others q hq
  omega

theorem counterSlots_eq (h : RecordedAt cfg mem mem' new i) :
    counterSlots cfg mem' = counterSlots cfg mem := by
  obtain ⟨c, hc, hslots⟩ := exists_counter_of_slot h.inside
  have hc' := getCounterStruct_congr hc (hslots ▸ h.agreeBelow)
  rw [hslots, counterSlots, hc', Option.getD_some]

theorem numSlots_eq (h : RecordedAt cfg mem mem' new i) :
    numMonotonicCounterSlots cfg mem' = numMonotonicCounterSlots cfg mem := by
  obtain ⟨c, hc, hslots⟩ := exists_counter_of_slot h.inside
  exact numMonotonicCounterSlots_congr hc (hslots ▸ h.agreeBelow)

theorem slotValue_self (h : RecordedAt cfg mem mem' new i) :
    slotValue mem' (counterSlots cfg mem) i = new := by
  rw [slotValue, h.written, BitVec.not_not]

theorem slotValue_of_ne (h : RecordedAt cfg mem mem' new i) {l : Nat} (hl : l ≠ i) :
    slotValue mem' (counterSlots cfg mem) l = slotValue mem (counterSlots cfg mem) l := by
  have heven := counterSlots_even h.inside
  rw [slotValue, slotValue, h.others _ (by omega) (by omega)]

theorem usedSlots_eq (h : RecordedAt cfg mem mem' new i) :
    usedSlots mem' (counterSlots cfg mem) (numMonotonicCounterSlots cfg mem) =
      insert i (usedSlots mem (counterSlots cfg mem) (numMonotonicCounterSlots cfg mem)) := by
  ext l
  simp only [usedSlots, Finset.mem_insert, Finset.mem_filter, Finset.mem_range]
  by_cases hl : l = i
  · subst hl
    simpa [h.inside, h.slotValue_self] using h.changed
  · simp [hl, h.slotValue_of_ne hl]

theorem notMem_usedSlots (h : RecordedAt cfg mem mem' new i) :
    i ∉ usedSlots mem (counterSlots cfg mem) (numMonotonicCounterSlots cfg mem) := by
  simp [usedSlots, slotValue_eq_zero.mpr h.erased]

end RecordedAt

theorem setMonotonicCounter_of_le {new : BitVec 16} (h : new ≤ getMonotonicCounter cfg mem) :
    setMonotonicCounter cfg mem new = (.error .EINVAL, mem) := by
  rw [getMonotonicCounter] at h
  rw [setMonotonicCounter, if_pos h]

theorem setMonotonicCounter_of_full {new : BitVec 16} (h : getMonotonicCounter cfg mem < new)
    (hfull : (getCounter cfg mem).2 = none) :
    setMonotonicCounter cfg mem new = (.error .ENOMEM, mem) := by
  rw [getMonotonicCounter, ← BitVec.not_le] at h
  rw [setMonotonicCounter, if_neg h, hfull]

theorem setMonotonicCounter_of_free {new : BitVec 16} {a : Nat}
    (h : getMonotonicCounter cfg mem < new) (hfree : (getCounter cfg mem).2 = some a) :
    setMonotonicCounter cfg mem new = (.ok (), writeHalfword mem a (~~~ new)) := by
  rw [getMonotonicCounter, ← BitVec.not_le] at h
  rw [setMonotonicCounter, if_neg h, hfree]

theorem setMonotonicCounter_cases (cfg : StorageConfig) (mem : WordMemory) (new : BitVec 16) :
    (new ≤ getMonotonicCounter cfg mem ∧
      setMonotonicCounter cfg mem new = (.error .EINVAL, mem)) ∨
    (getMonotonicCounter cfg mem < new ∧ (getCounter cfg mem).2 = none ∧
      setMonotonicCounter cfg mem new = (.error .ENOMEM, mem)) ∨
    ∃ mem' i, getMonotonicCounter cfg mem < new ∧
      (getCounter cfg mem).2 = some (counterSlots cfg mem + 2 * i) ∧
      setMonotonicCounter cfg mem new = (.ok (), mem') ∧ RecordedAt cfg mem mem' new i := by
  by_cases hle : new ≤ getMonotonicCounter cfg mem
  · exact .inl ⟨hle, setMonotonicCounter_of_le hle⟩
  have hlt := BitVec.not_le.mp hle
  refine .inr ?_
  cases hfree : (getCounter cfg mem).2 with
  | none => exact .inl ⟨hlt, rfl, setMonotonicCounter_of_full hlt hfree⟩
  | some a =>
    obtain ⟨i, -, hi, rfl, hzero, hused⟩ := getCounterLoop_some hfree
    rw [Nat.zero_add] at hi
    refine .inr ⟨_, i, hlt, rfl, setMonotonicCounter_of_free hlt hfree, ?_⟩
    have heven := counterSlots_even hi
    have herased := slotValue_eq_zero.mp hzero
    constructor
    · exact hi
    · intro l hl
      exact mt slotValue_eq_zero.mpr (hused l (Nat.zero_le l) hl)
    · exact herased
    · rw [readHalfword_writeHalfword _ (by omega) (by omega), if_pos rfl, herased]
      exact BitVec.allOnes_and
    · intro h0
      rw [h0] at hlt
      exact absurd hlt (by simp)
    · intro q hq hne
      rw [readHalfword_writeHalfword _ (by omega) hq, if_neg hne]

namespace ProvisionPage

variable {new : BitVec 16} {i : Nat}

theorem recorded_value (page : ProvisionPage cfg) (h : RecordedAt cfg page.mem mem' new i)
    (hlt : getMonotonicCounter cfg page.mem < new)
    (hfree : (getCounter cfg page.mem).2 = some (counterSlots cfg page.mem + 2 * i)) :
    getMonotonicCounter cfg mem' = new := by
  rw [getMonotonicCounter, getCounter, h.counterSlots_eq, h.numSlots_eq]
  apply getCounterLoop_recorded hfree hlt
  · intro l hl hln
    exact page.erased_above i l (by omega) (by omega) (slotValue_eq_zero.mpr h.erased)
  · exact h.slotValue_self
  · intro l hl
    exact h.slotValue_of_ne hl

def record (page : ProvisionPage cfg) (h : RecordedAt cfg page.mem mem' new i) :
    ProvisionPage cfg where
  mem := mem'
  erased_above := by
    intro j l hjl hl hj
    rw [h.counterSlots_eq] at hj ⊢
    rw [h.numSlots_eq] at hl
    have hij : i < j := by
      by_contra hle
      rcases Nat.eq_or_lt_of_le (Nat.not_lt.mp hle) with rfl | hlt
      · exact h.changed (h.slotValue_self.symm.trans hj)
      · rw [h.slotValue_of_ne (by omega), slotValue_eq_zero] at hj
        exact h.used j hlt hj
    rw [h.slotValue_of_ne (by omega)] at hj ⊢
    exact page.erased_above j l hjl hl hj

end ProvisionPage

def setCounters (cfg : StorageConfig) (mem : WordMemory) (calls : List (BitVec 16)) : WordMemory :=
  calls.foldl (fun mem new => (setMonotonicCounter cfg mem new).2) mem

def successes (cfg : StorageConfig) : WordMemory → List (BitVec 16) → Nat
  | _, [] => 0
  | mem, new :: calls =>
    (if (setMonotonicCounter cfg mem new).1 = .ok () then 1 else 0) +
      successes cfg (setMonotonicCounter cfg mem new).2 calls

/-- What a call may do: record the value in one erased slot, from which it is then read back, or
refuse it for one of the two documented reasons and leave the memory alone. -/
structure CallSpec (cfg : StorageConfig) (mem : WordMemory) (new : BitVec 16) : Prop where
  succeeds : (setMonotonicCounter cfg mem new).1 = .ok () ↔
    getMonotonicCounter cfg mem < new ∧ ∃ i < numMonotonicCounterSlots cfg mem,
      readHalfword mem (counterSlots cfg mem + 2 * i) = 0xFFFF#16
  recorded : (setMonotonicCounter cfg mem new).1 = .ok () →
    (∃ i, RecordedAt cfg mem (setMonotonicCounter cfg mem new).2 new i) ∧
      getMonotonicCounter cfg (setMonotonicCounter cfg mem new).2 = new
  einval : (setMonotonicCounter cfg mem new).1 = .error .EINVAL ↔
    new ≤ getMonotonicCounter cfg mem
  enomem : (setMonotonicCounter cfg mem new).1 = .error .ENOMEM ↔
    getMonotonicCounter cfg mem < new ∧ ∀ i < numMonotonicCounterSlots cfg mem,
      readHalfword mem (counterSlots cfg mem + 2 * i) ≠ 0xFFFF#16
  errors : ∀ e, (setMonotonicCounter cfg mem new).1 = .error e → e = .EINVAL ∨ e = .ENOMEM
  refused : (setMonotonicCounter cfg mem new).1 ≠ .ok () →
    (setMonotonicCounter cfg mem new).2 = mem

theorem ProvisionPage.callSpec (page : ProvisionPage cfg) (new : BitVec 16) :
    CallSpec cfg page.mem new := by
  rcases setMonotonicCounter_cases cfg page.mem new with
    ⟨hle, heq⟩ | ⟨hlt, hfull, heq⟩ | ⟨mem', i, hlt, hfree, heq, hrec⟩
  · have hnot := BitVec.not_lt.mpr hle
    constructor <;> simp [heq, hle, hnot]
  · have hnot := BitVec.not_le.mpr hlt
    have hused : ∀ i < numMonotonicCounterSlots cfg page.mem,
        readHalfword page.mem (counterSlots cfg page.mem + 2 * i) ≠ 0xFFFF#16 := by
      intro i hi
      exact mt slotValue_eq_zero.mpr (getCounterLoop_none hfull i (Nat.zero_le i) (by omega))
    constructor
    case succeeds =>
      rw [heq]
      refine iff_of_false (by simp) ?_
      rintro ⟨-, i, hi, herased⟩
      exact hused i hi herased
    case enomem =>
      rw [heq]
      exact iff_of_true rfl ⟨hlt, hused⟩
    all_goals simp [heq, hnot]
  · have hnot := BitVec.not_le.mpr hlt
    constructor
    case succeeds =>
      rw [heq]
      exact iff_of_true rfl ⟨hlt, i, hrec.inside, hrec.erased⟩
    case recorded =>
      rw [heq]
      exact fun _ => ⟨⟨i, hrec⟩, page.recorded_value hrec hlt hfree⟩
    case enomem =>
      rw [heq]
      refine iff_of_false (by simp) ?_
      rintro ⟨-, hall⟩
      exact hall i hrec.inside hrec.erased
    all_goals simp [heq, hnot]

theorem ProvisionPage.step (page : ProvisionPage cfg) (new : BitVec 16) :
    ∃ page' : ProvisionPage cfg, page'.mem = (setMonotonicCounter cfg page.mem new).2 ∧
      counterSlots cfg page'.mem = counterSlots cfg page.mem ∧
      numMonotonicCounterSlots cfg page'.mem = numMonotonicCounterSlots cfg page.mem ∧
      (usedSlots page'.mem (counterSlots cfg page.mem)
          (numMonotonicCounterSlots cfg page.mem)).card =
        (if (setMonotonicCounter cfg page.mem new).1 = .ok () then 1 else 0) +
          (usedSlots page.mem (counterSlots cfg page.mem)
            (numMonotonicCounterSlots cfg page.mem)).card := by
  rcases setMonotonicCounter_cases cfg page.mem new with
    ⟨-, heq⟩ | ⟨-, -, heq⟩ | ⟨mem', i, -, -, heq, hrec⟩
  · exact ⟨page, by simp [heq]⟩
  · exact ⟨page, by simp [heq]⟩
  · refine ⟨page.record hrec, by rw [heq]; rfl, hrec.counterSlots_eq, hrec.numSlots_eq, ?_⟩
    change (usedSlots mem' _ _).card = _
    rw [hrec.usedSlots_eq, Finset.card_insert_of_notMem hrec.notMem_usedSlots, heq, if_pos rfl,
      Nat.add_comm]

theorem ProvisionPage.run (page : ProvisionPage cfg) (calls : List (BitVec 16)) :
    ∃ page' : ProvisionPage cfg, page'.mem = setCounters cfg page.mem calls ∧
      counterSlots cfg page'.mem = counterSlots cfg page.mem ∧
      numMonotonicCounterSlots cfg page'.mem = numMonotonicCounterSlots cfg page.mem ∧
      (usedSlots page'.mem (counterSlots cfg page.mem)
          (numMonotonicCounterSlots cfg page.mem)).card =
        successes cfg page.mem calls + (usedSlots page.mem (counterSlots cfg page.mem)
            (numMonotonicCounterSlots cfg page.mem)).card := by
  induction calls generalizing page with
  | nil => exact ⟨page, rfl, rfl, rfl, by simp [successes]⟩
  | cons new calls ih =>
    obtain ⟨page₁, hmem₁, hslots₁, hnum₁, hused₁⟩ := page.step new
    obtain ⟨page₂, hmem₂, hslots₂, hnum₂, hused₂⟩ := ih page₁
    refine ⟨page₂, ?_, hslots₂.trans hslots₁, hnum₂.trans hnum₁, ?_⟩
    · rw [hmem₂, setCounters, setCounters, List.foldl_cons, hmem₁]
    · rw [hslots₁, hnum₁] at hused₂
      rw [hused₂, hused₁, successes, hmem₁]
      omega

/-- Over any sequence of calls, a call succeeds exactly with a larger value and an erased slot. It then
records the value in exactly one erased half-word, and changes nothing otherwise. There are never more
successes than slots. -/
theorem setCounters_spec (page : ProvisionPage cfg) (calls : List (BitVec 16)) (new : BitVec 16) :
    CallSpec cfg (setCounters cfg page.mem calls) new ∧
      successes cfg page.mem calls ≤ numMonotonicCounterSlots cfg page.mem := by
  obtain ⟨page', hmem, hslots, hnum, hused⟩ := page.run calls
  refine ⟨hmem ▸ page'.callSpec new, ?_⟩
  have hcard : (usedSlots page'.mem (counterSlots cfg page.mem)
      (numMonotonicCounterSlots cfg page.mem)).card ≤ numMonotonicCounterSlots cfg page.mem := by
    apply (Finset.card_filter_le _ _).trans
    simp
  omega

private def freshPageConfig : StorageConfig := ⟨0, 16, by decide, by decide⟩

private def freshPage : ProvisionPage freshPageConfig where
  mem w := match w with
    | 2 => 0
    | 3 => 0x00010001
    | 4 => 0x00020001
    | _ => 0xFFFFFFFF
  erased_above := by
    intro i j _ hj _
    change j < 2 at hj
    interval_cases j <;> decide

/-- The second value goes into the odd slot. -/
theorem freshPage_recorded :
    (setMonotonicCounter freshPageConfig (setCounters freshPageConfig freshPage.mem [3, 2]) 7).1 =
        .ok () ∧
      getMonotonicCounter freshPageConfig
        (setMonotonicCounter freshPageConfig (setCounters freshPageConfig freshPage.mem [3, 2]) 7).2 =
          7 := by
  obtain ⟨hcall, -⟩ := setCounters_spec freshPage [3, 2] 7
  have hok := hcall.succeeds.mpr ⟨by decide, 1, by decide, by decide⟩
  exact ⟨hok, (hcall.recorded hok).2⟩

end SdkNrf.Bootloader
