import SdkNrf.Bootloader.Boot
import SdkNrf.Bootloader.CounterStorage

/-!
# Anti-rollback

A boot changes the provision page only by invalidating public keys and by recording versions.
-/

namespace SdkNrf.Bootloader

open Relation

variable {cfg : StorageConfig} {mem mem' : WordMemory}

structure AgreeOnCounters (cfg : StorageConfig) (mem mem' : WordMemory) : Prop where
  keys : numPublicKeysRead cfg mem' = numPublicKeysRead cfg mem
  above : ∀ q, collectionAddress cfg mem ≤ q → readHalfword mem' q = readHalfword mem q

theorem findCounter_congr_above {description : BitVec 16} {count p : Nat}
    (h : ∀ q, p ≤ q → readHalfword mem' q = readHalfword mem q) :
    findCounter mem' description count p = findCounter mem description count p := by
  induction count generalizing p with
  | zero => rfl
  | succ count ih =>
    rw [findCounter, findCounter, h p (le_refl p), h (p + 2) (by omega)]
    split
    · rfl
    · apply ih
      intro q hq
      apply h
      omega

theorem getCounterLoop_congr {slots : Nat}
    (h : ∀ q, slots ≤ q → readHalfword mem' q = readHalfword mem q) (n i : Nat)
    (highest : BitVec 16) :
    getCounterLoop mem' slots n i highest = getCounterLoop mem slots n i highest := by
  induction n generalizing i highest with
  | zero => rfl
  | succ n ih =>
    have hslot : slotValue mem' slots i = slotValue mem slots i := by
      rw [slotValue, slotValue, h _ (by omega)]
    simp only [getCounterLoop, hslot, ih]

namespace AgreeOnCounters

theorem collectionAddress_eq (h : AgreeOnCounters cfg mem mem') :
    collectionAddress cfg mem' = collectionAddress cfg mem := by
  rw [collectionAddress, collectionAddress, h.keys]

theorem getCounterStruct_eq (h : AgreeOnCounters cfg mem mem') (description : BitVec 16) :
    getCounterStruct cfg mem' description = getCounterStruct cfg mem description := by
  rw [getCounterStruct, getCounterStruct, getCounterCollection, getCounterCollection,
    h.collectionAddress_eq, h.above _ (le_refl _)]
  split
  · simp only [Option.bind_some]
    rw [h.above _ (by omega)]
    apply findCounter_congr_above
    intro q hq
    apply h.above
    omega
  · rfl

theorem numSlots_eq (h : AgreeOnCounters cfg mem mem') :
    numMonotonicCounterSlots cfg mem' = numMonotonicCounterSlots cfg mem := by
  rw [numMonotonicCounterSlots, numMonotonicCounterSlots, h.getCounterStruct_eq]
  cases hc : getCounterStruct cfg mem counterDescVersion with
  | none => rfl
  | some c =>
    have := getCounterStruct_le hc
    simp only [h.above (c + 2) (by omega)]

theorem counterSlots_eq (h : AgreeOnCounters cfg mem mem') :
    counterSlots cfg mem' = counterSlots cfg mem := by
  rw [counterSlots, counterSlots, h.getCounterStruct_eq]

theorem slotValue_eq (h : AgreeOnCounters cfg mem mem') {i : Nat}
    (hi : i < numMonotonicCounterSlots cfg mem) :
    slotValue mem' (counterSlots cfg mem) i = slotValue mem (counterSlots cfg mem) i := by
  obtain ⟨c, hc, hslots⟩ := exists_counter_of_slot hi
  have := getCounterStruct_le hc
  rw [slotValue, slotValue, h.above _ (by omega)]

theorem getCounter_eq (h : AgreeOnCounters cfg mem mem') :
    getCounter cfg mem' = getCounter cfg mem := by
  rw [getCounter, getCounter, h.counterSlots_eq, h.numSlots_eq]
  cases hn : numMonotonicCounterSlots cfg mem with
  | zero => rfl
  | succ n =>
    have hpos : 0 < numMonotonicCounterSlots cfg mem := by omega
    obtain ⟨c, hc, hslots⟩ := exists_counter_of_slot hpos
    have := getCounterStruct_le hc
    apply getCounterLoop_congr
    intro q hq
    apply h.above
    omega

end AgreeOnCounters

theorem invalidatePublicKey_agrees {idx : Nat} (hidx : idx < (numPublicKeysRead cfg mem).toNat) :
    AgreeOnCounters cfg mem (invalidatePublicKey cfg mem idx) := by
  have hle := keyData_le cfg hidx
  have halign := keyData_aligned cfg idx
  have hstart : cfg.provisionAddress + 12 ≤ keyData cfg idx := by
    rw [keyData]
    omega
  rw [invalidatePublicKey]
  split
  · constructor
    · apply WordMemory.wordWrite_of_ne
      omega
    · intro q hq
      rw [collectionAddress] at hq
      have hne : q / 4 ≠ keyData cfg idx / 4 := by omega
      simp only [readHalfword, WordMemory.wordWrite_of_ne _ _ hne]
  · exact ⟨rfl, fun q _ => rfl⟩

inductive PageStep (cfg : StorageConfig) (mem : WordMemory) : WordMemory → Prop
  | invalidate {idx : Nat} (hidx : idx < (numPublicKeysRead cfg mem).toNat) :
      PageStep cfg mem (invalidatePublicKey cfg mem idx)
  | set (new : BitVec 16) : PageStep cfg mem (setMonotonicCounter cfg mem new).2

abbrev PageRun (cfg : StorageConfig) : WordMemory → WordMemory → Prop :=
  ReflTransGen (PageStep cfg)

theorem getMonotonicCounter_le_set (cfg : StorageConfig) (mem : WordMemory) (new : BitVec 16) :
    getMonotonicCounter cfg mem ≤ getMonotonicCounter cfg (setMonotonicCounter cfg mem new).2 := by
  rcases setMonotonicCounter_cases cfg mem new with
    ⟨-, heq⟩ | ⟨-, -, heq⟩ | ⟨mem', i, hlt, hfree, heq, hrec⟩
  · rw [heq]
    exact BitVec.le_refl _
  · rw [heq]
    exact BitVec.le_refl _
  · rw [heq, getMonotonicCounter, getMonotonicCounter, getCounter, getCounter, hrec.counterSlots_eq,
      hrec.numSlots_eq]
    -- The scan passes the filled slot with at least the value it had before.
    have hscan : ∀ (n k : Nat) (h₁ h₂ : BitVec 16), h₁ ≤ h₂ →
        (getCounterLoop mem (counterSlots cfg mem) n k h₁).1 ≤
          (getCounterLoop mem' (counterSlots cfg mem) n k h₂).1 := by
      intro n
      induction n with
      | zero =>
        intro k h₁ h₂ hle
        exact hle
      | succ n ih =>
        intro k h₁ h₂ hle
        simp only [getCounterLoop]
        by_cases hk : k = i
        · subst hk
          rw [slotValue_eq_zero.mpr hrec.erased, if_pos rfl, hrec.slotValue_self,
            if_neg hrec.changed]
          refine BitVec.le_trans hle (BitVec.le_trans ?_ (le_getCounterLoop _ _ _))
          split
          next hlt' => exact BitVec.le_of_lt hlt'
          next => exact BitVec.le_refl _
        · rw [hrec.slotValue_of_ne hk]
          split
          · exact hle
          · apply ih
            split <;> split <;> simp only [BitVec.lt_def, BitVec.le_def] at * <;> omega
    exact hscan _ 0 0 0 (BitVec.le_refl _)

namespace PageStep

theorem counter_le (h : PageStep cfg mem mem') :
    getMonotonicCounter cfg mem ≤ getMonotonicCounter cfg mem' := by
  cases h with
  | invalidate hidx =>
    rw [getMonotonicCounter, getMonotonicCounter, (invalidatePublicKey_agrees hidx).getCounter_eq]
    exact BitVec.le_refl _
  | set new => exact getMonotonicCounter_le_set cfg mem new

theorem page (page : ProvisionPage cfg) (h : PageStep cfg page.mem mem') :
    ∃ page' : ProvisionPage cfg, page'.mem = mem' := by
  cases h with
  | @invalidate idx hidx =>
    have hagree := invalidatePublicKey_agrees hidx
    refine ⟨⟨invalidatePublicKey cfg page.mem idx, ?_⟩, rfl⟩
    intro i j hij hj hi
    rw [hagree.numSlots_eq] at hj
    rw [hagree.counterSlots_eq, hagree.slotValue_eq (by omega)] at hi ⊢
    exact page.erased_above i j hij hj hi
  | set new =>
    obtain ⟨page', hmem, -⟩ := page.step new
    exact ⟨page', hmem⟩

end PageStep

theorem PageRun.counter_le (h : PageRun cfg mem mem') :
    getMonotonicCounter cfg mem ≤ getMonotonicCounter cfg mem' := by
  induction h with
  | refl => exact BitVec.le_refl _
  | tail _ hstep ih => exact BitVec.le_trans ih hstep.counter_le

theorem PageRun.version_le (h : PageRun cfg mem mem') :
    (getMonotonicVersion cfg mem).1 ≤ (getMonotonicVersion cfg mem').1 := by
  have hle := BitVec.le_def.mp h.counter_le
  rw [getMonotonicVersion, getMonotonicVersion, BitVec.le_def, BitVec.toNat_ushiftRight,
    BitVec.toNat_ushiftRight, Nat.shiftRight_eq_div_pow, Nat.shiftRight_eq_div_pow]
  omega

theorem PageRun.page (page : ProvisionPage cfg) (h : PageRun cfg page.mem mem') :
    ∃ page' : ProvisionPage cfg, page'.mem = mem' := by
  induction h with
  | refl => exact ⟨page, rfl⟩
  | tail _ hstep ih =>
    obtain ⟨page', rfl⟩ := ih
    exact hstep.page page'

section Boot

variable {bcfg : BootConfig} {plat : Platform} {flash : Flash}

private theorem numPublicKeysRead_invalidate {idx : Nat}
    (hidx : idx < (numPublicKeysRead cfg mem).toNat) :
    numPublicKeysRead cfg (invalidatePublicKey cfg mem idx) = numPublicKeysRead cfg mem :=
  (invalidatePublicKey_agrees hidx).keys

theorem invalidateKeys_run {idxs : List Nat}
    (h : ∀ idx ∈ idxs, idx < (numPublicKeysRead cfg mem).toNat) :
    PageRun cfg mem (idxs.foldl (invalidatePublicKey cfg) mem) := by
  induction idxs generalizing mem with
  | nil => exact .refl
  | cons idx idxs ih =>
    have hidx := h idx (List.mem_cons_self ..)
    refine .head (.invalidate hidx) (ih fun i hi => ?_)
    rw [numPublicKeysRead_invalidate hidx]
    exact h i (List.mem_cons_of_mem _ hi)

theorem validateSignatureLoop_run {fwSrcAddress fwSize fwValInfo : BitVec 32} {n idx : Nat}
    (h : idx + n ≤ (numPublicKeysRead bcfg.toStorageConfig mem).toNat) :
    PageRun bcfg.toStorageConfig mem
      (validateSignatureLoop bcfg flash plat fwSrcAddress fwSize fwValInfo n idx mem).2 := by
  induction n generalizing idx with
  | zero => exact .refl
  | succ n ih =>
    rw [validateSignatureLoop]
    split
    · apply ih
      omega
    · exact .refl
    · simp only
      split
      · apply invalidateKeys_run
        intro i hi
        rw [List.mem_range] at hi
        omega
      · split
        · apply ih
          omega
        · exact .refl

theorem validateFirmware_run {fwDstAddress fwSrcAddress fwInfo : BitVec 32} {external : Bool} :
    PageRun bcfg.toStorageConfig mem
      (validateFirmware bcfg flash plat mem fwDstAddress fwSrcAddress fwInfo external).2 := by
  rw [validateFirmware]
  split
  · exact .refl
  · simp only
    split
    · exact .refl
    split
    · exact .refl
    split
    · rw [validateSignature]
      split
      · exact .refl
      split
      · exact .refl
      · apply validateSignatureLoop_run
        omega
    · exact .refl

theorem version_le_of_validateFirmware {fwDstAddress fwSrcAddress fwInfo : BitVec 32}
    {external : Bool}
    (h : (validateFirmware bcfg flash plat mem fwDstAddress fwSrcAddress fwInfo external).1 = true) :
    (getMonotonicVersion bcfg.toStorageConfig mem).1.toNat ≤ (fwVersion flash fwInfo).toNat := by
  rw [validateFirmware] at h
  cases hcheck : checkFirmware bcfg flash mem fwDstAddress fwSrcAddress fwInfo external with
  | false => simp [hcheck] at h
  | true =>
    simp only [checkFirmware, Bool.and_eq_true, Bool.not_eq_true', decide_eq_false_iff_not,
      Nat.not_lt] at hcheck
    exact hcheck.1.1.1.1.1.2

variable {slot : BitVec 16}

theorem recordVersion_run {version : BitVec 32} :
    PageRun bcfg.toStorageConfig mem (recordVersion bcfg mem version slot).2 := by
  rw [recordVersion]
  split
  · exact .single (.set _)
  · exact .refl

theorem recordVersion_recorded {version : BitVec 32}
    (h : (recordVersion bcfg mem version slot).1 = true) :
    (setMonotonicVersion bcfg.toStorageConfig mem (version.setWidth 16) slot).1 = .ok () ∧
      (recordVersion bcfg mem version slot).2 =
        (setMonotonicVersion bcfg.toStorageConfig mem (version.setWidth 16) slot).2 := by
  rw [recordVersion] at h ⊢
  split at h
  next hlt =>
    rw [if_pos hlt]
    exact ⟨of_decide_eq_true h, rfl⟩
  next => simp at h

variable {st : BootState}

theorem validateAndBoot_run {fwInfo : BitVec 32} :
    PageRun bcfg.toStorageConfig st.mem (validateAndBoot bcfg plat st fwInfo slot).2.mem := by
  rw [validateAndBoot]
  split
  · exact .refl
  · simp only
    split
    · exact validateFirmware_run
    · split
      · exact validateFirmware_run.trans recordVersion_run
      · exact validateFirmware_run.trans recordVersion_run

theorem tryBoth_run {first second : BitVec 32 × BitVec 16} :
    PageRun bcfg.toStorageConfig st.mem (tryBoth bcfg plat st first second).2.mem := by
  rw [tryBoth]
  split
  · exact validateAndBoot_run
  · exact validateAndBoot_run.trans validateAndBoot_run

theorem main_run (st : BootState) :
    PageRun bcfg.toStorageConfig st.mem (main bcfg plat st).2.mem := by
  rw [main]
  split
  · exact .refl
  · simp only
    split
    · exact tryBoth_run
    · exact tryBoth_run

/-- What is known about an image that a boot starts: it was not below the recorded version, and the
version that was recorded for it, if any, is read back from the page. -/
structure BootedFrom (cfg : StorageConfig) (mem mem' : WordMemory) (image : Booted) : Prop where
  version_le : (getMonotonicVersion cfg mem).1.toNat ≤ image.version.toNat
  recorded : image.recorded = true → ∃ before, PageRun cfg mem before ∧
    (setMonotonicVersion cfg before (image.version.setWidth 16) image.slot).1 = .ok () ∧
    mem' = (setMonotonicVersion cfg before (image.version.setWidth 16) image.slot).2

variable {image : Booted}

theorem BootedFrom.of_run {mem₀ : WordMemory} (hrun : PageRun cfg mem₀ mem)
    (h : BootedFrom cfg mem mem' image) : BootedFrom cfg mem₀ mem' image where
  version_le := le_trans (BitVec.le_def.mp hrun.version_le) h.version_le
  recorded := by
    intro hrec
    obtain ⟨before, hbefore, hok, hmem⟩ := h.recorded hrec
    exact ⟨before, hrun.trans hbefore, hok, hmem⟩

theorem validateAndBoot_booted {fwInfo : BitVec 32}
    (h : (validateAndBoot bcfg plat st fwInfo slot).1 = some image) :
    BootedFrom bcfg.toStorageConfig st.mem (validateAndBoot bcfg plat st fwInfo slot).2.mem
      image := by
  rw [validateAndBoot] at h ⊢
  by_cases hnull : fwInfo = 0
  · simp [hnull] at h
  rw [if_neg hnull] at h ⊢
  cases hvalid : (blValidateFirmwareLocal bcfg st.flash plat st.mem (fwAddress st.flash fwInfo)
      fwInfo).1 with
  | false => simp [hvalid] at h
  | true =>
    simp only [hvalid, Bool.not_true, Bool.false_eq_true, if_false] at h ⊢
    cases hboot : plat.blBoot st.flash fwInfo with
    | false => simp [hboot] at h
    | true =>
      simp only [hboot, if_true, Option.some.injEq] at h ⊢
      subst h
      constructor
      · exact version_le_of_validateFirmware hvalid
      · intro hrec
        exact ⟨(blValidateFirmwareLocal bcfg st.flash plat st.mem (fwAddress st.flash fwInfo)
          fwInfo).2, validateFirmware_run, recordVersion_recorded hrec⟩

theorem tryBoth_booted {first second : BitVec 32 × BitVec 16}
    (h : (tryBoth bcfg plat st first second).1 = some image) :
    BootedFrom bcfg.toStorageConfig st.mem (tryBoth bcfg plat st first second).2.mem image := by
  rw [tryBoth] at h ⊢
  split at h
  next hsome =>
    rw [if_pos hsome]
    exact validateAndBoot_booted h
  next hnone =>
    rw [if_neg hnone]
    exact (validateAndBoot_booted h).of_run validateAndBoot_run

theorem main_booted (st : BootState) (h : (main bcfg plat st).1 = some image) :
    BootedFrom bcfg.toStorageConfig st.mem (main bcfg plat st).2.mem image := by
  rw [main] at h ⊢
  cases hprot : plat.fprotectBootloader with
  | false => simp [hprot] at h
  | true =>
    simp only [hprot, Bool.not_true, Bool.false_eq_true, if_false] at h ⊢
    split at h
    next hle =>
      rw [if_pos hle]
      exact tryBoth_booted h
    next hlt =>
      rw [if_neg hlt]
      exact tryBoth_booted h

end Boot

private theorem shiftRight_packed (version slot : BitVec 16) :
    (((version <<< 1) ||| (if slot = 0 then 1 else 0)) >>> 1).toNat = version.toNat % 2 ^ 15 := by
  have hbit : (if slot = 0 then (1 : BitVec 16) else 0).toNat < 2 ^ 1 := by
    split <;> decide
  rw [BitVec.toNat_ushiftRight, BitVec.toNat_or, BitVec.toNat_shiftLeft,
    Nat.shiftRight_or_distrib, Nat.shiftRight_eq_div_pow, Nat.shiftRight_eq_div_pow,
    Nat.div_eq_of_lt hbit, Nat.or_zero, Nat.shiftLeft_eq]
  omega

private theorem slot_packed (version slot : BitVec 16) :
    ((version <<< 1) ||| (if slot = 0 then 1 else 0)) &&& 1 =
      if slot = 0 then (1 : BitVec 16) else 0 := by
  apply BitVec.eq_of_getLsbD_eq
  intro i hi
  cases i with
  | zero => split <;> simp
  | succ i => split <;> simp [BitVec.getLsbD_one]

theorem getMonotonicVersion_set_iff (page : ProvisionPage cfg) (version slot : BitVec 16)
    (h : (setMonotonicVersion cfg page.mem version slot).1 = .ok ()) :
    getMonotonicVersion cfg (setMonotonicVersion cfg page.mem version slot).2 = (version, slot) ↔
      version ≤ 0x7FFF#16 ∧ slot ≤ 1#16 := by
  have hvalue := ((page.callSpec _).recorded h).2
  rw [setMonotonicVersion, getMonotonicVersion, hvalue, slot_packed, Prod.mk.injEq]
  apply and_congr
  · rw [← BitVec.toNat_inj, shiftRight_packed, BitVec.le_def]
    simp only [BitVec.toNat_ofNat]
    omega
  · rw [BitVec.le_def]
    by_cases hslot : slot = 0
    · simp [hslot]
    · have hne : slot.toNat ≠ 0 := fun h0 => hslot (BitVec.eq_of_toNat_eq h0)
      rw [if_neg hslot, if_pos rfl, ← BitVec.toNat_inj]
      change 1 = slot.toNat ↔ slot.toNat ≤ 1
      omega

structure PowerUp where
  plat : Platform
  flash : Flash

section Runs

variable (cfg : BootConfig)

/-- One boot: the image that is started and the provision page it leaves. -/
def bootOnce (mem : WordMemory) (up : PowerUp) : Option Booted × WordMemory :=
  let r := main cfg up.plat ⟨mem, up.flash⟩
  (r.1, r.2.mem)

def pageAfter (mem : WordMemory) (ups : List PowerUp) : WordMemory :=
  ups.foldl (fun mem up => (bootOnce cfg mem up).2) mem

/-- After `up` no sequence of boots ends in an image below `version`. -/
def NeverBelow (mem : WordMemory) (up : PowerUp) (version : BitVec 32) : Prop :=
  ∀ later last image, (bootOnce cfg (pageAfter cfg mem (up :: later)) last).1 = some image →
    version ≤ image.version

theorem pageAfter_pageRun (mem : WordMemory) (ups : List PowerUp) :
    PageRun cfg.toStorageConfig mem (pageAfter cfg mem ups) := by
  induction ups generalizing mem with
  | nil => exact .refl
  | cons up ups ih =>
    have hfirst : PageRun cfg.toStorageConfig mem (bootOnce cfg mem up).2 :=
      main_run ⟨mem, up.flash⟩
    exact hfirst.trans (ih _)

theorem recorded_version_le {mem : WordMemory} {up : PowerUp} {image : Booted}
    (page : ProvisionPage cfg.toStorageConfig) (hpage : page.mem = mem)
    (hboot : (bootOnce cfg mem up).1 = some image) (hrec : image.recorded = true)
    (hfits : image.version.toNat ≤ 0x7FFF) :
    image.version.toNat ≤
      (getMonotonicVersion cfg.toStorageConfig (bootOnce cfg mem up).2).1.toNat := by
  have hbooted := main_booted ⟨mem, up.flash⟩ hboot
  obtain ⟨before, hrun, hok, hmem⟩ := hbooted.recorded hrec
  obtain ⟨page', rfl⟩ := PageRun.page page (hpage ▸ hrun)
  have hvalue := ((page'.callSpec _).recorded hok).2
  have heq : (bootOnce cfg mem up).2 = _ := hmem
  rw [heq, getMonotonicVersion, setMonotonicVersion, hvalue, shiftRight_packed,
    BitVec.toNat_setWidth]
  omega

/-- Over any sequence of boots with any flash contents: no image below a recorded version that fits
into the counter is started again, the recorded version never decreases, and a version that was
recorded is read back with its slot exactly when both fit. -/
theorem boots_antiRollback (page : ProvisionPage cfg.toStorageConfig) (history : List PowerUp) :
    (∀ up image, (bootOnce cfg (pageAfter cfg page.mem history) up).1 = some image →
      image.recorded = true → image.version.toNat ≤ 0x7FFF →
        NeverBelow cfg (pageAfter cfg page.mem history) up image.version) ∧
    (∀ later, (getMonotonicVersion cfg.toStorageConfig (pageAfter cfg page.mem history)).1 ≤
      (getMonotonicVersion cfg.toStorageConfig
        (pageAfter cfg page.mem (history ++ later))).1) ∧
    ∀ version slot,
      (setMonotonicVersion cfg.toStorageConfig (pageAfter cfg page.mem history) version slot).1 =
          .ok () →
        (getMonotonicVersion cfg.toStorageConfig (setMonotonicVersion cfg.toStorageConfig
            (pageAfter cfg page.mem history) version slot).2 = (version, slot) ↔
          version ≤ 0x7FFF#16 ∧ slot ≤ 1#16) := by
  obtain ⟨page', hpage'⟩ := PageRun.page page (pageAfter_pageRun cfg page.mem history)
  refine ⟨?_, ?_, ?_⟩
  · intro up image hboot hrec hfits later last image' hlast
    have hrecorded := recorded_version_le cfg page' hpage' hboot hrec hfits
    have hrun := pageAfter_pageRun cfg (bootOnce cfg (pageAfter cfg page.mem history) up).2 later
    have hlater := BitVec.le_def.mp hrun.version_le
    have hbooted := (main_booted ⟨_, last.flash⟩ hlast).version_le
    rw [BitVec.le_def]
    exact hrecorded.trans (hlater.trans hbooted)
  · intro later
    rw [pageAfter, pageAfter, List.foldl_append]
    exact (pageAfter_pageRun cfg _ later).version_le
  · intro version slot hok
    rw [← hpage'] at hok ⊢
    exact getMonotonicVersion_set_iff page' version slot hok

end Runs

def twoSlotPage : WordMemory := fun w =>
  if w < 0x400 then 0xFFFFFFFF#32
  else ([0x8000#32, 0x10000#32, 1#32, 0xFFFFFFFF#32, 0x0A0B0C0D#32, 0x0A0B0C0D#32, 0x0A0B0C0D#32,
    0x0A0B0C0D#32, 0x00010001#32, 0x00020001#32] : List (BitVec 32)).getD (w - 0x400) 0xFFFFFFFF#32

def demoMagic : List (BitVec 8) := [0x86, 0x1D, 0xEE, 0x28, 0x53, 0x44, 0x5A, 0x1D, 1, 0, 0, 0]

def demoConfig : BootConfig where
  provisionAddress := 0x1000
  publicKeyHashLen := 16
  address_aligned := by decide
  hashLen_aligned := hashLen16_aligned
  firmwareInfoMagic := demoMagic
  validationInfoMagic := demoMagic.reverse
  fwInfoValidVal := 0x9102FFFF
  s0Size := 0x8000
  hashLen := 32
  publicKeyLen := 64
  method := .signature

/-- An image of the given version in the first slot, with its information at offset `0x200` and its
validation information at the end. -/
def imageFlash (version : BitVec 32) : Flash := fun a =>
  if 0x8200 ≤ a.toNat ∧ a.toNat < 0x820C then demoMagic.getD (a.toNat - 0x8200) 0xFF
  else if 0x8400 ≤ a.toNat ∧ a.toNat < 0x840C then demoMagic.reverse.getD (a.toNat - 0x8400) 0xFF
  else
    let words : List (BitVec 32 × BitVec 32) := [(0x8004, 0x8101), (0x820C, 60), (0x8210, 0x400),
      (0x8214, version), (0x8218, 0x8000), (0x821C, 0x8000), (0x8220, 0x9102FFFF), (0x840C, 0x8000)]
    (((words.lookup (a &&& ~~~ 3#32)).getD 0xFFFFFFFF#32) >>> (8 * (a.toNat % 4))).setWidth 8

/-- The image is authentic, and nothing goes wrong while it is started. -/
def powerUp (version : BitVec 32) : PowerUp where
  plat := ⟨true, 0, fun _ _ _ _ _ _ => 0, fun _ _ _ _ => 0, fun _ _ => true⟩
  flash := imageFlash version

def erasedPage : ProvisionPage demoConfig.toStorageConfig where
  mem := twoSlotPage
  erased_above := by
    have herased : ∀ j < numMonotonicCounterSlots demoConfig.toStorageConfig twoSlotPage,
        slotValue twoSlotPage (counterSlots demoConfig.toStorageConfig twoSlotPage) j = 0 := by
      decide
    intro i j _ hj _
    exact herased j hj

/-- Version 5 is recorded, and no later boot goes below it. -/
theorem smallVersion_neverBelow :
    (bootOnce demoConfig twoSlotPage (powerUp 5)).1 = some ⟨5, 0, true⟩ ∧
      NeverBelow demoConfig twoSlotPage (powerUp 5) 5 := by
  have hboot : (bootOnce demoConfig twoSlotPage (powerUp 5)).1 = some ⟨5, 0, true⟩ := by
    decide
  exact ⟨hboot, (boots_antiRollback demoConfig erasedPage []).1 (powerUp 5) ⟨5, 0, true⟩ hboot rfl
    (by decide)⟩

/-- Version `0x8001` is recorded as version 1, and version 2 is started afterwards. -/
theorem largeVersion_undercut :
    (bootOnce demoConfig twoSlotPage (powerUp 0x8001)).1 = some ⟨0x8001, 0, true⟩ ∧
      getMonotonicVersion demoConfig.toStorageConfig
          (bootOnce demoConfig twoSlotPage (powerUp 0x8001)).2 = (1, 0) ∧
      (bootOnce demoConfig (bootOnce demoConfig twoSlotPage (powerUp 0x8001)).2 (powerUp 2)).1 =
        some ⟨2, 0, true⟩ ∧
      ¬ NeverBelow demoConfig twoSlotPage (powerUp 0x8001) 0x8001 := by
  have hlater : (bootOnce demoConfig (bootOnce demoConfig twoSlotPage (powerUp 0x8001)).2
      (powerUp 2)).1 = some ⟨2, 0, true⟩ := by
    decide
  refine ⟨by decide, by decide, hlater, ?_⟩
  intro hnever
  exact absurd (hnever [] (powerUp 2) ⟨2, 0, true⟩ hlater) (by decide)

end SdkNrf.Bootloader
