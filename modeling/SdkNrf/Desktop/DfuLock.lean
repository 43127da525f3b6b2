import SdkNrf.Desktop.DfuImage

/-!
# The DFU lock

The module holds the lock while a transfer is active or an erase is pending.
-/

namespace SdkNrf.Desktop

namespace Dfu

def transferring (s : Dfu) : Bool := s.isFlashAreaClean && s.flashArea

/-- The lock is held exactly while it is needed, has never been released without being held, and
can be taken when nothing is going on, unless another module has taken it. -/
structure Disciplined (s : Dfu) : Prop where
  held : s.dfuLocked = some .dfu ↔ s.transferring = true ∨ s.backgroundErase = true
  unlocks : s.badUnlock = false
  available : s.transferring = false → s.backgroundErase = false → s.dfuLocked ≠ some .smp →
    (dfuLock .dfu s.dfuLocked).2 = true

/-- Data that is accepted does not end the transfer, and a background erase that is run opens the
slot and leaves a clean page. -/
def GoesOn (s : Dfu) : Event → Prop
  | .data data fault => s.transferring = true → data ≠ [] ∧
      (flashAreaWrite s.flash s.curOffset data fault).2 = true ∧
      s.curOffset + data.length ≠ s.imgLength
  | .erase o => s.backgroundErase = true → s.deviceInUse = false →
      (s.flashArea = true ∨ o.opens = true) ∧
        ((o.reads && isPageClean s.flash s.eraseOffset) = true ∨ o.fault = none)
  | _ => True

instance (s : Dfu) (e : Event) : Decidable (GoesOn s e) := by
  cases e <;> unfold GoesOn <;> infer_instance

structure LockInv (s : Dfu) : Prop where
  held : s.dfuLocked = some .dfu ↔ s.transferring = true ∨ s.backgroundErase = true
  unlocks : s.badUnlock = false
  pending : s.backgroundErase = !s.isFlashAreaClean
  timer : s.dfuTimeout = true → s.transferring = true

namespace LockInv

variable {s : Dfu}

theorem disciplined (h : LockInv s) : Disciplined s := by
  refine ⟨h.held, h.unlocks, fun hidle hpending hother => ?_⟩
  have hfree : ¬ s.dfuLocked = some .dfu := by
    rw [h.held]
    simp [hidle, hpending]
  cases hlocked : s.dfuLocked with
  | none => rfl
  | some m => cases m <;> simp_all

theorem clean_of_transferring (h : s.transferring = true) :
    s.isFlashAreaClean = true ∧ s.flashArea = true := by
  simpa [transferring] using h

theorem release (hlocked : s.dfuLocked = some .dfu) (hunlocks : s.badUnlock = false)
    (hclean : s.isFlashAreaClean = true) (harea : s.flashArea = false)
    (hpending : s.backgroundErase = false) (htimer : s.dfuTimeout = false) :
    LockInv s.dfuUnlock := by
  rw [dfuUnlock, if_pos hlocked]
  constructor <;> simp [transferring, hunlocks, hclean, harea, hpending, htimer]

theorem openSlot (hlocked : s.dfuLocked = some .dfu) (hunlocks : s.badUnlock = false)
    (hclean : s.isFlashAreaClean = true) (harea : s.flashArea = false)
    (hpending : s.backgroundErase = false) (htimer : s.dfuTimeout = false) (opens : Bool) :
    LockInv (s.openSlot opens) := by
  have hrelease := release hlocked hunlocks hclean harea hpending htimer
  unfold Dfu.openSlot
  split
  · exact hrelease
  · split
    · exact hrelease
    · constructor <;> simp [transferring, hlocked, hunlocks, hclean, hpending]

theorem handleDfuStart (h : LockInv s) (data : List UInt8) (opens : Bool) :
    LockInv (s.handleDfuStart data opens) := by
  unfold Dfu.handleDfuStart
  split
  · exact h
  · split
    · exact h
    · next hclean =>
      rw [Bool.not_eq_true', Bool.not_eq_false] at hclean
      split
      · exact h
      · next harea =>
        rw [Bool.not_eq_true] at harea
        split
        · exact h
        · next hlock =>
          have hpending : s.backgroundErase = false := by simp [h.pending, hclean]
          have htimer : s.dfuTimeout = false := by
            cases ht : s.dfuTimeout with
            | false => rfl
            | true => simpa [harea] using (clean_of_transferring (h.timer ht)).2
          have hlocked : (dfuLock .dfu s.dfuLocked).1 = some .dfu := by
            by_cases hfree : s.dfuLocked = none <;> simp_all [dfuLock]
          simp only
          split
          · split
            · exact release hlocked h.unlocks hclean harea hpending htimer
            · exact openSlot (s := { s with dfuLocked := (dfuLock .dfu s.dfuLocked).1 })
                hlocked h.unlocks hclean harea hpending htimer opens
          · split
            · constructor <;> simp [transferring, hlocked, h.unlocks, htimer]
            · exact openSlot (s := { s with
                dfuLocked := (dfuLock .dfu s.dfuLocked).1
                imgLength := le32At data 0
                imgCsum := le32At data 4 }) hlocked h.unlocks hclean harea hpending htimer opens

theorem handleDfuData (h : LockInv s) {data : List UInt8} {fault : Option Nat}
    (hgoes : GoesOn s (.data data fault)) : LockInv (s.handleDfuData data fault) := by
  unfold Dfu.handleDfuData
  split
  · exact h
  · next hclean =>
    rw [Bool.not_eq_true', Bool.not_eq_false] at hclean
    split
    · exact h
    · next harea =>
      rw [Bool.not_eq_true', Bool.not_eq_false] at harea
      have htransferring : s.transferring = true := by simp [transferring, hclean, harea]
      obtain ⟨hdata, hwritten, hend⟩ := hgoes htransferring
      have hpending : s.backgroundErase = false := by simp [h.pending, hclean]
      have hlocked := h.held.mpr (Or.inl htransferring)
      simp only [List.length_eq_zero_iff, hdata, hwritten, hend.symm, if_false, Bool.not_true,
        Bool.false_eq_true]
      constructor <;> simp [transferring, hclean, harea, hpending, hlocked, h.unlocks]

theorem timeout (h : LockInv s) (htimer : s.dfuTimeout = true) :
    LockInv { s with dfuTimeout := false }.dfuTimeoutHandler := by
  have htransferring := h.timer htimer
  obtain ⟨hclean, harea⟩ := clean_of_transferring htransferring
  have hlocked := h.held.mpr (Or.inl htransferring)
  have hpending : s.backgroundErase = false := by simp [h.pending, hclean]
  simp only [dfuTimeoutHandler, harea, if_true, dfuUnlock, hlocked]
  constructor <;> simp [transferring, h.unlocks, hclean, hpending]

theorem pageErased (hlocked : s.dfuLocked = some .dfu) (hunlocks : s.badUnlock = false)
    (hclean : s.isFlashAreaClean = false) (hpending : s.backgroundErase = false)
    (htimer : s.dfuTimeout = false) : LockInv s.pageErased := by
  unfold Dfu.pageErased
  simp only
  split
  · constructor <;> simp [transferring, hlocked, hunlocks, hclean, htimer]
  · rw [dfuUnlock, if_pos hlocked]
    constructor <;> simp [transferring, hunlocks, hpending, htimer]

theorem erase (h : LockInv s) {o : EraseStep} (hgoes : GoesOn s (.erase o))
    (hpending : s.backgroundErase = true) :
    LockInv ({ s with backgroundErase := false }.backgroundEraseHandler o) := by
  have hclean : s.isFlashAreaClean = false := by simpa [hpending] using h.pending
  have hlocked := h.held.mpr (Or.inr hpending)
  have htimer : s.dfuTimeout = false := by
    cases ht : s.dfuTimeout with
    | false => rfl
    | true => simpa [hclean] using (clean_of_transferring (h.timer ht)).1
  unfold Dfu.backgroundEraseHandler
  simp only
  split
  · constructor <;> simp [transferring, hlocked, h.unlocks, hclean, htimer]
  · next hinUse =>
    obtain ⟨hopens, hcleans⟩ := hgoes hpending (by simpa using hinUse)
    split
    · next hclosed => rcases hopens with hopens | hopens <;> simp [hopens] at hclosed
    · split
      · exact pageErased hlocked h.unlocks hclean rfl htimer
      · next hpage =>
        have hfault := hcleans.resolve_left hpage
        simp only [hfault]
        exact pageErased hlocked h.unlocks hclean rfl htimer

theorem smpLock (h : LockInv s) :
    LockInv { s with dfuLocked := (dfuLock .smp s.dfuLocked).1 } := by
  have heq : (dfuLock .smp s.dfuLocked).1 = some .dfu ↔ s.dfuLocked = some .dfu := by
    by_cases hfree : s.dfuLocked = none <;> simp [dfuLock, hfree]
  exact ⟨heq.trans h.held, h.unlocks, h.pending, h.timer⟩

theorem step (h : LockInv s) {e : Event} (hgoes : GoesOn s e) : LockInv (s.step e) := by
  cases e with
  | start data opens => exact h.handleDfuStart data opens
  | data data fault => exact h.handleDfuData hgoes
  | timeout =>
    rw [Dfu.step]
    split
    · next htimer => exact h.timeout htimer
    · exact h
  | erase o =>
    rw [Dfu.step]
    split
    · next hpending => exact h.erase hgoes hpending
    · exact h
  | inUse => exact ⟨h.held, h.unlocks, h.pending, h.timer⟩
  | smpLock => exact h.smpLock

theorem ready (flash : List UInt8) : LockInv (ready flash) := by
  constructor <;> simp [Dfu.ready, transferring]

end LockInv

/-- In every state of a run whose transfers end by the timeout and whose erases succeed, the lock is
held exactly while it is needed. -/
theorem dfu_lockDisciplined {flash : List UInt8} {s : Dfu}
    (hs : Reached step GoesOn (ready flash) s) : Disciplined s := by
  have hinv : LockInv s :=
    hs.invariant (LockInv.ready flash) fun _ _ h hgoes => h.step hgoes
  exact hinv.disciplined

def resumed : List Event := startThree ++
  [.data [1, 2] none, .timeout, .start [3, 0, 0, 0, 7, 0, 0, 0, 2, 0, 0, 0] true]

theorem resumed_lockDisciplined :
    (resumed.foldl step (ready onePage)).transferring = true ∧
      Disciplined (resumed.foldl step (ready onePage)) := by
  have hguarded : Reached.Guarded step GoesOn (ready onePage) resumed := by decide +kernel
  have hreached : Reached step GoesOn (ready onePage) (resumed.foldl step (ready onePage)) :=
    Reached.run .start hguarded
  exact ⟨by decide +kernel, dfu_lockDisciplined hreached⟩

/-- The transfer of a complete image keeps the lock: nothing is going on, and no start request can
take it again. -/
theorem threeBytes_notDisciplined :
    (threeBytes.foldl step (ready onePage)).transferring = false ∧
      (threeBytes.foldl step (ready onePage)).backgroundErase = false ∧
      (dfuLock .dfu (threeBytes.foldl step (ready onePage)).dfuLocked).2 = false ∧
      ¬ Disciplined (threeBytes.foldl step (ready onePage)) := by
  have hrun : threeBytes.foldl step (ready onePage) = threeBytes.tail.foldl step cleaned := by
    rw [threeBytes, startThree, List.cons_append, List.foldl_cons, erase_onePage, List.tail_cons]
  rw [hrun]
  have hidle : (threeBytes.tail.foldl step cleaned).transferring = false := by decide +kernel
  have hpending : (threeBytes.tail.foldl step cleaned).backgroundErase = false := by
    decide +kernel
  refine ⟨hidle, hpending, by decide +kernel, fun h => ?_⟩
  rcases h.held.mp (by decide +kernel) with htransferring | herase
  · rw [hidle] at htransferring
    cases htransferring
  · rw [hpending] at herase
    cases herase

end Dfu

end SdkNrf.Desktop
