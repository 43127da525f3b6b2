import SdkNrf.Desktop.Dfu
import SdkNrf.Framework.Erased

/-!
# The image in the slot

While the slot is said to be clean, the bytes in front of the offset are the chunks of the image,
and the others are erased.
-/

namespace SdkNrf.Desktop

namespace Dfu

variable {off : Nat}

theorem program_of_erased {flash data : List UInt8} (h : Erased (flash.drop off))
    (hfits : off + data.length ≤ flash.length) :
    program flash off data = Memory.write flash off data := by
  have hslice : Erased (Memory.slice flash off data.length) := h.take _
  rw [program, zipWith_and_erased hslice (Memory.length_slice hfits)]

theorem length_program {flash data : List UInt8} (h : Erased (flash.drop off))
    (hfits : off + data.length ≤ flash.length) :
    (program flash off data).length = flash.length := by
  rw [program_of_erased h hfits, Memory.length_write hfits]

variable {flash : List UInt8}

theorem length_setPage (page : List UInt8) (h : off + flashPageSize ≤ flash.length) :
    (setPage flash off page).length = flash.length := by
  refine Memory.length_write ?_
  simp only [Memory.slice, List.drop_zero, List.length_take, List.length_append,
    List.length_replicate]
  omega

theorem take_setPage_front (page : List UInt8) (h : off ≤ flash.length) :
    (setPage flash off page).take off = flash.take off :=
  Memory.take_write_front h

theorem erased_setPage (hfront : Erased (flash.take off)) (h : off ≤ flash.length) :
    Erased ((setPage flash off (List.replicate flashPageSize 0xFF)).take (off + flashPageSize)) := by
  have hpage : Memory.slice (List.replicate flashPageSize (0xFF : UInt8) ++
      List.replicate flashPageSize 0) 0 flashPageSize = List.replicate flashPageSize 0xFF := by
    rw [Memory.slice, List.drop_zero, List.take_append_of_le_length (by simp), List.take_of_length_le
      (by simp)]
  have hend : (Memory.write flash off (List.replicate flashPageSize 0xFF)).take
      (off + (List.replicate flashPageSize (0xFF : UInt8)).length) =
      flash.take off ++ List.replicate flashPageSize 0xFF := Memory.take_write_end h
  rw [List.length_replicate] at hend
  rw [setPage, hpage, hend, Erased.append_iff]
  exact ⟨hfront, Erased.replicate _⟩

theorem erased_cleanPage (hfront : Erased (flash.take off)) (h : isPageClean flash off = true) :
    Erased (flash.take (off + flashPageSize)) := by
  rw [Memory.take_add_slice, Erased.append_iff]
  refine ⟨hfront, ?_⟩
  simpa [isPageClean, Erased] using h

/-- What the slot holds while it is said to be clean. -/
structure Intact (s : Dfu) : Prop where
  erased : Erased (s.flash.drop s.curOffset)
  written : s.flash.take s.curOffset = (s.chunks.map Chunk.data).flatten
  described : ∀ c ∈ s.chunks, c.imgLength = s.imgLength ∧ c.imgCsum = s.imgCsum
  offset_eq : s.curOffset = (s.chunks.map Chunk.data).flatten.length
  offset_le : s.curOffset ≤ s.imgLength

def UpgradesComplete (s : Dfu) : Prop := ∀ u ∈ s.upgrades, u.image.length = u.imgLength

/-- A chunk that is written ends inside of the image, and a write that fails leaves the slot as it
was. -/
def Fits (s : Dfu) : Event → Prop
  | .data data none => s.isFlashAreaClean = true → s.flashArea = true →
      s.curOffset + data.length ≤ s.flash.length → s.curOffset + data.length ≤ s.imgLength
  | .data data (some k) => s.isFlashAreaClean = true → s.flashArea = true →
      s.curOffset + data.length ≤ s.flash.length → Erased (data.take k)
  | _ => True

instance (s : Dfu) (e : Event) : Decidable (Fits s e) := by
  rcases e with _ | ⟨data, _ | k⟩ | _ | _ | _ | _ <;> unfold Fits <;> infer_instance

structure ImageInv (s : Dfu) : Prop where
  pages : s.flash.length % flashPageSize = 0
  clean : s.isFlashAreaClean = true →
    Intact s ∧ (∀ c ∈ s.chunks, c.data ≠ []) ∧ s.eraseOffset = 0 ∧ s.backgroundErase = false
  dirty : s.isFlashAreaClean = false → Erased (s.flash.take s.eraseOffset) ∧
    s.eraseOffset % flashPageSize = 0 ∧ s.eraseOffset < s.flash.length ∧ s.curOffset = 0 ∧
      s.chunks = []
  upgrades : UpgradesComplete s

def image (s : Dfu) :
    List UInt8 × Nat × Nat × Nat × Bool × Nat × Bool × List Chunk × List Upgrade :=
  (s.flash, s.curOffset, s.imgCsum, s.imgLength, s.isFlashAreaClean, s.eraseOffset,
    s.backgroundErase, s.chunks, s.upgrades)

namespace ImageInv

variable {s s' : Dfu}

theorem frame (h : ImageInv s) (heq : s'.image = s.image) : ImageInv s' := by
  simp only [image, Prod.mk.injEq] at heq
  obtain ⟨hflash, hoff, hcsum, hlength, hclean, herase, hpending, hchunks, hupgrades⟩ := heq
  constructor
  · simpa only [hflash] using h.pages
  · intro hc
    rw [hclean] at hc
    obtain ⟨hi, hne, he, hb⟩ := h.clean hc
    refine ⟨⟨?_, ?_, ?_, ?_, ?_⟩, ?_, ?_, ?_⟩
    · simpa only [hflash, hoff] using hi.erased
    · simpa only [hflash, hoff, hchunks] using hi.written
    · simpa only [hchunks, hlength, hcsum] using hi.described
    · simpa only [hoff, hchunks] using hi.offset_eq
    · simpa only [hoff, hlength] using hi.offset_le
    · simpa only [hchunks] using hne
    · rw [herase, he]
    · rw [hpending, hb]
  · intro hc
    rw [hclean] at hc
    simpa only [hflash, herase, hoff, hchunks] using h.dirty hc
  · simpa only [UpgradesComplete, hupgrades] using h.upgrades

end ImageInv

@[simp] theorem dfuUnlock_image (s : Dfu) : s.dfuUnlock.image = s.image := by
  unfold dfuUnlock
  split <;> rfl

@[simp] theorem dfuFinish_image (s : Dfu) : s.dfuFinish.image = s.image := rfl

theorem openSlot_image (s : Dfu) (opens : Bool) : (s.openSlot opens).image = s.image := by
  unfold openSlot
  split
  · exact dfuUnlock_image s
  · split
    · exact dfuUnlock_image s
    · rfl

theorem dfuTimeoutHandler_image (s : Dfu) : s.dfuTimeoutHandler.image = s.image := by
  unfold dfuTimeoutHandler
  split
  · exact dfuUnlock_image s
  · rfl

namespace ImageInv

variable {s : Dfu}

theorem offset_le_flash (hi : Intact s) : s.curOffset ≤ s.flash.length := by
  have hlen := congrArg List.length hi.written
  rw [List.length_take, ← hi.offset_eq] at hlen
  omega

theorem program_erased {flash data : List UInt8} {off : Nat} (h : Erased (flash.drop off))
    (hfits : off + data.length ≤ flash.length) (hdata : Erased data) :
    program flash off data = flash := by
  have hslice : Erased (Memory.slice flash off data.length) := h.take _
  have heq := hdata.eq_of_length hslice (Memory.length_slice hfits).symm
  rw [program_of_erased h hfits]
  nth_rewrite 1 [heq]
  exact Memory.write_slice hfits

variable {fault : Option Nat}

theorem flashAreaWrite_ok {flash data : List UInt8} {off : Nat}
    (h : (flashAreaWrite flash off data fault).2 = true) :
    off + data.length ≤ flash.length ∧ fault = none ∧
      (flashAreaWrite flash off data fault).1 = program flash off data := by
  unfold flashAreaWrite at h ⊢
  split at h
  · cases h
  · next hroom =>
    cases fault with
    | none => exact ⟨by omega, rfl, by simp [hroom]⟩
    | some k => cases h

variable {data : List UInt8}

theorem flashAreaWrite_failed (h : ImageInv s) (hclean : s.isFlashAreaClean = true)
    (harea : s.flashArea = true) (hfits : Fits s (.data data fault))
    (hfail : (flashAreaWrite s.flash s.curOffset data fault).2 = false) :
    (flashAreaWrite s.flash s.curOffset data fault).1 = s.flash := by
  have hi := (h.clean hclean).1
  unfold flashAreaWrite at hfail ⊢
  split
  · rfl
  · next hroom =>
    cases fault with
    | none => simp [hroom] at hfail
    | some k =>
      have hk : Erased (data.take k) := hfits hclean harea (by omega)
      have hle : (data.take k).length ≤ data.length := List.length_take_le' k data
      exact program_erased hi.erased (by omega) hk

theorem append (h : ImageInv s) (hclean : s.isFlashAreaClean = true) (hdata : data ≠ [])
    (hroom : s.curOffset + data.length ≤ s.flash.length)
    (hle : s.curOffset + data.length ≤ s.imgLength) :
    ImageInv { s with
      flash := program s.flash s.curOffset data
      curOffset := s.curOffset + data.length
      chunks := s.chunks ++ [⟨s.imgLength, s.imgCsum, data⟩] } := by
  obtain ⟨hi, hne, herase, hpending⟩ := h.clean hclean
  have hprogram := program_of_erased hi.erased hroom
  have hflat : ((s.chunks ++ [Chunk.mk s.imgLength s.imgCsum data]).map Chunk.data).flatten =
      (s.chunks.map Chunk.data).flatten ++ data := by simp
  constructor
  · simpa only [length_program hi.erased hroom] using h.pages
  · intro _
    refine ⟨⟨?_, ?_, ?_, ?_, hle⟩, ?_, herase, hpending⟩
    · simp only [hprogram, Memory.drop_write_end (offset_le_flash hi)]
      exact hi.erased.drop_le (by omega)
    · simp only [hprogram, Memory.take_write_end (offset_le_flash hi), hi.written, hflat]
    · intro c hc
      rcases List.mem_append.mp hc with hc | hc
      · exact hi.described c hc
      · obtain rfl := List.mem_singleton.mp hc
        exact ⟨rfl, rfl⟩
    · simp only [hflat, List.length_append, ← hi.offset_eq]
    · intro c hc
      rcases List.mem_append.mp hc with hc | hc
      · exact hne c hc
      · obtain rfl := List.mem_singleton.mp hc
        exact hdata
  · simp [hclean]
  · exact h.upgrades

theorem upgrade (h : ImageInv s) (hclean : s.isFlashAreaClean = true)
    (hend : s.imgLength = s.curOffset) :
    ImageInv { s with
      upgrades := s.upgrades ++ [⟨s.imgLength, s.flash.take s.curOffset⟩] } := by
  have hle := offset_le_flash (h.clean hclean).1
  refine ⟨h.pages, fun hc => ?_, h.dirty, ?_⟩
  · obtain ⟨hi, hrest⟩ := h.clean hc
    exact ⟨⟨hi.erased, hi.written, hi.described, hi.offset_eq, hi.offset_le⟩, hrest⟩
  · intro u hu
    rcases List.mem_append.mp hu with hu | hu
    · exact h.upgrades u hu
    · obtain rfl := List.mem_singleton.mp hu
      simp [hend, hle]

theorem handleDfuData (h : ImageInv s) (hfits : Fits s (.data data fault)) :
    ImageInv (s.handleDfuData data fault) := by
  unfold Dfu.handleDfuData
  split
  · exact h
  · next hclean =>
    rw [Bool.not_eq_true', Bool.not_eq_false] at hclean
    split
    · exact h
    · next harea =>
      rw [Bool.not_eq_true', Bool.not_eq_false] at harea
      split
      · exact h.frame rfl
      · next hsize =>
        have hdata : data ≠ [] := by simpa using hsize
        simp only
        split
        · next hfail =>
          rw [Bool.not_eq_true'] at hfail
          have hflash := h.flashAreaWrite_failed hclean harea hfits hfail
          exact h.frame (by simp [image, dfuFinish, hflash])
        · next hok =>
          rw [Bool.not_eq_true', Bool.not_eq_false] at hok
          obtain ⟨hroom, rfl, hwritten⟩ := flashAreaWrite_ok hok
          have happend := h.append hclean hdata hroom (hfits hclean harea hroom)
          simp only [hwritten]
          split
          · next hend =>
            exact (happend.upgrade hclean hend).frame rfl
          · exact happend.frame rfl

theorem chunks_eq_nil (h : ImageInv s) (hclean : s.isFlashAreaClean = true)
    (hoff : s.curOffset = 0) : s.chunks = [] := by
  obtain ⟨hi, hne, -⟩ := h.clean hclean
  cases hc : s.chunks with
  | nil => rfl
  | cons c cs =>
    have hlen := hi.offset_eq
    have hdata := List.length_pos_iff.mpr (hne c (by simp [hc]))
    rw [hoff, hc, List.map_cons, List.flatten_cons, List.length_append] at hlen
    omega

theorem describe (h : ImageInv s) (hclean : s.isFlashAreaClean = true) (hoff : s.curOffset = 0)
    (length csum : Nat) : ImageInv { s with imgLength := length, imgCsum := csum } := by
  have hchunks := h.chunks_eq_nil hclean hoff
  obtain ⟨hi, hrest⟩ := h.clean hclean
  refine ⟨h.pages, fun _ => ⟨⟨hi.erased, hi.written, ?_, hi.offset_eq, ?_⟩, hrest⟩, h.dirty,
    h.upgrades⟩
  · simp [hchunks]
  · simp [hoff]

theorem restart (h : ImageInv s) (hclean : s.isFlashAreaClean = true) (hoff : s.curOffset ≠ 0) :
    ImageInv { s with
      backgroundErase := true
      isFlashAreaClean := false
      curOffset := 0
      imgLength := 0
      imgCsum := 0
      chunks := [] } := by
  obtain ⟨hi, -, herase, -⟩ := h.clean hclean
  have hle := offset_le_flash hi
  refine ⟨h.pages, by simp, fun _ => ⟨?_, ?_, ?_, rfl, rfl⟩, h.upgrades⟩
  · simp [herase]
  · simp [herase]
  · simp only [herase]
    omega

theorem handleDfuStart (h : ImageInv s) (data : List UInt8) (opens : Bool) :
    ImageInv (s.handleDfuStart data opens) := by
  unfold Dfu.handleDfuStart
  split
  · exact h
  · split
    · exact h
    · next hclean =>
      rw [Bool.not_eq_true', Bool.not_eq_false] at hclean
      split
      · exact h
      · split
        · exact h
        · have hlocked : ImageInv { s with dfuLocked := (dfuLock .dfu s.dfuLocked).1 } :=
            h.frame rfl
          simp only
          split
          · split
            · exact hlocked.frame (dfuUnlock_image _)
            · exact hlocked.frame (openSlot_image _ _)
          · split
            · next hoff => exact hlocked.restart hclean hoff
            · next hoff =>
              have hdescribe := hlocked.describe hclean (by simpa using hoff)
              exact (hdescribe _ _).frame (openSlot_image _ _)

theorem pageErased (hpages : s.flash.length % flashPageSize = 0)
    (hclean : s.isFlashAreaClean = false)
    (herased : Erased (s.flash.take (s.eraseOffset + flashPageSize)))
    (herase : s.eraseOffset % flashPageSize = 0) (hpending : s.backgroundErase = false)
    (hoff : s.curOffset = 0) (hchunks : s.chunks = []) (hupgrades : UpgradesComplete s) :
    ImageInv s.pageErased := by
  unfold Dfu.pageErased
  simp only
  split
  · next hlt =>
    refine ⟨hpages, by simp [hclean], fun _ => ⟨herased, ?_, hlt, hoff, hchunks⟩, hupgrades⟩
    simp only [flashPageSize] at herase ⊢
    omega
  · next hge =>
    have hall : Erased s.flash := by
      rwa [List.take_of_length_le (by omega)] at herased
    have hdone : ImageInv { s with isFlashAreaClean := true, eraseOffset := 0 } := by
      refine ⟨hpages, fun _ => ⟨⟨?_, ?_, ?_, ?_, ?_⟩, ?_, rfl, hpending⟩, by simp, hupgrades⟩
      · exact hall.drop _
      · simp [hoff, hchunks]
      · simp [hchunks]
      · simp [hoff, hchunks]
      · simp [hoff]
      · simp [hchunks]
    refine hdone.frame ?_
    have hunlock := dfuUnlock_image { s with eraseOffset := s.eraseOffset + flashPageSize }
    simp only [image, Prod.mk.injEq] at hunlock ⊢
    simp [hunlock]

theorem backgroundEraseHandler (h : ImageInv s) (hclean : s.isFlashAreaClean = false)
    (o : EraseStep) :
    ImageInv ({ s with backgroundErase := false }.backgroundEraseHandler o) := by
  obtain ⟨herased, herase, hlt, hoff, hchunks⟩ := h.dirty hclean
  have hpages := h.pages
  have hroom : s.eraseOffset + flashPageSize ≤ s.flash.length := by
    simp only [flashPageSize] at hpages herase ⊢
    omega
  have hidle (pending : Bool) : ImageInv { s with backgroundErase := pending } :=
    ⟨hpages, by simp [hclean], h.dirty, h.upgrades⟩
  unfold Dfu.backgroundEraseHandler
  simp only
  split
  · exact (hidle true).frame rfl
  · split
    · exact hidle false
    · split
      · next hpage =>
        have hpage := (Bool.and_eq_true_iff.mp hpage).2
        exact pageErased hpages hclean (erased_cleanPage herased hpage) herase rfl hoff hchunks
          h.upgrades
      · cases o.fault with
        | none =>
          refine pageErased ?_ hclean (erased_setPage herased hlt.le) herase rfl hoff hchunks
            h.upgrades
          simpa only [length_setPage _ hroom] using hpages
        | some page =>
          refine ⟨?_, by simp [hclean], fun _ => ⟨?_, herase, ?_, hoff, hchunks⟩, h.upgrades⟩
          · simpa only [length_setPage page hroom] using hpages
          · simpa only [take_setPage_front page hlt.le] using herased
          · simpa only [length_setPage page hroom] using hlt

theorem step (h : ImageInv s) {e : Event} (hfits : Fits s e) : ImageInv (s.step e) := by
  cases e with
  | start data opens => exact h.handleDfuStart data opens
  | data data fault => exact h.handleDfuData hfits
  | timeout =>
    rw [Dfu.step]
    split
    · exact h.frame (dfuTimeoutHandler_image _)
    · exact h
  | erase o =>
    rw [Dfu.step]
    split
    · next hpending =>
      refine h.backgroundEraseHandler ?_ o
      cases hclean : s.isFlashAreaClean with
      | false => rfl
      | true =>
        rw [(h.clean hclean).2.2.2] at hpending
        cases hpending
    · exact h
  | inUse => exact h.frame rfl
  | smpLock => exact h.frame rfl

theorem ready {flash : List UInt8} (hpages : flash.length % flashPageSize = 0)
    (hsize : 0 < flash.length) : ImageInv (ready flash) :=
  ⟨hpages, by simp [Dfu.ready], fun _ => ⟨by simp [Dfu.ready], rfl, hsize, rfl, rfl⟩,
    by simp [UpgradesComplete, Dfu.ready]⟩

end ImageInv

/-- In every state of a run in which the chunks fit, the slot holds the image as far as it has been
received, and upgrades have been requested for complete images only. -/
theorem dfu_imageIntact {flash : List UInt8} (hpages : flash.length % flashPageSize = 0)
    (hsize : 0 < flash.length) {s : Dfu} (hs : Reached step Fits (ready flash) s) :
    (s.isFlashAreaClean = true → Intact s) ∧ UpgradesComplete s := by
  have hinv : ImageInv s :=
    hs.invariant (ImageInv.ready hpages hsize) fun _ _ h hfits => h.step hfits
  exact ⟨fun hclean => (hinv.clean hclean).1, hinv.upgrades⟩

def onePage : List UInt8 := List.replicate 4096 0xFF

def cleaned : Dfu := { ready onePage with
  dfuLocked := none
  isFlashAreaClean := true
  backgroundErase := false }

theorem erase_onePage : (ready onePage).step (.erase ⟨true, true, none⟩) = cleaned := by
  have hclean : isPageClean onePage 0 = true := by
    rw [isPageClean, List.all_eq_true]
    intro b hb
    have hmem : b ∈ onePage := List.mem_of_mem_drop (List.mem_of_mem_take hb)
    exact decide_eq_true (List.eq_of_mem_replicate hmem)
  simp [step, Dfu.backgroundEraseHandler, Dfu.pageErased, dfuUnlock, ready, cleaned, hclean,
    show onePage.length = 4096 from List.length_replicate, flashPageSize]

def startThree : List Event :=
  [.erase ⟨true, true, none⟩, .start [3, 0, 0, 0, 7, 0, 0, 0, 0, 0, 0, 0] true]

def threeBytes : List Event := startThree ++ [.data [1, 2] none, .data [3] none]

theorem threeBytes_imageIntact :
    (threeBytes.foldl step (ready onePage)).upgrades = [⟨3, [1, 2, 3]⟩] ∧
      Intact (threeBytes.foldl step (ready onePage)) := by
  have hguarded : Reached.Guarded step Fits (ready onePage) threeBytes := by decide +kernel
  have hreached : Reached step Fits (ready onePage) (threeBytes.foldl step (ready onePage)) :=
    Reached.run .start hguarded
  have hclean : (threeBytes.foldl step (ready onePage)).isFlashAreaClean = true := by
    decide +kernel
  refine ⟨by decide +kernel, ?_⟩
  exact (dfu_imageIntact (by decide +kernel) (by decide +kernel) hreached).1 hclean

def longChunk : List Event := startThree ++ [.data [1, 2, 3, 4] none]

def failedWrite : List Event := startThree ++ [.data [1, 2, 3] (some 1)]

/-- The long chunk is written as a whole, and the first byte of the failed write stays in a slot
that is still said to be clean. -/
theorem longChunk_notIntact :
    ((longChunk.foldl step (ready onePage)).isFlashAreaClean = true ∧
      (longChunk.foldl step (ready onePage)).imgLength = 3 ∧
      (longChunk.foldl step (ready onePage)).curOffset = 4) ∧
    (failedWrite.foldl step (ready onePage)).isFlashAreaClean = true ∧
      (failedWrite.foldl step (ready onePage)).curOffset = 0 ∧
      ¬ Intact (failedWrite.foldl step (ready onePage)) := by
  simp only [longChunk, failedWrite, startThree, List.cons_append, List.nil_append,
    List.foldl_cons, erase_onePage]
  refine ⟨by decide +kernel, by decide +kernel, by decide +kernel, fun h => ?_⟩
  exact absurd (h.erased 1 (by decide +kernel)) (by decide)

end Dfu

end SdkNrf.Desktop
