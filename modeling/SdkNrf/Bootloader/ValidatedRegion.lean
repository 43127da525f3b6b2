import SdkNrf.Bootloader.AntiRollback

/-!
# What a validated image may contain

The range tests of `validate_firmware` compare end addresses that were formed modulo `2 ^ 32`.
-/

namespace SdkNrf.Bootloader

theorem within_iff {addr start stop : BitVec 32} :
    within addr start stop = true ↔ start.toNat ≤ addr.toNat ∧ addr.toNat < stop.toNat := by
  simp only [within, Bool.and_eq_true, Bool.not_eq_true', decide_eq_false_iff_not,
    decide_eq_true_eq, BitVec.lt_def]
  omega

/-- A test against `start + size` fails when the sum wraps. -/
theorem within_add_iff {addr start size : BitVec 32} : within addr start (start + size) = true ↔
    start.toNat ≤ addr.toNat ∧ addr.toNat < start.toNat + size.toNat ∧
      start.toNat + size.toNat < 2 ^ 32 := by
  have hstart := start.isLt
  have hsize := size.isLt
  have haddr := addr.isLt
  rw [within_iff, BitVec.toNat_add]
  omega

/-- Both ends of the inner region are tested. An empty inner region has its last byte in front of
its first one. -/
theorem regionWithin_add_iff {inner innerSize start size : BitVec 32}
    (hle : innerSize.toNat ≤ size.toNat) :
    regionWithin inner (inner + innerSize) start (start + size) = true ↔
      start.toNat ≤ inner.toNat ∧ inner.toNat < start.toNat + size.toNat ∧
        inner.toNat + innerSize.toNat ≤ start.toNat + size.toNat ∧
        start.toNat < inner.toNat + innerSize.toNat ∧ start.toNat + size.toNat < 2 ^ 32 := by
  have hstart := start.isLt
  have hsize := size.isLt
  have hinner := inner.isLt
  have hone : (1 : BitVec 32).toNat = 1 := rfl
  simp only [regionWithin, Bool.and_eq_true, Bool.not_eq_true', decide_eq_false_iff_not,
    within_add_iff, BitVec.lt_def, BitVec.toNat_sub, BitVec.toNat_add, hone]
  omega

section Checked

variable {cfg : BootConfig} {flash : Flash} {mem : WordMemory} {dst src fwInfo : BitVec 32}
  {external : Bool}

structure CheckedRegions (cfg : BootConfig) (flash : Flash) (dst src fwInfo : BitVec 32) :
    Prop where
  address : dst = fwAddress flash fwInfo
  slot : (fwSize flash fwInfo).toNat ≤ cfg.s0Size.toNat
  total : (fwTotalSize flash fwInfo).toNat ≤ (fwSize flash fwInfo).toNat
  info : regionWithin fwInfo (fwInfo + fwTotalSize flash fwInfo) src
    (src + fwSize flash fwInfo) = true
  boot : within (fwBootAddress flash fwInfo) dst (dst + fwSize flash fwInfo) = true
  reset : within (flash.word (fwBootAddress flash fwInfo + 4)) dst
    (dst + fwSize flash fwInfo) = true

theorem checkedRegions_of_checkFirmware
    (h : checkFirmware cfg flash mem dst src fwInfo external = true) :
    CheckedRegions cfg flash dst src fwInfo := by
  simp only [checkFirmware, Bool.and_eq_true, Bool.not_eq_true', decide_eq_false_iff_not,
    decide_eq_true_eq, BitVec.not_lt, BitVec.le_def] at h
  obtain ⟨⟨⟨⟨⟨⟨⟨⟨⟨⟨⟨-, -⟩, haddress⟩, -⟩, -⟩, -⟩, -⟩, hslot⟩, htotal⟩, hinfo⟩, hboot⟩, hreset⟩ := h
  exact ⟨haddress, hslot, htotal, hinfo, hboot, hreset⟩

theorem checkFirmware_of_validateFirmware {plat : Platform}
    (h : (validateFirmware cfg flash plat mem dst src fwInfo external).1 = true) :
    checkFirmware cfg flash mem dst src fwInfo external = true := by
  rw [validateFirmware] at h
  cases hcheck : checkFirmware cfg flash mem dst src fwInfo external with
  | false => simp [hcheck] at h
  | true => rfl

end Checked

/-- `vector_table[1]`, where `bl_boot` jumps to. -/
def resetHandler (flash : Flash) (fwInfo : BitVec 32) : BitVec 32 :=
  flash.word (fwAddress flash fwInfo + 4)

/-- The firmware information lies in the image, the image fits into a slot, and its end does not
wrap. -/
structure InfoInside (cfg : BootConfig) (flash : Flash) (fwInfo : BitVec 32) : Prop where
  noWrap : (fwAddress flash fwInfo).toNat + (fwSize flash fwInfo).toNat < 2 ^ 32
  slot : (fwSize flash fwInfo).toNat ≤ cfg.s0Size.toNat
  infoStart : (fwAddress flash fwInfo).toNat ≤ fwInfo.toNat
  infoEnd : fwInfo.toNat + (fwTotalSize flash fwInfo).toNat ≤
    (fwAddress flash fwInfo).toNat + (fwSize flash fwInfo).toNat

/-- Everything that a boot uses lies in the image, the reset handler included. -/
structure BootsInside (cfg : BootConfig) (flash : Flash) (fwInfo : BitVec 32) : Prop
    extends InfoInside cfg flash fwInfo where
  resetStart : (fwAddress flash fwInfo).toNat ≤ (resetHandler flash fwInfo).toNat
  resetEnd : (resetHandler flash fwInfo).toNat <
    (fwAddress flash fwInfo).toNat + (fwSize flash fwInfo).toNat

/-- A validated image has its firmware information inside. It boots inside itself if the vector table
that was validated is the one that is used. -/
theorem blValidateFirmwareLocal_bootsInside {cfg : BootConfig} {flash : Flash}
    {plat : Platform} {mem : WordMemory} {fwInfo : BitVec 32}
    (h : (blValidateFirmwareLocal cfg flash plat mem (fwAddress flash fwInfo) fwInfo).1 = true) :
    InfoInside cfg flash fwInfo ∧
      (fwBootAddress flash fwInfo = fwAddress flash fwInfo → BootsInside cfg flash fwInfo) := by
  have hchecked := checkedRegions_of_checkFirmware (checkFirmware_of_validateFirmware h)
  have hinfo := (regionWithin_add_iff hchecked.total).mp hchecked.info
  have hinside : InfoInside cfg flash fwInfo :=
    ⟨hinfo.2.2.2.2, hchecked.slot, hinfo.1, hinfo.2.2.1⟩
  refine ⟨hinside, fun hsame => ?_⟩
  have hvalid := within_add_iff.mp hchecked.reset
  rw [hsame] at hvalid
  exact ⟨hinside, hvalid.1, hvalid.2.1⟩

def Flash.withWords (flash : Flash) (words : List (BitVec 32 × BitVec 32)) : Flash := fun a =>
  ((words.lookup (a &&& ~~~ 3#32)).map fun word : BitVec 32 =>
    (word >>> (8 * (a.toNat % 4))).setWidth 8).getD (flash a)

/-- An image whose vector table at `boot_address` is sound, while the one at `address` names a
reset handler behind the slot. -/
def strayFlash : Flash :=
  (imageFlash 5).withWords [(0x821C, 0x8100), (0x8104, 0x8101), (0x8004, 0x20001)]

theorem image_bootsInside : BootsInside demoConfig (imageFlash 5) 0x8200 := by
  have hvalid : (blValidateFirmwareLocal demoConfig (imageFlash 5) (powerUp 5).plat twoSlotPage
      (fwAddress (imageFlash 5) 0x8200) 0x8200).1 = true := by
    decide
  exact (blValidateFirmwareLocal_bootsInside hvalid).2 (by decide)

theorem strayFlash_bootsOutside :
    (blValidateFirmwareLocal demoConfig strayFlash (powerUp 5).plat twoSlotPage
        (fwAddress strayFlash 0x8200) 0x8200).1 = true ∧
      resetHandler strayFlash 0x8200 = 0x20001 ∧ ¬ BootsInside demoConfig strayFlash 0x8200 := by
  refine ⟨by decide, by decide, ?_⟩
  intro hinside
  exact absurd hinside.resetEnd (by decide)

end SdkNrf.Bootloader
