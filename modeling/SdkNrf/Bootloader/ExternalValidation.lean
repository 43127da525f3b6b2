import SdkNrf.Bootloader.ValidatedRegion

/-!
# External validation

`bl_validate_firmware` checks an image at `src` before it is copied to `dst`, where
`bl_validate_firmware_local` checks it again.
-/

namespace SdkNrf.Bootloader

def blValidateFirmware (cfg : BootConfig) (flash : Flash) (plat : Platform) (mem : WordMemory)
    (fwDstAddress fwSrcAddress : BitVec 32) : Bool × WordMemory :=
  validateFirmware cfg flash plat mem fwDstAddress fwSrcAddress (fwInfoFind cfg flash fwSrcAddress)
    true

/-- The flash after `length` bytes have been copied from `src` to `dst`. -/
def Flash.copied (flash : Flash) (src dst : BitVec 32) (length : Nat) : Flash := fun a =>
  if (a - dst).toNat < length then flash (src + (a - dst)) else flash a

/-- `flash'` has at `dst` the `length` bytes that `flash` has at `src`. -/
structure Relocated (flash flash' : Flash) (src dst : BitVec 32) (length : Nat) : Prop where
  length_le : length ≤ 2 ^ 32
  byte : ∀ o : BitVec 32, o.toNat < length → flash' (dst + o) = flash (src + o)

theorem Flash.copied_relocated (flash : Flash) (src dst : BitVec 32) {length : Nat}
    (h : length ≤ 2 ^ 32) : Relocated flash (flash.copied src dst length) src dst length where
  length_le := h
  byte := by
    intro o ho
    rw [copied, add_sub_cancel_left, if_pos ho]

/-- The bytes from `a` on. -/
def Flash.bytes (flash : Flash) (a : BitVec 32) (n : Nat) : List (BitVec 8) :=
  (List.range n).map fun i => flash (a + BitVec.ofNat 32 i)

theorem toNat_add_ofNat {o : BitVec 32} {k : Nat} (h : o.toNat + k < 2 ^ 32) :
    (o + BitVec.ofNat 32 k).toNat = o.toNat + k := by
  rw [BitVec.toNat_add, BitVec.toNat_ofNat]
  omega

namespace Relocated

variable {flash flash' : Flash} {src dst : BitVec 32} {length : Nat}

variable {o : BitVec 32}

theorem byte_add (h : Relocated flash flash' src dst length) {k : Nat} (hk : o.toNat + k < length) :
    flash' (dst + o + BitVec.ofNat 32 k) = flash (src + o + BitVec.ofNat 32 k) := by
  have hlen := h.length_le
  rw [BitVec.add_assoc, BitVec.add_assoc]
  apply h.byte
  rw [toNat_add_ofNat (by omega)]
  exact hk

theorem word (h : Relocated flash flash' src dst length) (ho : o.toNat + 4 ≤ length) :
    flash'.word (dst + o) = flash.word (src + o) := by
  have h0 := h.byte o (by omega)
  have h1 : flash' (dst + o + 1) = flash (src + o + 1) := h.byte_add (k := 1) (by omega)
  have h2 : flash' (dst + o + 2) = flash (src + o + 2) := h.byte_add (k := 2) (by omega)
  have h3 : flash' (dst + o + 3) = flash (src + o + 3) := h.byte_add (k := 3) (by omega)
  rw [Flash.word, Flash.word, h0, h1, h2, h3]

theorem word_add (h : Relocated flash flash' src dst length) {k : Nat}
    (hk : o.toNat + k + 4 ≤ length) :
    flash'.word (dst + o + BitVec.ofNat 32 k) = flash.word (src + o + BitVec.ofNat 32 k) := by
  have hlen := h.length_le
  rw [BitVec.add_assoc, BitVec.add_assoc]
  apply h.word
  rw [toNat_add_ofNat (by omega)]
  exact hk

theorem holds (h : Relocated flash flash' src dst length) (bytes : List (BitVec 8))
    (ho : o.toNat + bytes.length ≤ length) :
    flash'.holds (dst + o) bytes = flash.holds (src + o) bytes := by
  have hlen := h.length_le
  induction bytes generalizing o with
  | nil => rfl
  | cons byte bytes ih =>
    rw [List.length_cons] at ho
    rw [Flash.holds, Flash.holds, h.byte o (by omega)]
    cases bytes with
    | nil => rfl
    | cons byte' bytes =>
      rw [List.length_cons] at ho
      have hone : (o + 1).toNat = o.toNat + 1 := toNat_add_ofNat (k := 1) (by omega)
      rw [BitVec.add_assoc, BitVec.add_assoc, ih (by rw [hone, List.length_cons]; omega)]

theorem bytes (h : Relocated flash flash' src dst length) {n : Nat} (ho : o.toNat + n ≤ length) :
    flash'.bytes (dst + o) n = flash.bytes (src + o) n := by
  apply List.map_congr_left
  intro i hi
  rw [List.mem_range] at hi
  exact h.byte_add (by omega)

end Relocated

section Checks

variable (cfg : BootConfig) (flash : Flash)

def checkInfo (mem : WordMemory) (fwDstAddress fwSrcAddress fwInfo : BitVec 32)
    (external : Bool) : Bool :=
  fwInfo ≠ 0 && fwInfoCheck cfg flash fwInfo ≠ 0 && fwDstAddress = fwAddress flash fwInfo &&
    (external || fwSrcAddress = fwDstAddress) && fwInfoFind cfg flash fwSrcAddress = fwInfo &&
    fwValid flash fwInfo = cfg.fwInfoValidVal &&
    !(decide ((fwVersion flash fwInfo).toNat <
      (getMonotonicVersion cfg.toStorageConfig mem).1.toNat)) &&
    !(decide (cfg.s0Size < fwSize flash fwInfo)) &&
    !(decide (fwSize flash fwInfo < fwTotalSize flash fwInfo)) &&
    regionWithin fwInfo (fwInfo + fwTotalSize flash fwInfo) fwSrcAddress
      (fwSrcAddress + fwSize flash fwInfo) &&
    within (fwBootAddress flash fwInfo) fwDstAddress (fwDstAddress + fwSize flash fwInfo)

def checkCrypto (plat : Platform) (mem : WordMemory) (fwSrcAddress fwInfo : BitVec 32) :
    Bool × WordMemory :=
  let fwValInfo := validationInfoFind cfg flash (fwSrcAddress + fwSize flash fwInfo) 4
  if fwValInfo = 0 then (false, mem)
  else if flash.word (fwValInfo + 12) ≠ fwAddress flash fwInfo then (false, mem)
  else match cfg.method with
    | .signature => validateSignature cfg flash plat mem fwSrcAddress (fwSize flash fwInfo) fwValInfo
    | .hash => (validateHash flash plat fwSrcAddress (fwSize flash fwInfo) fwValInfo, mem)

variable {cfg flash}

theorem validateFirmware_eq_true_iff {plat : Platform} {mem : WordMemory}
    {dst src fwInfo : BitVec 32} {external : Bool} :
    (validateFirmware cfg flash plat mem dst src fwInfo external).1 = true ↔
      checkInfo cfg flash mem dst src fwInfo external = true ∧
        within (flash.word (fwBootAddress flash fwInfo + 4)) dst (dst + fwSize flash fwInfo) =
          true ∧
        (checkCrypto cfg flash plat mem src fwInfo).1 = true := by
  have hcheck : checkFirmware cfg flash mem dst src fwInfo external =
      (checkInfo cfg flash mem dst src fwInfo external &&
        within (flash.word (fwBootAddress flash fwInfo + 4)) dst
          (dst + fwSize flash fwInfo)) := rfl
  have hvalidate : validateFirmware cfg flash plat mem dst src fwInfo external =
      if !checkFirmware cfg flash mem dst src fwInfo external then (false, mem)
      else checkCrypto cfg flash plat mem src fwInfo := rfl
  rw [← and_assoc, ← Bool.and_eq_true, ← hcheck, hvalidate]
  cases checkFirmware cfg flash mem dst src fwInfo external <;> simp

end Checks

theorem validateSignatureLoop_congr {cfg : BootConfig} {plat : Platform} {flash flash' : Flash}
    {src src' size valInfo valInfo' : BitVec 32}
    (h : ∀ keyData, plat.rotVerify flash' (valInfo' + 16 + cfg.hashLen) keyData
        (valInfo' + 16 + cfg.hashLen + cfg.publicKeyLen) src' size =
      plat.rotVerify flash (valInfo + 16 + cfg.hashLen) keyData
        (valInfo + 16 + cfg.hashLen + cfg.publicKeyLen) src size) (n idx : Nat)
    (mem : WordMemory) :
    validateSignatureLoop cfg flash' plat src' size valInfo' n idx mem =
      validateSignatureLoop cfg flash plat src size valInfo n idx mem := by
  induction n generalizing idx with
  | zero => rfl
  | succ n ih => simp only [validateSignatureLoop, h, ih]

structure ImageCrypto where
  signatureLen : Nat
  cryptoInit : Int
  /-- The public key, the hash of the provisioned key, the signature and the firmware. -/
  rotVerify : List (BitVec 8) → List (BitVec 32) → List (BitVec 8) → List (BitVec 8) → Int
  /-- The firmware and its hash. -/
  sha256Verify : List (BitVec 8) → List (BitVec 8) → Int

def ImageCrypto.platform (crypto : ImageCrypto) (cfg : BootConfig) : Platform where
  fprotectBootloader := true
  cryptoInit := crypto.cryptoInit
  rotVerify := fun flash publicKey keyData signature firmware size =>
    crypto.rotVerify (flash.bytes publicKey cfg.publicKeyLen.toNat) keyData
      (flash.bytes signature crypto.signatureLen) (flash.bytes firmware size.toNat)
  sha256Verify := fun flash firmware size hash =>
    crypto.sha256Verify (flash.bytes firmware size.toNat) (flash.bytes hash cfg.hashLen.toNat)
  blBoot := fun _ _ => true

/-- `sizeof(struct fw_validation_info)`. -/
def validationInfoSize (cfg : BootConfig) (crypto : ImageCrypto) : Nat :=
  16 + cfg.hashLen.toNat + cfg.publicKeyLen.toNat + crypto.signatureLen

/-- `length` bytes at `src` that can be copied to `dst`. They hold the firmware information, the
firmware, and the validation info, which starts at most four bytes behind the firmware. Address
zero is the null pointer and not the address of an image. -/
structure StoredImage (cfg : BootConfig) (crypto : ImageCrypto) (flash : Flash)
    (src dst : BitVec 32) (length : Nat) : Prop where
  firmwareMagic : cfg.firmwareInfoMagic.length = 12
  validationMagic : cfg.validationInfoMagic.length = 12
  src_ne : src ≠ 0
  dst_ne : dst ≠ 0
  src_fits : src.toNat + length ≤ 2 ^ 32
  dst_fits : dst.toNat + length ≤ 2 ^ 32
  info : fwInfoFind cfg flash src ≠ 0
  infoInside : (fwInfoFind cfg flash src - src).toNat + 60 ≤ length
  imageInside : (fwSize flash (fwInfoFind cfg flash src)).toNat + 4 +
    validationInfoSize cfg crypto ≤ length

theorem add_ne_zero_of_fits {a o : BitVec 32} (ha : a ≠ 0) (h : a.toNat + o.toNat < 2 ^ 32) :
    a + o ≠ 0 := by
  have hpos : a.toNat ≠ 0 := fun h0 => ha (BitVec.eq_of_toNat_eq h0)
  intro hzero
  have := congrArg BitVec.toNat hzero
  rw [BitVec.toNat_add, Nat.mod_eq_of_lt h] at this
  change a.toNat + o.toNat = 0 at this
  omega

section Info

variable {cfg : BootConfig} {flash : Flash} {a : BitVec 32}

theorem fwInfoCheck_ne_zero : fwInfoCheck cfg flash a ≠ 0 ↔
    flash.holds a cfg.firmwareInfoMagic = true ∧ a ≠ 0 := by
  rw [fwInfoCheck]
  split <;> simp_all

theorem fwInfoFind_eq_of_first {off : BitVec 32} {pre post : List (BitVec 32)}
    (hsplit : fwInfoAllowedOffsets = pre ++ off :: post)
    (hpre : ∀ o ∈ pre, fwInfoCheck cfg flash (a + o) = 0)
    (hoff : fwInfoCheck cfg flash (a + off) ≠ 0) : fwInfoFind cfg flash a = a + off := by
  have hpre' : (pre.map fun o => fwInfoCheck cfg flash (a + o)).find? (· ≠ 0) = none := by
    simpa using hpre
  have hvalue : fwInfoCheck cfg flash (a + off) = a + off := by
    rw [fwInfoCheck, if_pos (fwInfoCheck_ne_zero.mp hoff).1]
  rw [fwInfoFind, hsplit, List.map_append, List.find?_append, hpre', Option.none_or, List.map_cons,
    List.find?_cons_of_pos (by simpa using hoff), Option.getD_some, hvalue]

theorem exists_offset_of_fwInfoFind (h : fwInfoFind cfg flash a ≠ 0) :
    ∃ pre off post, fwInfoAllowedOffsets = pre ++ off :: post ∧
      (∀ o ∈ pre, fwInfoCheck cfg flash (a + o) = 0) ∧ fwInfoCheck cfg flash (a + off) ≠ 0 := by
  have hsome : ∃ off ∈ fwInfoAllowedOffsets, fwInfoCheck cfg flash (a + off) ≠ 0 := by
    by_contra hnone
    apply h
    rw [fwInfoFind, List.find?_eq_none.mpr, Option.getD_none]
    intro x hx
    obtain ⟨off, hoff, rfl⟩ := List.mem_map.mp hx
    simpa using fun hne => hnone ⟨off, hoff, hne⟩
  obtain ⟨off, hmem, hne⟩ := hsome
  cases hfind : fwInfoAllowedOffsets.find? fun o => fwInfoCheck cfg flash (a + o) ≠ 0 with
  | none => exact absurd hne (by simpa using List.find?_eq_none.mp hfind off hmem)
  | some found =>
    obtain ⟨hfound, pre, post, hsplit, hpre⟩ := List.find?_eq_some_iff_append.mp hfind
    exact ⟨pre, found, post, hsplit, by simpa using hpre, by simpa using hfound⟩

theorem fwInfoCheck_fwInfoFind (h : fwInfoFind cfg flash a ≠ 0) :
    fwInfoCheck cfg flash (fwInfoFind cfg flash a) ≠ 0 := by
  obtain ⟨pre, off, post, hsplit, hpre, hoff⟩ := exists_offset_of_fwInfoFind h
  rwa [fwInfoFind_eq_of_first hsplit hpre hoff]

theorem offsets_lt {off : BitVec 32} {pre post : List (BitVec 32)}
    (hsplit : fwInfoAllowedOffsets = pre ++ off :: post) : ∀ o ∈ pre, o.toNat < off.toNat := by
  have hsorted : fwInfoAllowedOffsets.Pairwise fun o o' => o.toNat < o'.toNat := by decide
  rw [hsplit, List.pairwise_append] at hsorted
  intro o ho
  exact hsorted.2.2 o ho off (List.mem_cons_self ..)

end Info

namespace StoredImage

variable {cfg : BootConfig} {crypto : ImageCrypto} {flash : Flash} {src dst : BitVec 32}
  {length : Nat}

theorem relocated (h : StoredImage cfg crypto flash src dst length) :
    Relocated flash (flash.copied src dst length) src dst length :=
  flash.copied_relocated src dst (by have := h.src_fits; omega)

theorem fwInfoFind_copied (h : StoredImage cfg crypto flash src dst length) :
    fwInfoFind cfg (flash.copied src dst length) dst =
      dst + (fwInfoFind cfg flash src - src) := by
  have hsrc := h.src_fits
  have hdst := h.dst_fits
  have hmagic := h.firmwareMagic
  obtain ⟨pre, off, post, hsplit, hpre, hoff⟩ := exists_offset_of_fwInfoFind h.info
  have hlt := offsets_lt hsplit
  have hinfo := fwInfoFind_eq_of_first hsplit hpre hoff
  have hinside := h.infoInside
  rw [hinfo, add_sub_cancel_left] at hinside ⊢
  have hcheck : ∀ o : BitVec 32, o.toNat ≤ off.toNat →
      (fwInfoCheck cfg (flash.copied src dst length) (dst + o) ≠ 0 ↔
        fwInfoCheck cfg flash (src + o) ≠ 0) := by
    intro o ho
    have hs := add_ne_zero_of_fits (o := o) h.src_ne (by omega)
    have hd := add_ne_zero_of_fits (o := o) h.dst_ne (by omega)
    rw [fwInfoCheck_ne_zero, fwInfoCheck_ne_zero,
      h.relocated.holds cfg.firmwareInfoMagic (by omega)]
    exact and_congr_right fun _ => iff_of_true hd hs
  apply fwInfoFind_eq_of_first hsplit
  · intro o ho
    by_contra hne
    exact (hcheck o (hlt o ho).le).mp hne (hpre o ho)
  · exact (hcheck off (le_refl _)).mpr hoff

theorem validationInfoFind_copied (h : StoredImage cfg crypto flash src dst length)
    {size : BitVec 32} (hsize : size = fwSize flash (fwInfoFind cfg flash src)) :
    (validationInfoFind cfg flash (src + size) 4 = 0 ∧
      validationInfoFind cfg (flash.copied src dst length) (dst + size) 4 = 0) ∨
    ∃ o, o.toNat + validationInfoSize cfg crypto ≤ length ∧ src + o ≠ 0 ∧ dst + o ≠ 0 ∧
      validationInfoFind cfg flash (src + size) 4 = src + o ∧
      validationInfoFind cfg (flash.copied src dst length) (dst + size) 4 = dst + o := by
  subst hsize
  have hsrc := h.src_fits
  have hdst := h.dst_fits
  have hmagic := h.validationMagic
  have hinside := h.imageInside
  rw [validationInfoSize] at hinside
  set size := fwSize flash (fwInfoFind cfg flash src)
  have hoffset : ∀ i < 5, (size + BitVec.ofNat 32 i).toNat = size.toNat + i := fun i hi =>
    toNat_add_ofNat (by omega)
  have hsame : ∀ i < 5, ((flash.copied src dst length).holds (dst + size + BitVec.ofNat 32 i)
        cfg.validationInfoMagic && decide (dst + size + BitVec.ofNat 32 i ≠ 0)) =
      (flash.holds (src + size + BitVec.ofNat 32 i) cfg.validationInfoMagic &&
        decide (src + size + BitVec.ofNat 32 i ≠ 0)) := by
    intro i hi
    have ho := hoffset i hi
    rw [BitVec.add_assoc, BitVec.add_assoc, h.relocated.holds cfg.validationInfoMagic (by omega)]
    have hs := add_ne_zero_of_fits (o := size + BitVec.ofNat 32 i) h.src_ne (by omega)
    have hd := add_ne_zero_of_fits (o := size + BitVec.ofNat 32 i) h.dst_ne (by omega)
    simp only [hs, hd, ne_eq, not_false_eq_true]
  have hfind := List.find?_congr fun i hi => hsame i (List.mem_range.mp hi)
  rw [validationInfoFind, validationInfoFind, List.find?_map, List.find?_map]
  simp only [Function.comp_def, Nat.reduceAdd, hfind]
  cases hi : (List.range 5).find? fun i =>
      flash.holds (src + size + BitVec.ofNat 32 i) cfg.validationInfoMagic &&
        decide (src + size + BitVec.ofNat 32 i ≠ 0) with
  | none => exact .inl ⟨rfl, rfl⟩
  | some i =>
    have hlt := List.mem_range.mp (List.mem_of_find?_eq_some hi)
    have ho := hoffset i hlt
    refine .inr ⟨size + BitVec.ofNat 32 i, ?_, ?_, ?_, ?_, ?_⟩
    · rw [ho, validationInfoSize]
      omega
    · exact add_ne_zero_of_fits h.src_ne (by omega)
    · exact add_ne_zero_of_fits h.dst_ne (by omega)
    · exact BitVec.add_assoc ..
    · exact BitVec.add_assoc ..

theorem infoWord_copied (h : StoredImage cfg crypto flash src dst length) {k : Nat}
    (hk : k + 4 ≤ 60) :
    (flash.copied src dst length).word
        (dst + (fwInfoFind cfg flash src - src) + BitVec.ofNat 32 k) =
      flash.word (fwInfoFind cfg flash src + BitVec.ofNat 32 k) := by
  have hinside := h.infoInside
  rw [h.relocated.word_add (by omega), add_sub_cancel]

theorem checkCrypto_copied (h : StoredImage cfg crypto flash src dst length) (mem : WordMemory) :
    checkCrypto cfg (flash.copied src dst length) (crypto.platform cfg) mem dst
        (dst + (fwInfoFind cfg flash src - src)) =
      checkCrypto cfg flash (crypto.platform cfg) mem src (fwInfoFind cfg flash src) := by
  have hsize : fwSize (flash.copied src dst length) (dst + (fwInfoFind cfg flash src - src)) =
      fwSize flash (fwInfoFind cfg flash src) := h.infoWord_copied (k := 16) (by decide)
  have haddress : fwAddress (flash.copied src dst length)
      (dst + (fwInfoFind cfg flash src - src)) = fwAddress flash (fwInfoFind cfg flash src) :=
    h.infoWord_copied (k := 24) (by decide)
  have hsrc := h.src_fits
  have hinside := h.imageInside
  rw [checkCrypto, checkCrypto, hsize, haddress]
  rcases h.validationInfoFind_copied rfl with ⟨hs, hd⟩ | ⟨o, ho, hso, hdo, hs, hd⟩
  · rw [hs, hd]
    rfl
  rw [validationInfoSize] at ho hinside
  have hword : (flash.copied src dst length).word (dst + o + 12) = flash.word (src + o + 12) :=
    h.relocated.word_add (k := 12) (by omega)
  have hfirmware : (flash.copied src dst length).bytes dst
      (fwSize flash (fwInfoFind cfg flash src)).toNat =
        flash.bytes src (fwSize flash (fwInfoFind cfg flash src)).toNat := by
    have hbytes := h.relocated.bytes (o := 0)
      (n := (fwSize flash (fwInfoFind cfg flash src)).toNat) (by change 0 + _ ≤ _; omega)
    rwa [add_zero, add_zero] at hbytes
  have hfield : ∀ (k : BitVec 32) (n : Nat), o.toNat + k.toNat + n ≤ length →
      (flash.copied src dst length).bytes (dst + o + k) n = flash.bytes (src + o + k) n := by
    intro k n hk
    have hok : (o + k).toNat ≤ o.toNat + k.toNat := by
      rw [BitVec.toNat_add]
      exact Nat.mod_le ..
    rw [BitVec.add_assoc, BitVec.add_assoc, h.relocated.bytes (by omega)]
  rw [hs, hd, if_neg hso, if_neg hdo, hword]
  split
  · rfl
  cases cfg.method with
  | signature =>
    simp only [validateSignature]
    split
    · rfl
    split
    · rfl
    · apply validateSignatureLoop_congr
      intro keyData
      have hkey : (16 + cfg.hashLen).toNat ≤ 16 + cfg.hashLen.toNat := by
        rw [BitVec.toNat_add]
        exact Nat.mod_le ..
      have hsig : (16 + cfg.hashLen + cfg.publicKeyLen).toNat ≤
          16 + cfg.hashLen.toNat + cfg.publicKeyLen.toNat := by
        rw [BitVec.toNat_add]
        exact (Nat.mod_le ..).trans (by omega)
      have hpublicKey := hfield (16 + cfg.hashLen) cfg.publicKeyLen.toNat (by omega)
      have hsignature := hfield (16 + cfg.hashLen + cfg.publicKeyLen) crypto.signatureLen (by omega)
      simp only [← add_assoc] at hpublicKey hsignature
      simp only [ImageCrypto.platform, hfirmware, hpublicKey, hsignature]
  | hash =>
    have hhash := hfield 16 cfg.hashLen.toNat (by change o.toNat + 16 + _ ≤ _; omega)
    have hverify : (crypto.platform cfg).sha256Verify (flash.copied src dst length) dst
          (fwSize flash (fwInfoFind cfg flash src)) (dst + o + 16) =
        (crypto.platform cfg).sha256Verify flash src (fwSize flash (fwInfoFind cfg flash src))
          (src + o + 16) := by
      simp only [ImageCrypto.platform, hfirmware, hhash]
    simp only [validateHash]
    rw [hverify]

theorem checkInfo_copied (h : StoredImage cfg crypto flash src dst length) (mem : WordMemory) :
    checkInfo cfg (flash.copied src dst length) mem dst dst
        (dst + (fwInfoFind cfg flash src - src)) false =
      checkInfo cfg flash mem dst src (fwInfoFind cfg flash src) true := by
  have hsrc := h.src_fits
  have hdst := h.dst_fits
  have hmagic := h.firmwareMagic
  have hinside := h.infoInside
  have himage := h.imageInside
  set info := fwInfoFind cfg flash src with hinfo
  have htotal : fwTotalSize (flash.copied src dst length) (dst + (info - src)) =
    fwTotalSize flash info := h.infoWord_copied (k := 12) (by decide)
  have hsize : fwSize (flash.copied src dst length) (dst + (info - src)) = fwSize flash info :=
    h.infoWord_copied (k := 16) (by decide)
  have hversion : fwVersion (flash.copied src dst length) (dst + (info - src)) =
    fwVersion flash info := h.infoWord_copied (k := 20) (by decide)
  have haddress : fwAddress (flash.copied src dst length) (dst + (info - src)) =
    fwAddress flash info := h.infoWord_copied (k := 24) (by decide)
  have hboot : fwBootAddress (flash.copied src dst length) (dst + (info - src)) =
    fwBootAddress flash info := h.infoWord_copied (k := 28) (by decide)
  have hvalid : fwValid (flash.copied src dst length) (dst + (info - src)) = fwValid flash info :=
    h.infoWord_copied (k := 32) (by decide)
  have hfind : fwInfoFind cfg (flash.copied src dst length) dst = dst + (info - src) :=
    h.fwInfoFind_copied
  have hne : dst + (info - src) ≠ 0 := add_ne_zero_of_fits h.dst_ne (by omega)
  have hcheck : fwInfoCheck cfg flash info ≠ 0 := fwInfoCheck_fwInfoFind h.info
  have hcheck' : fwInfoCheck cfg (flash.copied src dst length) (dst + (info - src)) ≠ 0 :=
    hfind ▸ fwInfoCheck_fwInfoFind (hfind ▸ hne)
  have hregion : (fwTotalSize flash info).toNat ≤ (fwSize flash info).toNat →
      regionWithin (dst + (info - src)) (dst + (info - src) + fwTotalSize flash info) dst
          (dst + fwSize flash info) =
        regionWithin info (info + fwTotalSize flash info) src (src + fwSize flash info) := by
    intro hle
    have hs : info.toNat = src.toNat + (info - src).toNat := by
      conv_lhs => rw [← add_sub_cancel src info, BitVec.toNat_add, Nat.mod_eq_of_lt (by omega)]
    have hd : (dst + (info - src)).toNat = dst.toNat + (info - src).toNat := by
      rw [BitVec.toNat_add, Nat.mod_eq_of_lt (by omega)]
    rw [Bool.eq_iff_iff, regionWithin_add_iff hle, regionWithin_add_iff hle, hd]
    omega
  rw [checkInfo, checkInfo, htotal, hsize, hversion, haddress, hboot, hvalid, hfind]
  by_cases hle : (fwTotalSize flash info).toNat ≤ (fwSize flash info).toNat
  · rw [hregion hle]
    have hsome : info ≠ 0 := h.info
    simp only [← hinfo, hsome, hne, hcheck, hcheck', ne_eq, not_false_eq_true, decide_true,
      Bool.true_and, Bool.and_true, Bool.true_or, Bool.or_true]
  · have hlt : fwSize flash info < fwTotalSize flash info := BitVec.lt_def.mpr (by omega)
    simp [hlt]

/-- The two validations agree, unless everything but the reset vector is in order and the one in
the destination slot is not where the one of the image is. -/
theorem blValidateFirmware_agrees_iff (h : StoredImage cfg crypto flash src dst length)
    (mem : WordMemory) :
    ((blValidateFirmware cfg flash (crypto.platform cfg) mem dst src).1 = true ↔
      (blValidateFirmwareLocal cfg (flash.copied src dst length) (crypto.platform cfg) mem dst
        (fwInfoFind cfg (flash.copied src dst length) dst)).1 = true) ↔
    (checkInfo cfg flash mem dst src (fwInfoFind cfg flash src) true = true →
      (checkCrypto cfg flash (crypto.platform cfg) mem src (fwInfoFind cfg flash src)).1 = true →
      (within (flash.word (fwBootAddress flash (fwInfoFind cfg flash src) + 4)) dst
          (dst + fwSize flash (fwInfoFind cfg flash src)) =
        within (flash.word (src + (fwBootAddress flash (fwInfoFind cfg flash src) - dst) + 4)) dst
          (dst + fwSize flash (fwInfoFind cfg flash src)))) := by
  have hboot : fwBootAddress (flash.copied src dst length)
      (dst + (fwInfoFind cfg flash src - src)) = fwBootAddress flash (fwInfoFind cfg flash src) :=
    h.infoWord_copied (k := 28) (by decide)
  have hsize : fwSize (flash.copied src dst length) (dst + (fwInfoFind cfg flash src - src)) =
      fwSize flash (fwInfoFind cfg flash src) := h.infoWord_copied (k := 16) (by decide)
  rw [blValidateFirmware, blValidateFirmwareLocal, validateFirmware_eq_true_iff,
    validateFirmware_eq_true_iff, h.fwInfoFind_copied, h.checkInfo_copied, h.checkCrypto_copied,
    hboot, hsize]
  have hvector : checkInfo cfg flash mem dst src (fwInfoFind cfg flash src) true = true →
      (flash.copied src dst length).word (fwBootAddress flash (fwInfoFind cfg flash src) + 4) =
        flash.word (src + (fwBootAddress flash (fwInfoFind cfg flash src) - dst) + 4) := by
    intro hinfo
    simp only [checkInfo, Bool.and_eq_true] at hinfo
    have hwithin := within_add_iff.mp hinfo.2
    have himage := h.imageInside
    rw [validationInfoSize] at himage
    have hword := h.relocated.word_add
      (o := fwBootAddress flash (fwInfoFind cfg flash src) - dst) (k := 4)
      (by rw [BitVec.toNat_sub]; omega)
    rwa [add_sub_cancel] at hword
  by_cases hinfo : checkInfo cfg flash mem dst src (fwInfoFind cfg flash src) true = true
  · rw [hvector hinfo]
    by_cases hcrypto : (checkCrypto cfg flash (crypto.platform cfg) mem src
        (fwInfoFind cfg flash src)).1 = true
    · simp only [hinfo, hcrypto, true_and, and_true, true_imp_iff]
      exact Bool.eq_iff_iff.symm
    · simp only [hcrypto, and_false, false_imp_iff, imp_true_iff, Bool.false_eq_true]
  · simp only [hinfo, false_and, false_imp_iff, Bool.false_eq_true]

end StoredImage

def demoCrypto : ImageCrypto := ⟨64, 0, fun _ _ _ _ => 0, fun _ _ => 0⟩

/-- An image for `0x8000` that is stored at `0x18000`; the reset vector that it brings, and the one
that is found in the destination slot now. -/
def storedFlash (reset current : BitVec 32) : Flash :=
  (((imageFlash 5).copied 0x8000 0x18000 0x600).copied 0x28000 0x8000 0x600).withWords
    [(0x18004, reset), (0x8004, current)]

theorem storedFlash_image :
    StoredImage demoConfig demoCrypto (storedFlash 0x8101 0x8101) 0x18000 0x8000 0x600 := by
  constructor <;> decide

theorem storedFlash_agrees :
    ((blValidateFirmware demoConfig (storedFlash 0x8101 0x8101) (demoCrypto.platform demoConfig)
        twoSlotPage 0x8000 0x18000).1 = true ↔
      (blValidateFirmwareLocal demoConfig ((storedFlash 0x8101 0x8101).copied 0x18000 0x8000 0x600)
        (demoCrypto.platform demoConfig) twoSlotPage 0x8000 (fwInfoFind demoConfig
          ((storedFlash 0x8101 0x8101).copied 0x18000 0x8000 0x600) 0x8000)).1 = true) := by
  rw [storedFlash_image.blValidateFirmware_agrees_iff twoSlotPage]
  decide

/-- A sound image is refused when it is to be written into an erased slot, and one with a reset
vector outside is accepted when the slot holds a sound image. -/
theorem storedFlash_disagrees :
    (StoredImage demoConfig demoCrypto (storedFlash 0x8101 0xFFFFFFFF) 0x18000 0x8000 0x600 ∧
      (blValidateFirmware demoConfig (storedFlash 0x8101 0xFFFFFFFF)
        (demoCrypto.platform demoConfig) twoSlotPage 0x8000 0x18000).1 = false ∧
      (blValidateFirmwareLocal demoConfig
        ((storedFlash 0x8101 0xFFFFFFFF).copied 0x18000 0x8000 0x600)
        (demoCrypto.platform demoConfig) twoSlotPage 0x8000 (fwInfoFind demoConfig
          ((storedFlash 0x8101 0xFFFFFFFF).copied 0x18000 0x8000 0x600) 0x8000)).1 = true) ∧
    StoredImage demoConfig demoCrypto (storedFlash 0x20001 0x8101) 0x18000 0x8000 0x600 ∧
      (blValidateFirmware demoConfig (storedFlash 0x20001 0x8101) (demoCrypto.platform demoConfig)
        twoSlotPage 0x8000 0x18000).1 = true ∧
      (blValidateFirmwareLocal demoConfig
        ((storedFlash 0x20001 0x8101).copied 0x18000 0x8000 0x600)
        (demoCrypto.platform demoConfig) twoSlotPage 0x8000 (fwInfoFind demoConfig
          ((storedFlash 0x20001 0x8101).copied 0x18000 0x8000 0x600) 0x8000)).1 = false := by
  refine ⟨⟨?_, ?_, ?_⟩, ?_, ?_, ?_⟩
  · constructor <;> decide
  · decide
  · decide
  · constructor <;> decide
  · decide
  · decide

end SdkNrf.Bootloader
