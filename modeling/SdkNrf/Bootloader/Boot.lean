import SdkNrf.Bootloader.Storage

/-!
# Validating and booting an image

`validate_firmware` and the version counter of `bl_validation.c`, and the `main` function of the bootloader,
which tries the slot with the higher version first.
-/

namespace SdkNrf.Bootloader

abbrev Flash := BitVec 32 → BitVec 8

def Flash.word (flash : Flash) (a : BitVec 32) : BitVec 32 :=
  flash (a + 3) ++ flash (a + 2) ++ flash (a + 1) ++ flash a

/-- `nrfx_nvmc_word_write`: a write can only clear bits. -/
def Flash.wordWrite (flash : Flash) (a val : BitVec 32) : Flash := fun b =>
  if b = a then flash b &&& val.extractLsb' 0 8
  else if b = a + 1 then flash b &&& val.extractLsb' 8 8
  else if b = a + 2 then flash b &&& val.extractLsb' 16 8
  else if b = a + 3 then flash b &&& val.extractLsb' 24 8
  else flash b

/-- `memcmp(ptr, bytes, length) == 0`. -/
def Flash.holds (flash : Flash) (a : BitVec 32) : List (BitVec 8) → Bool
  | [] => true
  | byte :: bytes => flash a == byte && Flash.holds flash (a + 1) bytes

inductive ValidationMethod
  | signature
  | hash
  deriving DecidableEq, Repr

structure BootConfig extends StorageConfig where
  firmwareInfoMagic : List (BitVec 8)
  validationInfoMagic : List (BitVec 8)
  fwInfoValidVal : BitVec 32
  s0Size : BitVec 32
  hashLen : BitVec 32
  publicKeyLen : BitVec 32
  method : ValidationMethod

/-- What a boot takes from outside the modelled files: the cryptography, the protection of the
bootloader, and whether `bl_boot` reaches the reset handler of the image or returns. -/
structure Platform where
  fprotectBootloader : Bool
  cryptoInit : Int
  /-- `bl_root_of_trust_verify(public_key, key_data, signature, firmware, size)`. -/
  rotVerify : Flash → BitVec 32 → List (BitVec 32) → BitVec 32 → BitVec 32 → BitVec 32 → Int
  /-- `bl_sha256_verify(firmware, size, hash)`. -/
  sha256Verify : Flash → BitVec 32 → BitVec 32 → BitVec 32 → Int
  blBoot : Flash → BitVec 32 → Bool

def ehashinv : Int := 101

section Version

variable (cfg : StorageConfig)

/-- `set_monotonic_version`. The assertions on the arguments are not compiled in. -/
def setMonotonicVersion (mem : WordMemory) (version slot : BitVec 16) :
    Except Errno Unit × WordMemory :=
  setMonotonicCounter cfg mem ((version <<< 1) ||| (if slot = 0 then 1 else 0))

/-- `get_monotonic_version`: the version and the slot. -/
def getMonotonicVersion (mem : WordMemory) : BitVec 16 × BitVec 16 :=
  (getMonotonicCounter cfg mem >>> 1, if getMonotonicCounter cfg mem &&& 1 = 0 then 1 else 0)

end Version

section FwInfo

variable (cfg : BootConfig) (flash : Flash)

/-- `fw_info_check`; the null pointer when the magic value is missing. -/
def fwInfoCheck (a : BitVec 32) : BitVec 32 :=
  if flash.holds a cfg.firmwareInfoMagic then a else 0

def fwInfoAllowedOffsets : List (BitVec 32) := [0x0, 0x200, 0x400, 0x800, 0x1000]

def fwInfoFind (firmwareAddress : BitVec 32) : BitVec 32 :=
  ((fwInfoAllowedOffsets.map fun off => fwInfoCheck cfg flash (firmwareAddress + off)).find?
    (· ≠ 0)).getD 0

def fwTotalSize (fwInfo : BitVec 32) : BitVec 32 := flash.word (fwInfo + 12)

def fwSize (fwInfo : BitVec 32) : BitVec 32 := flash.word (fwInfo + 16)

def fwVersion (fwInfo : BitVec 32) : BitVec 32 := flash.word (fwInfo + 20)

def fwAddress (fwInfo : BitVec 32) : BitVec 32 := flash.word (fwInfo + 24)

def fwBootAddress (fwInfo : BitVec 32) : BitVec 32 := flash.word (fwInfo + 28)

def fwValid (fwInfo : BitVec 32) : BitVec 32 := flash.word (fwInfo + 32)

def fwInfoInvalidate (fwInfo : BitVec 32) : Flash :=
  if fwValid flash fwInfo = cfg.fwInfoValidVal then flash.wordWrite (fwInfo + 32) invalidVal
  else flash

def within (addr start stop : BitVec 32) : Bool :=
  !(decide (stop < start)) && !(decide (addr < start)) && decide (addr < stop)

def regionWithin (innerStart innerEnd start stop : BitVec 32) : Bool :=
  !(decide (innerEnd < innerStart)) && within innerStart start stop &&
    within (innerEnd - 1) start stop

/-- `validation_info_find`: the distances are searched in order, and the null pointer is no
match. -/
def validationInfoFind (startAddress : BitVec 32) (searchDistance : Nat) : BitVec 32 :=
  (((List.range (searchDistance + 1)).map fun i => startAddress + BitVec.ofNat 32 i).find? fun a =>
    flash.holds a cfg.validationInfoMagic && a ≠ 0).getD 0

/-- The loop of `validate_signature` over the keys from `idx` on. -/
def validateSignatureLoop (plat : Platform) (fwSrcAddress fwSize fwValInfo : BitVec 32) :
    Nat → Nat → WordMemory → Bool × WordMemory
  | 0, _, mem => (false, mem)
  | n + 1, idx, mem =>
    match publicKeyDataRead cfg.toStorageConfig mem idx cfg.publicKeyHashLen with
    | .error .EINVAL => validateSignatureLoop plat fwSrcAddress fwSize fwValInfo n (idx + 1) mem
    | .error _ => (false, mem)
    | .ok keyData =>
      let retval := plat.rotVerify flash (fwValInfo + 16 + cfg.hashLen) keyData
        (fwValInfo + 16 + cfg.hashLen + cfg.publicKeyLen) fwSrcAddress fwSize
      if retval = 0 then
        (true, (List.range idx).foldl (invalidatePublicKey cfg.toStorageConfig) mem)
      else if retval = -ehashinv then
        validateSignatureLoop plat fwSrcAddress fwSize fwValInfo n (idx + 1) mem
      else (false, mem)

def validateSignature (plat : Platform) (mem : WordMemory)
    (fwSrcAddress fwSize fwValInfo : BitVec 32) : Bool × WordMemory :=
  if plat.cryptoInit ≠ 0 then (false, mem)
  else match verifyPublicKeys cfg.toStorageConfig mem with
    | .error _ => (false, mem)
    | .ok () => validateSignatureLoop cfg flash plat fwSrcAddress fwSize fwValInfo
        (numPublicKeysRead cfg.toStorageConfig mem).toNat 0 mem

def validateHash (plat : Platform) (fwSrcAddress fwSize fwValInfo : BitVec 32) : Bool :=
  plat.cryptoInit = 0 && plat.sha256Verify flash fwSrcAddress fwSize (fwValInfo + 16) = 0

/-- The checks that `validate_firmware` makes before the signature or the hash. -/
def checkFirmware (mem : WordMemory) (fwDstAddress fwSrcAddress fwInfo : BitVec 32)
    (external : Bool) : Bool :=
  let fwInfoEnd := fwInfo + fwTotalSize flash fwInfo
  let fwDstEnd := fwDstAddress + fwSize flash fwInfo
  let fwSrcEnd := fwSrcAddress + fwSize flash fwInfo
  let resetVector := flash.word (fwBootAddress flash fwInfo + 4)
  fwInfo ≠ 0 && fwInfoCheck cfg flash fwInfo ≠ 0 && fwDstAddress = fwAddress flash fwInfo &&
    (external || fwSrcAddress = fwDstAddress) && fwInfoFind cfg flash fwSrcAddress = fwInfo &&
    fwValid flash fwInfo = cfg.fwInfoValidVal &&
    !(decide ((fwVersion flash fwInfo).toNat <
      (getMonotonicVersion cfg.toStorageConfig mem).1.toNat)) &&
    !(decide (cfg.s0Size < fwSize flash fwInfo)) &&
    !(decide (fwSize flash fwInfo < fwTotalSize flash fwInfo)) &&
    regionWithin fwInfo fwInfoEnd fwSrcAddress fwSrcEnd &&
    within (fwBootAddress flash fwInfo) fwDstAddress fwDstEnd &&
    within resetVector fwDstAddress fwDstEnd

def validateFirmware (plat : Platform) (mem : WordMemory)
    (fwDstAddress fwSrcAddress fwInfo : BitVec 32) (external : Bool) : Bool × WordMemory :=
  if !checkFirmware cfg flash mem fwDstAddress fwSrcAddress fwInfo external then (false, mem)
  else
    let fwValInfo := validationInfoFind cfg flash (fwSrcAddress + fwSize flash fwInfo) 4
    if fwValInfo = 0 then (false, mem)
    else if flash.word (fwValInfo + 12) ≠ fwAddress flash fwInfo then (false, mem)
    else match cfg.method with
      | .signature => validateSignature cfg flash plat mem fwSrcAddress (fwSize flash fwInfo) fwValInfo
      | .hash => (validateHash flash plat fwSrcAddress (fwSize flash fwInfo) fwValInfo, mem)

def blValidateFirmwareLocal (plat : Platform) (mem : WordMemory) (fwAddress fwInfo : BitVec 32) :
    Bool × WordMemory :=
  validateFirmware cfg flash plat mem fwAddress fwAddress fwInfo false

end FwInfo

structure Booted where
  version : BitVec 32
  slot : BitVec 16
  recorded : Bool
  deriving DecidableEq, Repr

structure BootState where
  mem : WordMemory
  flash : Flash

section Boot

variable (cfg : BootConfig) (plat : Platform)

/-- Record a version that is larger than the recorded one; the 32-bit version is passed as 16 bits.
The flag says whether `set_monotonic_version` was called and succeeded. -/
def recordVersion (mem : WordMemory) (version : BitVec 32) (slot : BitVec 16) :
    Bool × WordMemory :=
  if (getMonotonicVersion cfg.toStorageConfig mem).1.toNat < version.toNat then
    let r := setMonotonicVersion cfg.toStorageConfig mem (version.setWidth 16) slot
    (decide (r.1 = .ok ()), r.2)
  else (false, mem)

/-- `validate_and_boot`; `none` when it returns. -/
def validateAndBoot (st : BootState) (fwInfo : BitVec 32) (slot : BitVec 16) :
    Option Booted × BootState :=
  if fwInfo = 0 then (none, st)
  else
    let r := blValidateFirmwareLocal cfg st.flash plat st.mem (fwAddress st.flash fwInfo) fwInfo
    if !r.1 then (none, ⟨r.2, fwInfoInvalidate cfg st.flash fwInfo⟩)
    else
      let w := recordVersion cfg r.2 (fwVersion st.flash fwInfo) slot
      if plat.blBoot st.flash fwInfo then
        (some ⟨fwVersion st.flash fwInfo, slot, w.1⟩, ⟨w.2, st.flash⟩)
      else (none, ⟨w.2, st.flash⟩)

def tryBoth (st : BootState) (first second : BitVec 32 × BitVec 16) : Option Booted × BootState :=
  let r := validateAndBoot cfg plat st first.1 first.2
  if r.1.isSome then r else validateAndBoot cfg plat r.2 second.1 second.2

/-- The `main` function of the bootloader. A missing image in the first slot is read through the
null pointer. -/
def main (st : BootState) : Option Booted × BootState :=
  if !plat.fprotectBootloader then (none, st)
  else
    let s0Info := fwInfoFind cfg st.flash (s0AddressRead cfg.toStorageConfig st.mem)
    let s1Info := fwInfoFind cfg st.flash (s1AddressRead cfg.toStorageConfig st.mem)
    if s1Info = 0 ∨ fwVersion st.flash s1Info ≤ fwVersion st.flash s0Info then
      tryBoth cfg plat st (s0Info, 0) (s1Info, 1)
    else tryBoth cfg plat st (s1Info, 1) (s0Info, 0)

end Boot

end SdkNrf.Bootloader
