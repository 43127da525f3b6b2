import SdkNrf.Framework.WriteOnce

/-!
# Bootloader storage

The provision page of `bl_storage.c`: the addresses of the two image slots, the public keys, and a
collection of monotonic counters whose slots hold the complement of the recorded values.
-/

namespace SdkNrf.Bootloader

inductive Errno
  | EINVAL
  | ENOMEM
  | EFAULT
  | EHASHFF
  deriving DecidableEq, Repr

/-- `PM_PROVISION_ADDRESS` and `CONFIG_SB_PUBLIC_KEY_HASH_LEN`. The page starts on a word, and the
length is a multiple of four by a `BUILD_ASSERT`. -/
structure StorageConfig where
  provisionAddress : Nat
  publicKeyHashLen : Nat
  address_aligned : provisionAddress % 4 = 0
  hashLen_aligned : publicKeyHashLen % 4 = 0

theorem hashLen16_aligned : 16 % 4 = 0 := by decide

def typeCounters : BitVec 16 := 1

def counterDescVersion : BitVec 16 := 1

def invalidVal : BitVec 32 := 0xFFFF0000

def readHalfword (mem : WordMemory) (ptr : Nat) : BitVec 16 :=
  if ptr % 4 ≠ 0 then highHalf (mem (ptr / 4)) else lowHalf (mem (ptr / 4))

def writeHalfword (mem : WordMemory) (ptr : Nat) (val : BitVec 16) : WordMemory :=
  mem.wordWrite (ptr / 4) (if ptr % 4 ≠ 0 then highWord val else lowWord val)

theorem readHalfword_writeHalfword (mem : WordMemory) {p q : Nat} (hp : p % 2 = 0)
    (hq : q % 2 = 0) (val : BitVec 16) :
    readHalfword (writeHalfword mem p val) q =
      if q = p then readHalfword mem p &&& val else readHalfword mem q := by
  by_cases hw : q / 4 = p / 4
  · by_cases hq4 : q % 4 = 0 <;> by_cases hp4 : p % 4 = 0
    · obtain rfl : q = p := by omega
      simp [readHalfword, writeHalfword, hp4, lowHalf_and_lowWord]
    · rw [if_neg (by omega)]
      simp [readHalfword, writeHalfword, hq4, hp4, hw, lowHalf_and_highWord]
    · rw [if_neg (by omega)]
      simp [readHalfword, writeHalfword, hq4, hp4, hw, highHalf_and_lowWord]
    · obtain rfl : q = p := by omega
      simp [readHalfword, writeHalfword, hp4, highHalf_and_highWord]
  · have hne : q ≠ p := fun h => hw (h ▸ rfl)
    rw [if_neg hne]
    simp [readHalfword, writeHalfword, WordMemory.wordWrite_of_ne _ _ hw]

def AgreeBelow (bound : Nat) (mem mem' : WordMemory) : Prop :=
  ∀ q, q % 2 = 0 → q < bound → readHalfword mem' q = readHalfword mem q

theorem AgreeBelow.word {bound w : Nat} {mem mem' : WordMemory} (h : AgreeBelow bound mem mem')
    (hw : 4 * w + 4 ≤ bound) : mem' w = mem w := by
  apply word_ext
  · have hlow := h (4 * w) (by omega) (by omega)
    simpa [readHalfword] using hlow
  · have hhigh := h (4 * w + 2) (by omega) (by omega)
    have hmod : (4 * w + 2) % 4 ≠ 0 := by omega
    have hdiv : (4 * w + 2) / 4 = w := by omega
    simpa [readHalfword, hmod, hdiv] using hhigh

section Provision

variable (cfg : StorageConfig)

def s0AddressRead (mem : WordMemory) : BitVec 32 := mem (cfg.provisionAddress / 4)

def s1AddressRead (mem : WordMemory) : BitVec 32 := mem (cfg.provisionAddress / 4 + 1)

def numPublicKeysRead (mem : WordMemory) : BitVec 32 := mem (cfg.provisionAddress / 4 + 2)

/-- `&p_bl_storage_data->key_data[idx]`, which is also the address of its invalidation token. -/
def keyData (idx : Nat) : Nat := cfg.provisionAddress + 12 + (4 + cfg.publicKeyHashLen) * idx

def keyIsValid (mem : WordMemory) (idx : Nat) : Bool := mem (keyData cfg idx / 4) ≠ invalidVal

/-- `verify_public_keys`: no valid key holds an aligned `0xFFFF`. -/
def verifyPublicKeys (mem : WordMemory) : Except Errno Unit :=
  if (List.range (numPublicKeysRead cfg mem).toNat).all fun n => !keyIsValid cfg mem n ||
      (List.range (cfg.publicKeyHashLen / 2)).all fun i =>
        readHalfword mem (keyData cfg n + 4 + 2 * i) ≠ 0xFFFF#16
  then .ok ()
  else .error .EHASHFF

/-- The words that `memcpy` takes from the hash of a key. -/
def publicKeyDataRead (mem : WordMemory) (idx bufSize : Nat) : Except Errno (List (BitVec 32)) :=
  if !keyIsValid cfg mem idx then .error .EINVAL
  else if bufSize < cfg.publicKeyHashLen then .error .ENOMEM
  else if (numPublicKeysRead cfg mem).toNat ≤ idx then .error .EFAULT
  else .ok ((List.range (cfg.publicKeyHashLen / 4)).map fun i => mem (keyData cfg idx / 4 + 1 + i))

def invalidatePublicKey (mem : WordMemory) (idx : Nat) : WordMemory :=
  if keyIsValid cfg mem idx then mem.wordWrite (keyData cfg idx / 4) invalidVal else mem

def collectionAddress (mem : WordMemory) : Nat := keyData cfg (numPublicKeysRead cfg mem).toNat

def getCounterCollection (mem : WordMemory) : Option Nat :=
  if readHalfword mem (collectionAddress cfg mem) = typeCounters then
    some (collectionAddress cfg mem)
  else none

/-- The loop of `get_counter_struct` over `count` counters. -/
def findCounter (mem : WordMemory) (description : BitVec 16) : Nat → Nat → Option Nat
  | 0, _ => none
  | count + 1, current =>
    if readHalfword mem current = description then some current
    else findCounter mem description count (current + 4 + 2 * (readHalfword mem (current + 2)).toNat)

def getCounterStruct (mem : WordMemory) (description : BitVec 16) : Option Nat :=
  (getCounterCollection cfg mem).bind fun counters =>
    findCounter mem description (readHalfword mem (counters + 2)).toNat (counters + 4)

def numMonotonicCounterSlots (mem : WordMemory) : Nat :=
  match getCounterStruct cfg mem counterDescVersion with
  | none => 0
  | some counter =>
    let numSlots := readHalfword mem (counter + 2)
    if numSlots ≠ 0xFFFF#16 then numSlots.toNat else 0

def slotValue (mem : WordMemory) (slots i : Nat) : BitVec 16 := ~~~ readHalfword mem (slots + 2 * i)

/-- The loop of `get_counter` from slot `i` on: the highest value and the first free slot. -/
def getCounterLoop (mem : WordMemory) (slots : Nat) : Nat → Nat → BitVec 16 → BitVec 16 × Option Nat
  | 0, _, highest => (highest, none)
  | n + 1, i, highest =>
    let counter := slotValue mem slots i
    if counter = 0 then (highest, some (slots + 2 * i))
    else getCounterLoop mem slots n (i + 1) (if highest < counter then counter else highest)

/-- `counter_slots` of the version counter. Without a counter the pointer is never used. -/
def counterSlots (mem : WordMemory) : Nat :=
  (getCounterStruct cfg mem counterDescVersion).getD 0 + 4

def getCounter (mem : WordMemory) : BitVec 16 × Option Nat :=
  getCounterLoop mem (counterSlots cfg mem) (numMonotonicCounterSlots cfg mem) 0 0

def getMonotonicCounter (mem : WordMemory) : BitVec 16 := (getCounter cfg mem).1

def setMonotonicCounter (mem : WordMemory) (newCounter : BitVec 16) :
    Except Errno Unit × WordMemory :=
  if newCounter ≤ (getCounter cfg mem).1 then (.error .EINVAL, mem)
  else
    match (getCounter cfg mem).2 with
    | none => (.error .ENOMEM, mem)
    | some nextCounterAddr => (.ok (), writeHalfword mem nextCounterAddr (~~~ newCounter))

end Provision

end SdkNrf.Bootloader
