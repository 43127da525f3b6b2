import SdkNrf.Bootloader.CounterStorage
import SdkNrf.Framework.ExceptRun
import SdkNrf.Framework.Programmed

/-!
# Provisioning

`provision.py` packs the addresses, the hashes of the public keys and an empty monotonic counter
into the bytes that `bl_storage.c` reads.
-/

namespace SdkNrf.Bootloader

inductive ProvisionError
  | structError
  | assertionError
  | runtimeError
  deriving DecidableEq, Repr

/-- `struct.pack('I', n)`. -/
def packI (n : Int) : Except ProvisionError (List UInt8) :=
  if 0 ≤ n ∧ n < 2 ^ 32 then .ok (leBytes 4 n.toNat) else .error .structError

/-- `struct.pack('H', n)`. -/
def packH (n : Int) : Except ProvisionError (List UInt8) :=
  if 0 ≤ n ∧ n < 2 ^ 16 then .ok (leBytes 2 n.toNat) else .error .structError

def keyEntry (mhash : List UInt8) : List UInt8 := leBytes 4 0xFFFFFFFF ++ mhash

/-- `num_counter_slots_version` after it has been rounded up, which happens only when there is a
counter. -/
def roundedSlots (numCounterSlotsVersion : Int) : Int :=
  if 0 < numCounterSlotsVersion ∧ numCounterSlotsVersion % 2 = 1 then numCounterSlotsVersion + 1
  else numCounterSlotsVersion

def packCounters (numCounterSlotsVersion : Int) : Except ProvisionError (List UInt8) :=
  if 0 < numCounterSlotsVersion then do
    let slots ← packH (roundedSlots numCounterSlotsVersion)
    return leBytes 2 1 ++ leBytes 2 1 ++ leBytes 2 1 ++ slots
  else return leBytes 2 1 ++ leBytes 2 0

/-- `generate_provision_hex_file`: the bytes that are placed at the provision address. -/
def generateProvisionHexFile (s0Address s1Address : Int) (hashes : List (List UInt8))
    (maxSize numCounterSlotsVersion : Int) : Except ProvisionError (List UInt8) := do
  let s0 ← packI s0Address
  let s1 ← packI s1Address
  let numHashes ← packI hashes.length
  let counters ← packCounters numCounterSlotsVersion
  let provisionData := s0 ++ s1 ++ numHashes ++ hashes.flatMap keyEntry ++ counters
  if provisionData.length + 2 * roundedSlots numCounterSlotsVersion ≤ maxSize then
    return provisionData
  else throw .assertionError

/-- `get_hashes`; `digest` is the SHA-256 digest of the key in a file. -/
def getHashes {κ : Type} (digest : κ → Vector UInt8 32) (publicKeyFiles : List κ) :
    Except ProvisionError (List (List UInt8)) :=
  let hashes := publicKeyFiles.map fun fn => (digest fn).toList.take 16
  if hashes.Nodup then .ok hashes else .error .runtimeError

theorem packI_eq_ok {n : Int} {bytes : List UInt8} (h : packI n = .ok bytes) :
    0 ≤ n ∧ n < 2 ^ 32 ∧ bytes = leBytes 4 n.toNat := by
  rw [packI] at h
  split at h
  next hn =>
    simp only [Except.ok.injEq] at h
    exact ⟨hn.1, hn.2, h.symm⟩
  next => simp at h

theorem packH_eq_ok {n : Int} {bytes : List UInt8} (h : packH n = .ok bytes) :
    0 ≤ n ∧ n < 2 ^ 16 ∧ bytes = leBytes 2 n.toNat := by
  rw [packH] at h
  split at h
  next hn =>
    simp only [Except.ok.injEq] at h
    exact ⟨hn.1, hn.2, h.symm⟩
  next => simp at h

theorem packCounters_eq_ok {slots : Int} {bytes : List UInt8} (h : packCounters slots = .ok bytes) :
    (slots ≤ 0 ∧ bytes = leBytes 2 1 ++ leBytes 2 0) ∨
      (0 < slots ∧ roundedSlots slots < 2 ^ 16 ∧
        bytes = leBytes 2 1 ++ leBytes 2 1 ++ leBytes 2 1 ++ leBytes 2 (roundedSlots slots).toNat) := by
  rw [packCounters] at h
  split at h
  next hpos =>
    simp only [bind_eq_ok, pure_eq_ok] at h
    obtain ⟨packed, hpacked, rfl⟩ := h
    obtain ⟨-, hlt, rfl⟩ := packH_eq_ok hpacked
    exact .inr ⟨hpos, hlt, rfl⟩
  next hpos =>
    simp only [pure_eq_ok] at h
    exact .inl ⟨by omega, h.symm⟩

theorem length_of_getHashes {κ : Type} {digest : κ → Vector UInt8 32} {publicKeyFiles : List κ}
    {hashes : List (List UInt8)} (h : getHashes digest publicKeyFiles = .ok hashes) :
    ∀ mhash ∈ hashes, mhash.length = 16 := by
  simp only [getHashes] at h
  split at h
  next =>
    simp only [Except.ok.injEq] at h
    subst h
    simp
  next => simp at h

structure Generated (s0 s1 : Int) (hashes : List (List UInt8)) (maxSize slots : Int)
    (data : List UInt8) : Prop where
  s0_range : 0 ≤ s0 ∧ s0 < 2 ^ 32
  s1_range : 0 ≤ s1 ∧ s1 < 2 ^ 32
  hashes_range : hashes.length < 2 ^ 32
  fits : data.length + 2 * roundedSlots slots ≤ maxSize
  bytes : ∃ counters, packCounters slots = .ok counters ∧
    data = leBytes 4 s0.toNat ++ (leBytes 4 s1.toNat ++ (leBytes 4 hashes.length ++
      (hashes.flatMap keyEntry ++ counters)))

theorem generated_of_ok {s0 s1 : Int} {hashes : List (List UInt8)} {maxSize slots : Int}
    {data : List UInt8} (h : generateProvisionHexFile s0 s1 hashes maxSize slots = .ok data) :
    Generated s0 s1 hashes maxSize slots data := by
  simp only [generateProvisionHexFile, bind_eq_ok] at h
  obtain ⟨b₀, h₀, b₁, h₁, b₂, h₂, counters, hcounters, hdata⟩ := h
  obtain ⟨h0ge, h0lt, rfl⟩ := packI_eq_ok h₀
  obtain ⟨h1ge, h1lt, rfl⟩ := packI_eq_ok h₁
  obtain ⟨-, hlen, rfl⟩ := packI_eq_ok h₂
  split at hdata
  next hfits =>
    simp only [pure_eq_ok] at hdata
    subst hdata
    exact ⟨⟨h0ge, h0lt⟩, ⟨h1ge, h1lt⟩, by exact_mod_cast hlen, hfits, counters, hcounters,
      by simp⟩
  next => simp at hdata

/-- An aligned half-word of the hash is `0xFFFF`. -/
def HoldsFFFF (mhash : List UInt8) : Prop :=
  ∃ i < 8, mhash.getD (2 * i) 0 = 0xFF ∧ mhash.getD (2 * i + 1) 0 = 0xFF

instance (mhash : List UInt8) : Decidable (HoldsFFFF mhash) :=
  inferInstanceAs (Decidable (∃ i < 8, _))

/-- The reader finds what the script was given: the addresses, the keys, and a counter that has the
rounded number of slots, all within the given size, and that counts nothing yet. Without a counter
there are no slots. -/
structure ReadsBack (cfg : StorageConfig) (mem : WordMemory) (s0 s1 : Int)
    (hashes : List (List UInt8)) (maxSize slots : Int) : Prop where
  s0Address : (s0AddressRead cfg mem).toNat = s0
  s1Address : (s1AddressRead cfg mem).toNat = s1
  numKeys : (numPublicKeysRead cfg mem).toNat = hashes.length
  keys : ∀ idx (h : idx < hashes.length), keyIsValid cfg mem idx = true ∧
    ∃ words, publicKeyDataRead cfg mem idx 16 = .ok words ∧
      (words.flatMap fun word => leBytes 4 word.toNat) = hashes[idx]
  numSlots : (numMonotonicCounterSlots cfg mem : Int) = max 0 (slots + slots % 2)
  counter : getMonotonicCounter cfg mem = 0
  slotsFit : ∀ i < numMonotonicCounterSlots cfg mem,
    cfg.provisionAddress ≤ counterSlots cfg mem + 2 * i ∧
      ((counterSlots cfg mem + 2 * i + 2 : Nat) : Int) ≤ cfg.provisionAddress + maxSize

theorem readHalfword_programmed {address off : Nat} {data : List UInt8} (haddr : address % 4 = 0)
    (hoff : off % 2 = 0) : readHalfword (programmed address data) (address + off) =
      BitVec.ofNat 16 (leValue [data.getD off 0xFF, data.getD (off + 1) 0xFF]) := by
  rw [← programmedByte_at address, ← programmedByte_at address, readHalfword]
  split
  next htop =>
    have hw : 4 * ((address + off) / 4) + 2 = address + off := by omega
    rw [highHalf_programmed, ← hw]
    congr 5 <;> omega
  next hbottom =>
    have hw : 4 * ((address + off) / 4) = address + off := by omega
    rw [lowHalf_programmed, hw, Nat.add_assoc]

theorem drop_keyEntries {hashes : List (List UInt8)} (h : ∀ mhash ∈ hashes, mhash.length = 16)
    (rest : List UInt8) {n : Nat} (hn : n ≤ hashes.length) :
    (hashes.flatMap keyEntry ++ rest).drop (20 * n) =
      (hashes.drop n).flatMap keyEntry ++ rest := by
  induction hashes generalizing n with
  | nil => simp_all
  | cons mhash hashes ih =>
    cases n with
    | zero => rfl
    | succ n =>
      have hlen : (keyEntry mhash).length = 20 := by
        simp [keyEntry, h mhash]
      rw [List.flatMap_cons, List.append_assoc, Nat.mul_succ, Nat.add_comm, ← List.drop_drop,
        List.drop_left' hlen, List.drop_succ_cons]
      exact ih (fun m hm => h m (List.mem_cons_of_mem _ hm)) (by simpa using hn)

theorem halfword_eq_FFFF (low high : UInt8) :
    BitVec.ofNat 16 (leValue [low, high]) = 0xFFFF#16 ↔ low = 0xFF ∧ high = 0xFF := by
  have hlow := low.toNat_lt
  have hhigh := high.toNat_lt
  rw [← BitVec.toNat_inj, ← UInt8.toNat_inj, ← UInt8.toNat_inj]
  simp only [leValue, BitVec.toNat_ofNat, UInt8.toNat_ofNat]
  omega

theorem flatMap_chunks (size n : Nat) (bytes : List UInt8) :
    (List.range n).flatMap (fun i => (bytes.drop (size * i)).take size) = bytes.take (size * n) := by
  induction n with
  | zero => simp
  | succ n ih => simp [List.range_succ, ih, Nat.mul_succ, List.take_add]

namespace Generated

variable {cfg : StorageConfig} {s0 s1 : Int} {hashes : List (List UInt8)} {maxSize slots : Int}
  {data : List UInt8}

theorem entry_prefix (hg : Generated s0 s1 hashes maxSize slots data)
    (h : ∀ mhash ∈ hashes, mhash.length = 16) {n : Nat} (hn : n < hashes.length) :
    keyEntry hashes[n] <+: data.drop (12 + 20 * n) := by
  obtain ⟨counters, -, rfl⟩ := hg.bytes
  rw [← List.drop_drop]
  change _ <+: ((hashes.flatMap keyEntry ++ counters).drop (20 * n))
  rw [drop_keyEntries h _ hn.le, List.drop_eq_getElem_cons hn, List.flatMap_cons,
    List.append_assoc]
  exact List.prefix_append ..

theorem hash_prefix (hg : Generated s0 s1 hashes maxSize slots data)
    (h : ∀ mhash ∈ hashes, mhash.length = 16) {n : Nat} (hn : n < hashes.length) (i k : Nat) :
    (hashes[n].drop i).take k <+: data.drop (12 + 20 * n + 4 + i) := by
  have hentry := (hg.entry_prefix h hn).drop 4
  rw [keyEntry, List.drop_left' (length_leBytes ..), List.drop_drop] at hentry
  have hdrop := hentry.drop i
  rw [List.drop_drop] at hdrop
  exact (List.take_prefix ..).trans hdrop

theorem counters_eq (hg : Generated s0 s1 hashes maxSize slots data)
    (h : ∀ mhash ∈ hashes, mhash.length = 16) :
    packCounters slots = .ok (data.drop (12 + 20 * hashes.length)) := by
  obtain ⟨counters, hcounters, rfl⟩ := hg.bytes
  rw [← List.drop_drop]
  change _ = Except.ok ((hashes.flatMap keyEntry ++ counters).drop (20 * hashes.length))
  rw [drop_keyEntries h _ (le_refl _), List.drop_length, hcounters]
  rfl

theorem header_word {k n : Nat}
    (hk : leBytes 4 n <+: data.drop (4 * k)) :
    (programmed cfg.provisionAddress data (cfg.provisionAddress / 4 + k)).toNat = n % 2 ^ 32 := by
  have ha := cfg.address_aligned
  have hw := programmed_word ha (Nat.mul_mod_right 4 k) (length_leBytes 4 n) hk
  rw [show (cfg.provisionAddress + 4 * k) / 4 = cfg.provisionAddress / 4 + k by omega] at hw
  rw [hw, leValue_leBytes, BitVec.toNat_ofNat]
  simp

theorem s0Address (hg : Generated s0 s1 hashes maxSize slots data) :
    (s0AddressRead cfg (programmed cfg.provisionAddress data)).toNat = s0 := by
  have hrange := hg.s0_range
  have hprefix : leBytes 4 s0.toNat <+: data.drop (4 * 0) := by
    obtain ⟨counters, -, rfl⟩ := hg.bytes
    exact List.prefix_append ..
  have hword : (programmed cfg.provisionAddress data (cfg.provisionAddress / 4 + 0)).toNat =
      s0.toNat % 2 ^ 32 := header_word hprefix
  rw [Nat.add_zero] at hword
  rw [s0AddressRead, hword]
  omega

theorem s1Address (hg : Generated s0 s1 hashes maxSize slots data) :
    (s1AddressRead cfg (programmed cfg.provisionAddress data)).toNat = s1 := by
  have hrange := hg.s1_range
  have hprefix : leBytes 4 s1.toNat <+: data.drop (4 * 1) := by
    obtain ⟨counters, -, rfl⟩ := hg.bytes
    exact List.prefix_append ..
  rw [s1AddressRead, header_word hprefix]
  omega

theorem numKeys (hg : Generated s0 s1 hashes maxSize slots data) :
    (numPublicKeysRead cfg (programmed cfg.provisionAddress data)).toNat = hashes.length := by
  have hrange := hg.hashes_range
  have hprefix : leBytes 4 hashes.length <+: data.drop (4 * 2) := by
    obtain ⟨counters, -, rfl⟩ := hg.bytes
    exact List.prefix_append ..
  rw [numPublicKeysRead, header_word hprefix]
  omega

section Keys

variable (hlen : cfg.publicKeyHashLen = 16)
include hlen

theorem keyData_eq (n : Nat) : keyData cfg n = cfg.provisionAddress + (12 + 20 * n) := by
  rw [keyData, hlen]
  omega

variable (hg : Generated s0 s1 hashes maxSize slots data)
  (h : ∀ mhash ∈ hashes, mhash.length = 16)
include hg h

theorem token_word {n : Nat} (hn : n < hashes.length) :
    programmed cfg.provisionAddress data (keyData cfg n / 4) = 0xFFFFFFFF#32 := by
  have hprefix : leBytes 4 0xFFFFFFFF <+: data.drop (12 + 20 * n) :=
    (List.prefix_append ..).trans (hg.entry_prefix h hn)
  rw [keyData_eq hlen,
    programmed_word cfg.address_aligned (by omega) (length_leBytes ..) hprefix]
  rfl

theorem token_valid {n : Nat} (hn : n < hashes.length) :
    keyIsValid cfg (programmed cfg.provisionAddress data) n = true := by
  rw [keyIsValid, hg.token_word hlen h hn]
  rfl

theorem hash_word {n i : Nat} (hn : n < hashes.length) (hi : i < 4) :
    leBytes 4 (programmed cfg.provisionAddress data (keyData cfg n / 4 + 1 + i)).toNat =
      (hashes[n].drop (4 * i)).take 4 := by
  have ha := cfg.address_aligned
  have hsize := h _ (List.getElem_mem hn)
  have hchunk : ((hashes[n].drop (4 * i)).take 4).length = 4 := by
    simp only [List.length_take, List.length_drop]
    omega
  have hword := programmed_word ha (by omega) hchunk (hg.hash_prefix h hn (4 * i) 4)
  rw [keyData_eq hlen, show (cfg.provisionAddress + (12 + 20 * n)) / 4 + 1 + i =
    (cfg.provisionAddress + (12 + 20 * n + 4 + 4 * i)) / 4 by omega, hword, BitVec.toNat_ofNat]
  have hlt := leValue_lt ((hashes[n].drop (4 * i)).take 4)
  rw [hchunk] at hlt
  rw [Nat.mod_eq_of_lt hlt, leBytes_leValue hchunk]

theorem publicKeyDataRead_ok {n : Nat} (hn : n < hashes.length) :
    ∃ words, publicKeyDataRead cfg (programmed cfg.provisionAddress data) n 16 = .ok words ∧
      (words.flatMap fun word => leBytes 4 word.toNat) = hashes[n] := by
  have hkeys : (numPublicKeysRead cfg (programmed cfg.provisionAddress data)).toNat =
      hashes.length := hg.numKeys
  have hsize := h _ (List.getElem_mem hn)
  rw [publicKeyDataRead, hg.token_valid hlen h hn, hlen, hkeys]
  simp only [Bool.not_true, Bool.false_eq_true, if_false, lt_irrefl, Nat.not_le.mpr hn]
  refine ⟨_, rfl, ?_⟩
  rw [List.flatMap_map]
  calc (List.range (16 / 4)).flatMap (fun i => leBytes 4
        (programmed cfg.provisionAddress data (keyData cfg n / 4 + 1 + i)).toNat)
      = (List.range 4).flatMap fun i => (hashes[n].drop (4 * i)).take 4 := by
        apply List.flatMap_congr
        intro i hi
        exact hg.hash_word hlen h hn (List.mem_range.mp hi)
    _ = hashes[n].take (4 * 4) := flatMap_chunks 4 4 _
    _ = hashes[n] := by rw [List.take_of_length_le (by omega)]

theorem hash_halfword {n i : Nat} (hn : n < hashes.length) (hi : i < 8) :
    readHalfword (programmed cfg.provisionAddress data) (keyData cfg n + 4 + 2 * i) =
      BitVec.ofNat 16 (leValue [hashes[n].getD (2 * i) 0, hashes[n].getD (2 * i + 1) 0]) := by
  have hsize := h _ (List.getElem_mem hn)
  have hprefix := hg.hash_prefix h hn 0 16
  rw [List.drop_zero, List.take_of_length_le (by omega)] at hprefix
  have hbyte : ∀ j < 16, data.getD (12 + 20 * n + 4 + j) 0xFF = hashes[n].getD j 0 := by
    intro j hj
    have hget : programmedByte 0 data (0 + (12 + 20 * n + 4) + j) = hashes[n][j] :=
      programmedByte_of_prefix hprefix (by omega)
    rw [Nat.add_assoc, programmedByte_at] at hget
    rw [hget, List.getD_eq_getElem _ _ (by omega)]
  rw [keyData_eq hlen, show cfg.provisionAddress + (12 + 20 * n) + 4 + 2 * i =
    cfg.provisionAddress + (12 + 20 * n + 4 + 2 * i) by omega,
    readHalfword_programmed cfg.address_aligned (by omega), Nat.add_assoc _ (2 * i) 1,
    hbyte _ (by omega), hbyte _ (by omega)]

/-- The check of the keys finds the hashes with an aligned `0xFFFF`. -/
theorem verifyPublicKeys_ok_iff :
    verifyPublicKeys cfg (programmed cfg.provisionAddress data) = .ok () ↔
      ∀ mhash ∈ hashes, ¬ HoldsFFFF mhash := by
  have hkey : ∀ (n : Nat) (hn : n < hashes.length),
      (!keyIsValid cfg (programmed cfg.provisionAddress data) n ||
        (List.range 8).all fun i => readHalfword (programmed cfg.provisionAddress data)
          (keyData cfg n + 4 + 2 * i) ≠ 0xFFFF#16) = true ↔ ¬ HoldsFFFF hashes[n] := by
    intro n hn
    rw [hg.token_valid hlen h hn]
    simp only [Bool.not_true, Bool.false_or, List.all_eq_true, List.mem_range, decide_eq_true_eq,
      HoldsFFFF, not_exists, not_and]
    apply forall₂_congr
    intro i hi
    rw [hg.hash_halfword hlen h hn hi, ne_eq, halfword_eq_FFFF, not_and]
  rw [verifyPublicKeys, hlen, hg.numKeys]
  simp only [ite_eq_left_iff, reduceCtorEq, imp_false, not_not, List.all_eq_true, List.mem_range]
  constructor
  · intro hall mhash hmem
    obtain ⟨n, hn, rfl⟩ := List.mem_iff_getElem.mp hmem
    exact (hkey n hn).mp (hall n hn)
  · intro hall n hn
    exact (hkey n hn).mpr (hall _ (List.getElem_mem hn))

end Keys

section Counter

variable (hlen : cfg.publicKeyHashLen = 16)
include hlen

theorem collectionAddress_eq (hg : Generated s0 s1 hashes maxSize slots data) :
    collectionAddress cfg (programmed cfg.provisionAddress data) =
      cfg.provisionAddress + (12 + 20 * hashes.length) := by
  rw [collectionAddress, hg.numKeys, keyData_eq hlen]

theorem collection_halfword (hg : Generated s0 s1 hashes maxSize slots data) {off : Nat}
    (hoff : off % 2 = 0) :
    readHalfword (programmed cfg.provisionAddress data)
      (collectionAddress cfg (programmed cfg.provisionAddress data) + off) =
      BitVec.ofNat 16 (leValue [(data.drop (12 + 20 * hashes.length)).getD off 0xFF,
        (data.drop (12 + 20 * hashes.length)).getD (off + 1) 0xFF]) := by
  rw [hg.collectionAddress_eq hlen, Nat.add_assoc, readHalfword_programmed cfg.address_aligned
    (by omega)]
  simp only [List.getD_eq_getElem?_getD, List.getElem?_drop, Nat.add_assoc]

variable (hg : Generated s0 s1 hashes maxSize slots data)
  (h : ∀ mhash ∈ hashes, mhash.length = 16)
include hg h

theorem getCounterStruct_of_nonpos (hslots : slots ≤ 0) :
    getCounterStruct cfg (programmed cfg.provisionAddress data) counterDescVersion = none := by
  have htail : data.drop (12 + 20 * hashes.length) = leBytes 2 1 ++ leBytes 2 0 := by
    rcases packCounters_eq_ok (hg.counters_eq h) with ⟨-, heq⟩ | ⟨hpos, -⟩
    · exact heq
    · omega
  have htype := hg.collection_halfword hlen (Nat.zero_mod 2)
  have hnum := hg.collection_halfword hlen (Nat.mod_self 2)
  rw [htail] at htype hnum
  rw [getCounterStruct, getCounterCollection]
  simp only [Nat.add_zero] at htype
  rw [htype, if_pos (by decide), Option.bind_some, hnum]
  rfl

theorem getCounterStruct_of_pos (hslots : 0 < slots) :
    getCounterStruct cfg (programmed cfg.provisionAddress data) counterDescVersion =
        some (collectionAddress cfg (programmed cfg.provisionAddress data) + 4) ∧
      numMonotonicCounterSlots cfg (programmed cfg.provisionAddress data) =
        (roundedSlots slots).toNat ∧
      ∀ i, slotValue (programmed cfg.provisionAddress data)
        (counterSlots cfg (programmed cfg.provisionAddress data)) i = 0 := by
  have htail : roundedSlots slots < 2 ^ 16 ∧ data.drop (12 + 20 * hashes.length) =
      leBytes 2 1 ++ leBytes 2 1 ++ leBytes 2 1 ++ leBytes 2 (roundedSlots slots).toNat := by
    rcases packCounters_eq_ok (hg.counters_eq h) with ⟨hle, -⟩ | ⟨-, heq⟩
    · omega
    · exact heq
  have hread := fun off (hoff : off % 2 = 0) => hg.collection_halfword hlen hoff
  rw [htail.2] at hread
  have hrounded : roundedSlots slots % 2 = 0 ∧ 0 < roundedSlots slots := by
    rw [roundedSlots]
    split <;> omega
  have hfound : getCounterStruct cfg (programmed cfg.provisionAddress data) counterDescVersion =
      some (collectionAddress cfg (programmed cfg.provisionAddress data) + 4) := by
    have htype := hread 0 rfl
    rw [Nat.add_zero] at htype
    rw [getCounterStruct, getCounterCollection, htype, if_pos (by rfl), Option.bind_some,
      hread 2 rfl, show BitVec.toNat _ = 1 from rfl, findCounter, hread 4 rfl]
    rfl
  refine ⟨hfound, ?_, ?_⟩
  · have hslots' := hread 6 rfl
    change _ = BitVec.ofNat 16 (leValue (leBytes 2 (roundedSlots slots).toNat)) at hslots'
    rw [leValue_leBytes, Nat.mod_eq_of_lt (by omega)] at hslots'
    have hne : BitVec.ofNat 16 (roundedSlots slots).toNat ≠ 0xFFFF#16 := by
      rw [ne_eq, ← BitVec.toNat_inj, BitVec.toNat_ofNat, BitVec.toNat_ofNat]
      omega
    simp only [numMonotonicCounterSlots, hfound, Nat.add_assoc, Nat.reduceAdd, hslots', if_pos hne,
      BitVec.toNat_ofNat]
    omega
  · intro i
    have hbehind := hread (4 + (4 + 2 * i)) (by omega)
    rw [List.getD_eq_default _ _ (by simp; omega), List.getD_eq_default _ _ (by simp; omega)]
      at hbehind
    rw [slotValue_eq_zero, counterSlots, hfound, Option.getD_some, Nat.add_assoc, Nat.add_assoc,
      hbehind]
    rfl

theorem slots_eq : (numMonotonicCounterSlots cfg (programmed cfg.provisionAddress data) : Int) =
    max 0 (slots + slots % 2) := by
  by_cases hslots : 0 < slots
  · rw [(hg.getCounterStruct_of_pos hlen h hslots).2.1, roundedSlots]
    split <;> omega
  · rw [numMonotonicCounterSlots, hg.getCounterStruct_of_nonpos hlen h (by omega)]
    simp only [Nat.cast_zero]
    omega

theorem slot_erased {i : Nat}
    (hi : i < numMonotonicCounterSlots cfg (programmed cfg.provisionAddress data)) :
    slotValue (programmed cfg.provisionAddress data)
      (counterSlots cfg (programmed cfg.provisionAddress data)) i = 0 := by
  have hnum := hg.slots_eq hlen h
  exact (hg.getCounterStruct_of_pos hlen h (by omega)).2.2 i

theorem counter_eq : getMonotonicCounter cfg (programmed cfg.provisionAddress data) = 0 := by
  have hfirst : 0 < numMonotonicCounterSlots cfg (programmed cfg.provisionAddress data) →
      slotValue (programmed cfg.provisionAddress data)
        (counterSlots cfg (programmed cfg.provisionAddress data)) 0 = 0 :=
    hg.slot_erased hlen h
  rw [getMonotonicCounter, getCounter]
  cases hn : numMonotonicCounterSlots cfg (programmed cfg.provisionAddress data) with
  | zero => rfl
  | succ n => simp [getCounterLoop, hfirst (by omega)]

theorem slot_fits {i : Nat}
    (hi : i < numMonotonicCounterSlots cfg (programmed cfg.provisionAddress data)) :
    cfg.provisionAddress ≤ counterSlots cfg (programmed cfg.provisionAddress data) + 2 * i ∧
      ((counterSlots cfg (programmed cfg.provisionAddress data) + 2 * i + 2 : Nat) : Int) ≤
        cfg.provisionAddress + maxSize := by
  have hnum := hg.slots_eq hlen h
  have hslots : 0 < slots := by omega
  have hstart : collectionAddress cfg (programmed cfg.provisionAddress data) =
      cfg.provisionAddress + (12 + 20 * hashes.length) := hg.collectionAddress_eq hlen
  have hfits := hg.fits
  have hlength : 12 + 20 * hashes.length + 8 ≤ data.length := by
    rcases packCounters_eq_ok (hg.counters_eq h) with ⟨hle, -⟩ | ⟨-, -, heq⟩
    · omega
    · have := congrArg List.length heq
      simp only [List.length_drop, List.length_append, length_leBytes] at this
      omega
  have hrounded := (hg.getCounterStruct_of_pos hlen h hslots).2.1
  rw [counterSlots, (hg.getCounterStruct_of_pos hlen h hslots).1, Option.getD_some]
  omega

end Counter

end Generated

/-- Whatever the script accepts, the reader finds it in an erased memory into which the result was
programmed. The keys pass their check exactly when no hash has an aligned `0xFFFF`. -/
theorem generateProvisionHexFile_readsBack (cfg : StorageConfig) (hlen : cfg.publicKeyHashLen = 16)
    {κ : Type} {digest : κ → Vector UInt8 32} {publicKeyFiles : List κ}
    {hashes : List (List UInt8)} (hhashes : getHashes digest publicKeyFiles = .ok hashes)
    {s0 s1 maxSize slots : Int} {data : List UInt8}
    (hdata : generateProvisionHexFile s0 s1 hashes maxSize slots = .ok data) :
    ReadsBack cfg (programmed cfg.provisionAddress data) s0 s1 hashes maxSize slots ∧
      (verifyPublicKeys cfg (programmed cfg.provisionAddress data) = .ok () ↔
        ∀ mhash ∈ hashes, ¬ HoldsFFFF mhash) := by
  have h := length_of_getHashes hhashes
  have hg := generated_of_ok hdata
  refine ⟨?_, hg.verifyPublicKeys_ok_iff hlen h⟩
  constructor
  · exact hg.s0Address
  · exact hg.s1Address
  · exact hg.numKeys
  · intro idx hidx
    exact ⟨hg.token_valid hlen h hidx, hg.publicKeyDataRead_ok hlen h hidx⟩
  · exact hg.slots_eq hlen h
  · exact hg.counter_eq hlen h
  · intro i hi
    exact hg.slot_fits hlen h hi

def provisionPage : StorageConfig where
  provisionAddress := 0xFF8000
  publicKeyHashLen := 16
  address_aligned := by decide
  hashLen_aligned := hashLen16_aligned

def twoKeysPage : List UInt8 :=
  [0, 0x80, 0, 0, 0, 0, 1, 0, 2, 0, 0, 0] ++ (leBytes 4 0xFFFFFFFF ++ List.replicate 16 1) ++
    (leBytes 4 0xFFFFFFFF ++ List.replicate 16 2) ++ [1, 0, 1, 0, 1, 0, 4, 0]

theorem twoKeys_readBack :
    ReadsBack provisionPage (programmed 0xFF8000 twoKeysPage) 0x8000 0x10000
        [List.replicate 16 1, List.replicate 16 2] 0x1000 3 ∧
      (verifyPublicKeys provisionPage (programmed 0xFF8000 twoKeysPage) = .ok () ↔
        ∀ mhash ∈ [List.replicate 16 1, List.replicate 16 2], ¬ HoldsFFFF mhash) := by
  have hhashes : getHashes (fun key : UInt8 => Vector.replicate 32 key) [1, 2] =
      .ok [List.replicate 16 1, List.replicate 16 2] := by
    decide
  have hdata : generateProvisionHexFile 0x8000 0x10000
      [List.replicate 16 1, List.replicate 16 2] 0x1000 3 = .ok twoKeysPage := by
    decide
  exact generateProvisionHexFile_readsBack provisionPage rfl hhashes hdata

/-- A key whose hash starts with `0xFFFF` is packed, and refused by the reader. A negative number of
slots is packed too, and read as no slots. -/
theorem unsupportedHash_packed :
    (∃ data, getHashes (fun _ : Unit => Vector.replicate 32 0xFF) [()] =
        .ok [List.replicate 16 0xFF] ∧
      generateProvisionHexFile 0x8000 0x10000 [List.replicate 16 0xFF] 0x1000 0 = .ok data ∧
      verifyPublicKeys provisionPage (programmed 0xFF8000 data) = .error .EHASHFF) ∧
    ∃ data, generateProvisionHexFile 0x8000 0x10000 [] 0x1000 (-4) = .ok data ∧
      numMonotonicCounterSlots provisionPage (programmed 0xFF8000 data) = 0 := by
  refine ⟨⟨_, ?_, rfl, ?_⟩, ⟨_, rfl, ?_⟩⟩ <;> decide

end SdkNrf.Bootloader
