import SdkNrf.Bootloader.AntiRollback
import SdkNrf.Bootloader.Provisioning

/-!
# Key revocation

An accepted image revokes every key below the one that it was signed with.
-/

namespace SdkNrf.Bootloader

section Keys

variable (cfg : StorageConfig)

def validKeys (mem : WordMemory) : Finset Nat :=
  (Finset.range (numPublicKeysRead cfg mem).toNat).filter fun idx => keyIsValid cfg mem idx

def keyHash (mem : WordMemory) (idx : Nat) : List (BitVec 32) :=
  (List.range (cfg.publicKeyHashLen / 4)).map fun i => mem (keyData cfg idx / 4 + 1 + i)

/-- The calls of `invalidate_public_key` for an image that was accepted with the key at `k`. -/
def revokeBelow (mem : WordMemory) (k : Nat) : WordMemory :=
  (List.range k).foldl (invalidatePublicKey cfg) mem

/-- A page whose keys can all be invalidated. -/
structure KeyPage where
  mem : WordMemory
  revocable : ∀ idx < (numPublicKeysRead cfg mem).toNat,
    mem (keyData cfg idx / 4) &&& invalidVal = invalidVal

end Keys

variable {cfg : StorageConfig} {mem mem' : WordMemory}

theorem mem_validKeys {idx : Nat} : idx ∈ validKeys cfg mem ↔
    idx < (numPublicKeysRead cfg mem).toNat ∧ mem (keyData cfg idx / 4) ≠ invalidVal := by
  simp [validKeys, keyIsValid]

theorem invalidatePublicKey_eq (mem : WordMemory) (idx : Nat) :
    invalidatePublicKey cfg mem idx = mem.wordWrite (keyData cfg idx / 4) invalidVal := by
  rw [invalidatePublicKey]
  split
  · rfl
  next hvalid =>
    have htoken : mem (keyData cfg idx / 4) = invalidVal := by simpa [keyIsValid] using hvalid
    funext w
    by_cases hw : w = keyData cfg idx / 4
    · subst hw
      rw [WordMemory.wordWrite_self, htoken]
      rfl
    · rw [WordMemory.wordWrite_of_ne _ _ hw]

/-- Revoking clears bits of the tokens below `k` and nothing else. -/
theorem revokeBelow_apply (mem : WordMemory) (k w : Nat) : revokeBelow cfg mem k w =
    if ∃ i < k, w = keyData cfg i / 4 then mem w &&& invalidVal else mem w := by
  induction k with
  | zero => simp [revokeBelow]
  | succ k ih =>
    rw [revokeBelow, List.range_succ, List.foldl_append, List.foldl_cons, List.foldl_nil,
      invalidatePublicKey_eq]
    change (revokeBelow cfg mem k).wordWrite _ _ w = _
    by_cases hw : w = keyData cfg k / 4
    · have hnew : ¬ ∃ i < k, w = keyData cfg i / 4 := by
        rintro ⟨i, hi, rfl⟩
        have := keyData_le cfg hi
        omega
      rw [if_pos ⟨k, Nat.lt_succ_self k, hw⟩, ← hw, WordMemory.wordWrite_self, ih, if_neg hnew]
    · rw [WordMemory.wordWrite_of_ne _ _ hw, ih]
      congr 1
      simp only [Nat.lt_succ_iff_lt_or_eq, or_and_right, exists_or, exists_eq_left, hw, or_false]

theorem keyData_word_lt {i j : Nat} (h : i < j) : keyData cfg i / 4 < keyData cfg j / 4 := by
  have := keyData_le cfg h
  omega

theorem revokeBelow_token (mem : WordMemory) (k idx : Nat) :
    revokeBelow cfg mem k (keyData cfg idx / 4) = if idx < k then
      mem (keyData cfg idx / 4) &&& invalidVal else mem (keyData cfg idx / 4) := by
  rw [revokeBelow_apply]
  congr 1
  rw [eq_iff_iff]
  constructor
  · rintro ⟨i, hi, heq⟩
    rcases Nat.lt_trichotomy i idx with hlt | rfl | hlt
    · have hword : keyData cfg i / 4 < keyData cfg idx / 4 := keyData_word_lt hlt
      omega
    · exact hi
    · omega
  · intro h
    exact ⟨idx, h, rfl⟩

theorem revokeBelow_num (mem : WordMemory) (k : Nat) :
    numPublicKeysRead cfg (revokeBelow cfg mem k) = numPublicKeysRead cfg mem := by
  rw [numPublicKeysRead, revokeBelow_apply, if_neg]
  · rfl
  · rintro ⟨i, -, heq⟩
    have : cfg.provisionAddress + 12 ≤ keyData cfg i := by
      rw [keyData]
      omega
    omega

theorem keyHash_revokeBelow (mem : WordMemory) (k idx : Nat) :
    keyHash cfg (revokeBelow cfg mem k) idx = keyHash cfg mem idx := by
  apply List.map_congr_left
  intro i hi
  rw [List.mem_range] at hi
  rw [revokeBelow_apply, if_neg]
  rintro ⟨j, -, heq⟩
  have hlen := cfg.hashLen_aligned
  have halign := keyData_aligned cfg
  rcases Nat.lt_or_ge idx j with hlt | hge
  · have hmul := Nat.mul_le_mul_left (4 + cfg.publicKeyHashLen) hlt
    rw [Nat.mul_succ] at hmul
    have hj := halign j
    have hidx := halign idx
    simp only [keyData] at heq hj hidx
    omega
  · rcases Nat.eq_or_lt_of_le hge with rfl | hlt
    · omega
    · have hword : keyData cfg j / 4 < keyData cfg idx / 4 := keyData_word_lt hlt
      omega

/-- The keys from `k` on stay valid, the others are revoked. -/
theorem KeyPage.validKeys_revokeBelow (page : KeyPage cfg) (k : Nat) :
    validKeys cfg (revokeBelow cfg page.mem k) = (validKeys cfg page.mem).filter (k ≤ ·) := by
  ext idx
  rw [Finset.mem_filter, mem_validKeys, mem_validKeys, revokeBelow_num, revokeBelow_token, and_assoc]
  apply and_congr_right
  intro hidx
  by_cases hlt : idx < k
  · simp [hlt, page.revocable idx hidx]
  · simp [hlt, Nat.not_lt.mp hlt]

def KeyPage.revoke (page : KeyPage cfg) (k : Nat) : KeyPage cfg where
  mem := revokeBelow cfg page.mem k
  revocable := by
    intro idx hidx
    rw [revokeBelow_num] at hidx
    rw [revokeBelow_token]
    split
    · rw [page.revocable idx hidx]
      rfl
    · exact page.revocable idx hidx

/-- The arguments of a call of `validate_signature`, and the root-of-trust checks at that time: the
bootloader's own one in `plat`, and the one that is used for external calls. -/
structure SignatureCall where
  plat : Platform
  flash : Flash
  fwSrcAddress : BitVec 32
  fwSize : BitVec 32
  fwValInfo : BitVec 32
  external : Bool
  rotVerifyExternal : Flash → BitVec 32 → List (BitVec 32) → BitVec 32 → BitVec 32 → BitVec 32 → Int

namespace SignatureCall

/-- The check that `external` selects. -/
def verifier (call : SignatureCall) : Platform :=
  if call.external then { call.plat with rotVerify := call.rotVerifyExternal } else call.plat

variable (bcfg : BootConfig) (call : SignatureCall)

def run (mem : WordMemory) : Bool × WordMemory :=
  validateSignature bcfg call.flash call.verifier mem call.fwSrcAddress call.fwSize call.fwValInfo

def rotResult (keyData : List (BitVec 32)) : Int :=
  call.verifier.rotVerify call.flash (call.fwValInfo + 16 + bcfg.hashLen) keyData
    (call.fwValInfo + 16 + bcfg.hashLen + bcfg.publicKeyLen) call.fwSrcAddress call.fwSize

def Matches (keyData : List (BitVec 32)) : Prop := call.rotResult bcfg keyData ≠ -ehashinv

/-- The image is accepted with the key at index `k`: it is authentic under this key, and matches no
valid key below. -/
structure AcceptedWith (mem : WordMemory) (k : Nat) : Prop where
  valid : k ∈ validKeys bcfg.toStorageConfig mem
  authentic : call.rotResult bcfg (keyHash bcfg.toStorageConfig mem k) = 0
  first : ∀ j < k, j ∈ validKeys bcfg.toStorageConfig mem →
    ¬ call.Matches bcfg (keyHash bcfg.toStorageConfig mem j)

end SignatureCall

variable {bcfg : BootConfig} {call : SignatureCall}

theorem publicKeyDataRead_of_valid {idx : Nat} (h : idx ∈ validKeys cfg mem) :
    publicKeyDataRead cfg mem idx cfg.publicKeyHashLen = .ok (keyHash cfg mem idx) := by
  rw [mem_validKeys] at h
  simp [publicKeyDataRead, keyIsValid, keyHash, h.1, h.2]

theorem publicKeyDataRead_of_revoked {idx : Nat} (hidx : idx < (numPublicKeysRead cfg mem).toNat)
    (h : idx ∉ validKeys cfg mem) :
    publicKeyDataRead cfg mem idx cfg.publicKeyHashLen = .error .EINVAL := by
  rw [mem_validKeys, not_and, not_not] at h
  simp [publicKeyDataRead, keyIsValid, h hidx]

theorem validateSignatureLoop_cases {n idx : Nat}
    (hn : idx + n = (numPublicKeysRead bcfg.toStorageConfig mem).toNat)
    (hfirst : ∀ j < idx, j ∈ validKeys bcfg.toStorageConfig mem →
      ¬ call.Matches bcfg (keyHash bcfg.toStorageConfig mem j)) :
    validateSignatureLoop bcfg call.flash call.verifier call.fwSrcAddress call.fwSize
        call.fwValInfo n idx mem = (false, mem) ∨
      ∃ k, call.AcceptedWith bcfg mem k ∧
        validateSignatureLoop bcfg call.flash call.verifier call.fwSrcAddress call.fwSize
          call.fwValInfo n idx mem = (true, revokeBelow bcfg.toStorageConfig mem k) := by
  induction n generalizing idx with
  | zero => exact .inl rfl
  | succ n ih =>
    have hnext : ¬ (idx ∈ validKeys bcfg.toStorageConfig mem ∧
        call.Matches bcfg (keyHash bcfg.toStorageConfig mem idx)) →
        ∀ j < idx + 1, j ∈ validKeys bcfg.toStorageConfig mem →
          ¬ call.Matches bcfg (keyHash bcfg.toStorageConfig mem j) := by
      intro hidx j hj hvalid hmatch
      rcases Nat.lt_succ_iff_lt_or_eq.mp hj with hlt | rfl
      · exact hfirst j hlt hvalid hmatch
      · exact hidx ⟨hvalid, hmatch⟩
    rw [validateSignatureLoop]
    by_cases hvalid : idx ∈ validKeys bcfg.toStorageConfig mem
    · rw [publicKeyDataRead_of_valid hvalid]
      simp only
      split
      next hzero => exact .inr ⟨idx, ⟨hvalid, hzero, hfirst⟩, rfl⟩
      next =>
        split
        next hmismatch =>
          apply ih (by omega) (hnext _)
          rintro ⟨-, hmatch⟩
          exact hmatch hmismatch
        next => exact .inl rfl
    · rw [publicKeyDataRead_of_revoked (by omega) hvalid]
      exact ih (by omega) (hnext fun h => hvalid h.1)

theorem SignatureCall.run_cases (call : SignatureCall) (bcfg : BootConfig) (mem : WordMemory) :
    call.run bcfg mem = (false, mem) ∨
    ∃ k, call.AcceptedWith bcfg mem k ∧
      call.run bcfg mem = (true, revokeBelow bcfg.toStorageConfig mem k) := by
  rw [run, validateSignature]
  split
  · exact .inl rfl
  split
  · exact .inl rfl
  · exact validateSignatureLoop_cases (Nat.zero_add _) (by simp)

/-- What calls may change: some keys are revoked. The number of keys and their hashes stay, and
there is still a valid key if there was one. -/
structure RevokedFrom (cfg : StorageConfig) (mem mem' : WordMemory) : Prop where
  num : numPublicKeysRead cfg mem' = numPublicKeysRead cfg mem
  hashes : ∀ idx, keyHash cfg mem' idx = keyHash cfg mem idx
  shrinks : validKeys cfg mem' ⊆ validKeys cfg mem
  nonempty : (validKeys cfg mem).Nonempty → (validKeys cfg mem').Nonempty

theorem RevokedFrom.refl (mem : WordMemory) : RevokedFrom cfg mem mem :=
  ⟨rfl, fun _ => rfl, Finset.Subset.refl _, id⟩

theorem RevokedFrom.trans {mem'' : WordMemory} (h : RevokedFrom cfg mem mem')
    (h' : RevokedFrom cfg mem' mem'') : RevokedFrom cfg mem mem'' where
  num := h'.num.trans h.num
  hashes idx := (h'.hashes idx).trans (h.hashes idx)
  shrinks := h'.shrinks.trans h.shrinks
  nonempty hne := h'.nonempty (h.nonempty hne)

def afterCalls (bcfg : BootConfig) (mem : WordMemory) (calls : List SignatureCall) : WordMemory :=
  calls.foldl (fun mem call => (call.run bcfg mem).2) mem

theorem KeyPage.revokedFrom (page : KeyPage cfg) {k : Nat} (hk : k ∈ validKeys cfg page.mem) :
    RevokedFrom cfg page.mem (revokeBelow cfg page.mem k) where
  num := revokeBelow_num page.mem k
  hashes := keyHash_revokeBelow page.mem k
  shrinks := by
    rw [page.validKeys_revokeBelow]
    exact Finset.filter_subset ..
  nonempty := by
    intro _
    rw [page.validKeys_revokeBelow]
    exact ⟨k, Finset.mem_filter.mpr ⟨hk, le_refl k⟩⟩

def KeyPage.provisioned (cfg : StorageConfig) (hlen : cfg.publicKeyHashLen = 16) {s0 s1 : Int}
    {hashes : List (List UInt8)} {maxSize slots : Int} {data : List UInt8}
    (hdata : generateProvisionHexFile s0 s1 hashes maxSize slots = .ok data)
    (h : ∀ mhash ∈ hashes, mhash.length = 16) : KeyPage cfg where
  mem := programmed cfg.provisionAddress data
  revocable := by
    intro idx hidx
    have hg := generated_of_ok hdata
    have hnum : (numPublicKeysRead cfg (programmed cfg.provisionAddress data)).toNat =
        hashes.length := hg.numKeys
    rw [hg.token_word hlen h (by omega)]
    rfl

variable (page : KeyPage bcfg.toStorageConfig)

theorem KeyPage.step (call : SignatureCall) :
    ∃ page' : KeyPage bcfg.toStorageConfig, page'.mem = (call.run bcfg page.mem).2 ∧
      RevokedFrom bcfg.toStorageConfig page.mem page'.mem := by
  rcases call.run_cases bcfg page.mem with heq | ⟨k, haccepted, heq⟩
  · exact ⟨page, by rw [heq], .refl _⟩
  · exact ⟨page.revoke k, by rw [heq]; rfl, page.revokedFrom haccepted.valid⟩

theorem KeyPage.run (calls : List SignatureCall) :
    ∃ page' : KeyPage bcfg.toStorageConfig, page'.mem = afterCalls bcfg page.mem calls ∧
      RevokedFrom bcfg.toStorageConfig page.mem page'.mem := by
  induction calls generalizing page with
  | nil => exact ⟨page, rfl, .refl _⟩
  | cons call calls ih =>
    obtain ⟨page₁, hmem₁, h₁⟩ := page.step call
    obtain ⟨page₂, hmem₂, h₂⟩ := ih page₁
    refine ⟨page₂, ?_, h₁.trans h₂⟩
    rw [hmem₂, hmem₁]
    rfl

/-- After the image was accepted with the key at `k`, an image that matches only keys below is not
accepted any more. -/
theorem KeyPage.refused_below {k : Nat} (later : List SignatureCall) (call' : SignatureCall)
    (honly : ∀ j < (numPublicKeysRead bcfg.toStorageConfig page.mem).toNat,
      call'.Matches bcfg (keyHash bcfg.toStorageConfig page.mem j) → j < k) :
    (call'.run bcfg (afterCalls bcfg
      (revokeBelow bcfg.toStorageConfig page.mem k) later)).1 = false := by
  obtain ⟨page', hmem, hfrom⟩ := (page.revoke k).run later
  change page'.mem = afterCalls bcfg (revokeBelow _ page.mem k) later at hmem
  rw [← hmem]
  rcases call'.run_cases bcfg page'.mem with heq | ⟨j, haccepted, heq⟩
  · rw [heq]
  · have hvalid := hfrom.shrinks haccepted.valid
    change j ∈ validKeys _ (revokeBelow _ page.mem k) at hvalid
    rw [page.validKeys_revokeBelow, Finset.mem_filter] at hvalid
    have hash : keyHash bcfg.toStorageConfig page'.mem j =
        keyHash bcfg.toStorageConfig page.mem j :=
      (hfrom.hashes j).trans (keyHash_revokeBelow page.mem k j)
    have hmatch : call'.Matches bcfg (keyHash bcfg.toStorageConfig page.mem j) := by
      rw [SignatureCall.Matches, ← hash, haccepted.authentic]
      decide
    have := honly j (Finset.mem_range.mp (Finset.mem_filter.mp hvalid.1).1) hmatch
    omega

/-- What a call does to the keys when it comes after `history`: the valid keys only become fewer,
some key stays valid, a call that does not accept changes nothing, and an image that is accepted
with the key at `k` shuts out every later image that matches only keys below. -/
structure RevocationHolds (bcfg : BootConfig) (start : WordMemory) (history : List SignatureCall)
    (call : SignatureCall) : Prop where
  shrinks : validKeys bcfg.toStorageConfig (call.run bcfg (afterCalls bcfg start history)).2 ⊆
    validKeys bcfg.toStorageConfig (afterCalls bcfg start history)
  nonempty : (validKeys bcfg.toStorageConfig (afterCalls bcfg start history)).Nonempty →
    (validKeys bcfg.toStorageConfig (call.run bcfg (afterCalls bcfg start history)).2).Nonempty
  refused : (call.run bcfg (afterCalls bcfg start history)).1 = false →
    (call.run bcfg (afterCalls bcfg start history)).2 = afterCalls bcfg start history
  accepted : (call.run bcfg (afterCalls bcfg start history)).1 = true →
    ∃ k, call.AcceptedWith bcfg (afterCalls bcfg start history) k ∧
      ∀ later call', (∀ j < (numPublicKeysRead bcfg.toStorageConfig start).toNat,
          SignatureCall.Matches bcfg call' (keyHash bcfg.toStorageConfig start j) → j < k) →
        (SignatureCall.run bcfg call' (afterCalls bcfg
          (call.run bcfg (afterCalls bcfg start history)).2 later)).1 = false

/-- Over every history of calls, local and external, on a page whose keys can be invalidated. -/
theorem validateSignature_revocation (page : KeyPage bcfg.toStorageConfig)
    (history : List SignatureCall) (call : SignatureCall) :
    RevocationHolds bcfg page.mem history call := by
  obtain ⟨page', hmem, hfrom⟩ := page.run history
  rcases call.run_cases bcfg page'.mem with heq | ⟨k, haccepted, heq⟩
  · constructor <;> simp [← hmem, heq]
  · have hstep := page'.revokedFrom haccepted.valid
    constructor
    · rw [← hmem, heq]
      exact hstep.shrinks
    · rw [← hmem, heq]
      exact hstep.nonempty
    · simp [← hmem, heq]
    · intro _
      rw [← hmem, heq]
      refine ⟨k, haccepted, fun later call' honly => page'.refused_below later call' ?_⟩
      intro j hj hmatch
      rw [hfrom.num] at hj
      rw [hfrom.hashes] at hmatch
      exact honly j hj hmatch

def twoKeyPage : KeyPage demoConfig.toStorageConfig :=
  have hdata : generateProvisionHexFile 0x8000 0x10000
      [List.replicate 16 1, List.replicate 16 2] 0x1000 3 = .ok twoKeysPage := by
    decide
  .provisioned demoConfig.toStorageConfig rfl hdata (by decide)

/-- An authentic image of the key whose hash repeats `word`. -/
def signedWith (word : BitVec 32) : SignatureCall where
  plat := ⟨true, 0, fun _ _ keyData _ _ _ => if keyData = List.replicate 4 word then 0 else -ehashinv,
    fun _ _ _ => 0, fun _ _ => true⟩
  flash := fun _ => 0
  fwSrcAddress := 0x8000
  fwSize := 0x400
  fwValInfo := 0x8400
  external := false
  rotVerifyExternal := fun _ _ _ _ _ _ => -ehashinv

/-- The second key is used, and afterwards the first one is refused. -/
theorem secondKey_revokesFirst :
    ((signedWith 0x02020202).run demoConfig twoKeyPage.mem).1 = true ∧
      ((signedWith 0x01010101).run demoConfig twoKeyPage.mem).1 = true ∧
      RevocationHolds demoConfig twoKeyPage.mem [] (signedWith 0x02020202) ∧
      ((signedWith 0x01010101).run demoConfig
        ((signedWith 0x02020202).run demoConfig twoKeyPage.mem).2).1 = false :=
  ⟨by decide, by decide, validateSignature_revocation twoKeyPage [] _,
    by decide⟩

end SdkNrf.Bootloader
