import SdkNrf.Framework.Reading

/-!
# The parser of the Type 2 Tag

`nfc_t2t_parse` reads the internal bytes and the capability container, and then TLV blocks until the
end of the data area or a terminator.
-/

namespace SdkNrf.Type2Tag

open Reading

inductive Errno
  | EINVAL
  | EFAULT
  | ENOMEM
  deriving DecidableEq, Repr

/-- `struct nfc_t2t_tlv_block`; `value` is the offset of the value in the raw data, `none` for
`NULL`. -/
structure TlvBlock where
  tag : UInt8
  length : Nat
  value : Option Nat
  deriving DecidableEq, Repr

/-- `struct nfc_t2t_sn`. -/
structure Sn where
  manufacturerId : UInt8
  serialNumberPart1 : Nat
  serialNumberPart2 : Nat
  checkByte0 : UInt8
  checkByte1 : UInt8
  internal : UInt8
  deriving DecidableEq, Repr

/-- `struct nfc_t2t_cc`. The size of the data area is a byte times eight. -/
structure Cc where
  majorVersion : Nat
  minorVersion : Nat
  dataAreaSize : Nat
  readAccess : Nat
  writeAccess : Nat
  size_le : dataAreaSize ≤ 255 * 8
  deriving DecidableEq, Repr

/-- `struct nfc_t2t`; `tlvBlocks` holds the first `tlv_count` entries of the array. -/
structure T2t where
  sn : Sn
  lockBytes : Nat
  cc : Cc
  maxTlvBlocks : Nat
  tlvBlocks : List TlvBlock
  deriving DecidableEq, Repr

def tlvNull : UInt8 := 0x00

def tlvLockControl : UInt8 := 0x01

def tlvMemoryControl : UInt8 := 0x02

def tlvTerminator : UInt8 := 0xFE

def firstDataBlockOffset : Nat := 16

def ccBlockOffset : Nat := 12

def nfcForumDefinedData : UInt8 := 0xE1

def supportedMajorVersion : Nat := 1

def Cc.dataEnd (cc : Cc) : Nat := cc.dataAreaSize + firstDataBlockOffset

section Fields

variable (cc : Cc) (raw : Memory)

def isEndReached (offset : Nat) : Bool := offset = cc.dataEnd

def isFieldWithinDataRange (offset fieldLength : Nat) : Bool :=
  fieldLength ≠ 0 ∧ offset + fieldLength - 1 < cc.dataEnd ∧ firstDataBlockOffset ≤ offset

/-- `nfc_t2t_type_extract`, with the offset behind the field. -/
def typeExtract (offset : Nat) : Reading Errno (UInt8 × Nat) :=
  if isFieldWithinDataRange cc offset 1 then do
    let tag ← byteAt raw offset
    return (tag, (offset + 1) % 2 ^ 16)
  else fail .EINVAL

def lengthExtract (offset : Nat) : Reading Errno (Nat × Nat) :=
  if isFieldWithinDataRange cc offset 1 then do
    let first ← byteAt raw offset
    if first = 0xFF then
      if isFieldWithinDataRange cc offset 3 then do
        let length ← be16At raw (offset + 1)
        if length < 0xFF then fail .EINVAL else return (length, (offset + 3) % 2 ^ 16)
      else fail .EINVAL
    else return (first.toNat, (offset + 1) % 2 ^ 16)
  else fail .EINVAL

def valuePtrExtract (offset length : Nat) : Reading Errno (Option Nat × Nat) :=
  if length = 0 then return (none, offset)
  else if isFieldWithinDataRange cc offset length then
    return (some offset, (offset + length) % 2 ^ 16)
  else fail .EINVAL

def tlvBlockExtract (offset : Nat) : Reading Errno (TlvBlock × Nat) := do
  let (tag, offset) ← typeExtract cc raw offset
  if tag = tlvNull then return (⟨tag, 0, none⟩, offset)
  else if tag = tlvTerminator then return (⟨tag, 0, none⟩, 0)
  else do
    let (length, offset) ← lengthExtract cc raw offset
    if 0 < length then do
      let (value, offset) ← valuePtrExtract cc offset length
      return (⟨tag, length, value⟩, offset)
    else return (⟨tag, length, none⟩, offset)

end Fields

def isDataLengthCorrect (block : TlvBlock) : Bool :=
  if block.tag = tlvNull ∨ block.tag = tlvTerminator then block.length = 0
  else if block.tag = tlvLockControl ∨ block.tag = tlvMemoryControl then block.length = 3
  else true

def tlvBlockInsert (t2t : T2t) (block : TlvBlock) : Reading Errno T2t :=
  if t2t.tlvBlocks.length = t2t.maxTlvBlocks then fail .ENOMEM
  else pure { t2t with tlvBlocks := t2t.tlvBlocks ++ [block] }

/-- `nfc_t2t_tlv_parse`, with the offset of the next block. -/
def tlvParse (raw : Memory) (t2t : T2t) (offset : Nat) : Reading Errno (T2t × Nat) := do
  let (newBlock, offset) ← tlvBlockExtract t2t.cc raw offset
  if isDataLengthCorrect newBlock then
    if newBlock.tag = tlvNull ∨ newBlock.tag = tlvTerminator then return (t2t, offset)
    else do
      let t2t ← tlvBlockInsert t2t newBlock
      return (t2t, offset)
  else fail .EINVAL

section Results

variable {cc : Cc} {raw : Memory} {offset next : Nat}

theorem isFieldWithinDataRange_iff {fieldLength : Nat} :
    isFieldWithinDataRange cc offset fieldLength = true ↔
      0 < fieldLength ∧ offset + fieldLength ≤ cc.dataEnd ∧ 16 ≤ offset := by
  rw [isFieldWithinDataRange, decide_eq_true_eq, firstDataBlockOffset]
  omega

theorem mod_of_le_dataEnd (h : offset ≤ cc.dataEnd) : offset % 2 ^ 16 = offset := by
  have hsize := cc.size_le
  unfold Cc.dataEnd firstDataBlockOffset at h
  exact Nat.mod_eq_of_lt (by omega)

theorem typeExtract_eq_ok_iff {tag : UInt8} :
    (typeExtract cc raw offset).result = .ok (tag, next) ↔
      (16 ≤ offset ∧ offset < cc.dataEnd) ∧ raw.getD offset 0 = tag ∧ next = offset + 1 := by
  unfold typeExtract
  split_ifs with hrange
  · rw [isFieldWithinDataRange_iff] at hrange
    simp only [result_bind, result_byteAt, bind_eq_ok, Except.ok.injEq, exists_eq_left',
      result_pure, Prod.mk.injEq, mod_of_le_dataEnd hrange.2.1]
    constructor
    · exact fun h => ⟨⟨hrange.2.2, by omega⟩, h.1, h.2.symm⟩
    · exact fun h => ⟨h.2.1, h.2.2.symm⟩
  · rw [isFieldWithinDataRange_iff] at hrange
    exact iff_of_false (by rintro ⟨⟩) (fun h => by omega)

def lengthBytes (long : Bool) (length : Nat) : List UInt8 :=
  if long then 0xFF :: be16 length else [UInt8.ofNat length]

def LengthForm (long : Bool) (length : Nat) : Prop :=
  if long then 255 ≤ length ∧ length < 2 ^ 16 else length < 255

def lengthWidth (long : Bool) : Nat := if long then 3 else 1

theorem length_lengthBytes (long : Bool) (length : Nat) :
    (lengthBytes long length).length = lengthWidth long := by
  cases long <;> rfl

theorem toNat_ofNat_of_lt {n : Nat} (h : n < 256) : (UInt8.ofNat n).toNat = n := by
  rw [UInt8.toNat_ofNat']
  omega

theorem lengthExtract_short {length : Nat} (h : isFieldWithinDataRange cc offset 1 = true)
    (hshort : raw.getD offset 0 ≠ 0xFF) :
    (lengthExtract cc raw offset).result = .ok (length, next) ↔
      (raw.getD offset 0).toNat = length ∧ next = offset + 1 := by
  have hend := (isFieldWithinDataRange_iff.mp h).2.1
  rw [lengthExtract, if_pos h]
  simp only [result_bind, result_byteAt, bind_eq_ok, Except.ok.injEq, exists_eq_left']
  rw [if_neg hshort, result_pure, Except.ok.injEq, Prod.mk.injEq, mod_of_le_dataEnd hend,
    eq_comm (a := offset + 1)]

theorem lengthExtract_long {length : Nat} (h : isFieldWithinDataRange cc offset 1 = true)
    (hlong : raw.getD offset 0 = 0xFF) :
    (lengthExtract cc raw offset).result = .ok (length, next) ↔
      offset + 3 ≤ cc.dataEnd ∧ 255 ≤ length ∧ length < 2 ^ 16 ∧
        bytesAt raw (offset + 1) 2 = be16 length ∧ next = offset + 3 := by
  have hstart := (isFieldWithinDataRange_iff.mp h).2.2
  rw [lengthExtract, if_pos h]
  simp only [result_bind, result_byteAt, bind_eq_ok, Except.ok.injEq, exists_eq_left']
  rw [if_pos hlong]
  by_cases hrange : isFieldWithinDataRange cc offset 3 = true
  · have hend := (isFieldWithinDataRange_iff.mp hrange).2.1
    rw [if_pos hrange]
    simp only [result_bind, bind_eq_ok, be16At_eq_ok_iff]
    constructor
    · rintro ⟨value, ⟨hlt, hbytes⟩, hrest⟩
      split_ifs at hrest with hmin
      · cases hrest
      · rw [result_pure, Except.ok.injEq, Prod.mk.injEq, mod_of_le_dataEnd hend] at hrest
        obtain ⟨rfl, rfl⟩ := hrest
        exact ⟨hend, by omega, hlt, hbytes, rfl⟩
    · rintro ⟨-, hmin, hlt, hbytes, rfl⟩
      refine ⟨length, ⟨hlt, hbytes⟩, ?_⟩
      rw [if_neg (by omega), result_pure, mod_of_le_dataEnd hend]
  · rw [if_neg hrange]
    rw [isFieldWithinDataRange_iff] at hrange
    exact iff_of_false (by rintro ⟨⟩) (fun hfits => by omega)

theorem lengthExtract_eq_ok_iff {length : Nat} :
    (lengthExtract cc raw offset).result = .ok (length, next) ↔
      16 ≤ offset ∧ ∃ long, LengthForm long length ∧ offset + lengthWidth long ≤ cc.dataEnd ∧
        bytesAt raw offset (lengthWidth long) = lengthBytes long length ∧
          next = offset + lengthWidth long := by
  by_cases hrange : isFieldWithinDataRange cc offset 1 = true
  swap
  · rw [lengthExtract, if_neg hrange]
    rw [isFieldWithinDataRange_iff] at hrange
    apply iff_of_false (by rintro ⟨⟩)
    rintro ⟨hstart, long, -, hend, -⟩
    unfold lengthWidth at hend
    split_ifs at hend <;> omega
  obtain ⟨-, hend, hstart⟩ := isFieldWithinDataRange_iff.mp hrange
  have hsplit : bytesAt raw offset 3 = 0xFF :: be16 length ↔
      raw.getD offset 0 = 0xFF ∧ bytesAt raw (offset + 1) 2 = be16 length := by
    have h : bytesAt raw offset (1 + 2) = [0xFF] ++ be16 length ↔ _ :=
      bytesAt_eq_append_iff List.length_singleton
    rw [bytesAt_one, List.cons.injEq, and_iff_left rfl] at h
    exact h
  simp only [Bool.exists_bool, LengthForm, lengthWidth, lengthBytes, if_true, if_false,
    Bool.false_eq_true, bytesAt_one, List.cons.injEq, and_true, hsplit]
  by_cases hlong : raw.getD offset 0 = 0xFF
  · rw [lengthExtract_long hrange hlong]
    have hbyte : length < 255 → UInt8.ofNat length ≠ 0xFF := by
      intro hlt heq
      have htoNat := congrArg UInt8.toNat heq
      rw [toNat_ofNat_of_lt (by omega)] at htoNat
      exact absurd htoNat (by change ¬ length = 255; omega)
    rw [hlong]
    constructor
    · exact fun ⟨hfits, hmin, hlt, hbytes, hnext⟩ =>
        ⟨hstart, .inr ⟨⟨hmin, hlt⟩, hfits, ⟨rfl, hbytes⟩, hnext⟩⟩
    · rintro ⟨-, ⟨hlt, -, heq, -⟩ | ⟨⟨hmin, hlt⟩, hfits, ⟨-, hbytes⟩, hnext⟩⟩
      · exact absurd heq.symm (hbyte hlt)
      · exact ⟨hfits, hmin, hlt, hbytes, hnext⟩
  · rw [lengthExtract_short hrange hlong]
    constructor
    · rintro ⟨rfl, hnext⟩
      have hlt := (raw.getD offset 0).toNat_lt
      have hne : (raw.getD offset 0).toNat ≠ 255 := fun heq => hlong (UInt8.toNat.inj heq)
      exact ⟨hstart, .inl ⟨by omega, hend, by rw [UInt8.ofNat_toNat], hnext⟩⟩
    · rintro ⟨-, ⟨hlt, -, heq, hnext⟩ | ⟨-, -, ⟨heq, -⟩, -⟩⟩
      · rw [heq, toNat_ofNat_of_lt (by omega)]
        exact ⟨rfl, hnext⟩
      · exact absurd heq hlong

theorem valuePtrExtract_eq_ok_iff {length : Nat} {value : Option Nat} (h : 0 < length) :
    (valuePtrExtract cc offset length).result = .ok (value, next) ↔
      (16 ≤ offset ∧ offset + length ≤ cc.dataEnd) ∧ value = some offset ∧
        next = offset + length := by
  unfold valuePtrExtract
  rw [if_neg (by omega)]
  split_ifs with hrange
  · have hend := (isFieldWithinDataRange_iff.mp hrange).2
    rw [result_pure, Except.ok.injEq, Prod.mk.injEq, mod_of_le_dataEnd hend.1]
    exact ⟨fun h => ⟨⟨hend.2, hend.1⟩, h.1.symm, h.2.symm⟩, fun h => ⟨h.2.1.symm, h.2.2.symm⟩⟩
  · rw [isFieldWithinDataRange_iff] at hrange
    exact iff_of_false (by rintro ⟨⟩) (fun hfits => by omega)

theorem tlvBlockExtract_progress {block : TlvBlock}
    (h : (tlvBlockExtract cc raw offset).result = .ok (block, next)) :
    offset < cc.dataEnd ∧ (next = 0 ∨ offset < next) := by
  simp only [tlvBlockExtract, result_bind, bind_eq_ok, Prod.exists, typeExtract_eq_ok_iff] at h
  obtain ⟨tag, o, ⟨⟨-, hlt⟩, -, rfl⟩, h⟩ := h
  refine ⟨hlt, ?_⟩
  split_ifs at h with hnull hterm
  · rw [result_pure, Except.ok.injEq, Prod.mk.injEq] at h
    omega
  · rw [result_pure, Except.ok.injEq, Prod.mk.injEq] at h
    omega
  · simp only [result_bind, bind_eq_ok, Prod.exists, lengthExtract_eq_ok_iff] at h
    obtain ⟨length, o, ⟨-, long, -, -, -, rfl⟩, h⟩ := h
    split_ifs at h with hpos
    · simp only [result_bind, bind_eq_ok, Prod.exists, valuePtrExtract_eq_ok_iff hpos, result_pure,
        Except.ok.injEq, Prod.mk.injEq] at h
      obtain ⟨value, o, ⟨-, -, rfl⟩, -, rfl⟩ := h
      omega
    · rw [result_pure, Except.ok.injEq, Prod.mk.injEq] at h
      omega

theorem tlvParse_progress {t2t t2t' : T2t} (h : (tlvParse raw t2t offset).result = .ok (t2t', next)) :
    t2t'.cc = t2t.cc ∧ offset < t2t.cc.dataEnd ∧ (next = 0 ∨ offset < next) := by
  simp only [tlvParse, result_bind, bind_eq_ok, Prod.exists] at h
  obtain ⟨block, o, hextract, h⟩ := h
  have hprogress := tlvBlockExtract_progress hextract
  split_ifs at h with hlen hbare
  · rw [result_pure, Except.ok.injEq, Prod.mk.injEq] at h
    obtain ⟨rfl, rfl⟩ := h
    exact ⟨rfl, hprogress⟩
  · simp only [result_bind, bind_eq_ok, result_pure, Except.ok.injEq, Prod.mk.injEq] at h
    obtain ⟨t, hinsert, rfl, rfl⟩ := h
    unfold tlvBlockInsert at hinsert
    split_ifs at hinsert
    · cases hinsert
    · rw [result_pure, Except.ok.injEq] at hinsert
      subst hinsert
      exact ⟨rfl, hprogress⟩
  · cases h

theorem within_lengthExtract (cc : Cc) (raw : Memory) (offset : Nat) :
    Within cc.dataEnd (lengthExtract cc raw offset) := by
  unfold lengthExtract
  by_cases hshort : isFieldWithinDataRange cc offset 1 = true
  swap
  · rw [if_neg hshort]
    exact Within.fail
  rw [if_pos hshort]
  rw [isFieldWithinDataRange_iff] at hshort
  apply Within.bind
  · exact Within.byteAt (by omega)
  intro first _
  split_ifs with hflag hlong
  · rw [isFieldWithinDataRange_iff] at hlong
    apply Within.bind
    · exact Within.be16At (by omega)
    intro length _
    split_ifs
    · exact Within.fail
    · exact Within.pure
  · exact Within.fail
  · exact Within.pure

theorem within_tlvBlockExtract (cc : Cc) (raw : Memory) (offset : Nat) :
    Within cc.dataEnd (tlvBlockExtract cc raw offset) := by
  apply Within.bind
  · unfold typeExtract
    split_ifs with hrange
    · rw [isFieldWithinDataRange_iff] at hrange
      exact (Within.byteAt (by omega)).bind fun _ _ => Within.pure
    · exact Within.fail
  rintro ⟨tag, o⟩ -
  dsimp only
  split_ifs
  · exact Within.pure
  · exact Within.pure
  apply Within.bind
  · exact within_lengthExtract cc raw o
  rintro ⟨length, o⟩ -
  dsimp only
  split_ifs
  · apply Within.bind
    · unfold valuePtrExtract
      split_ifs
      · exact Within.pure
      · exact Within.pure
      · exact Within.fail
    · exact fun _ _ => Within.pure
  · exact Within.pure

theorem within_tlvParse (raw : Memory) (t2t : T2t) (offset : Nat) :
    Within t2t.cc.dataEnd (tlvParse raw t2t offset) := by
  apply Within.bind
  · exact within_tlvBlockExtract t2t.cc raw offset
  rintro ⟨block, o⟩ -
  dsimp only
  split_ifs
  · exact Within.pure
  · apply Within.bind
    · unfold tlvBlockInsert
      split_ifs
      · exact Within.fail
      · exact Within.pure
    · exact fun _ _ => Within.pure
  · exact Within.fail

end Results

structure ParseOutcome where
  t2t : T2t
  err : Option Errno
  reads : List Nat

def ParseOutcome.after (reads : List Nat) (o : ParseOutcome) : ParseOutcome :=
  { o with reads := reads ++ o.reads }

/-- The loop of `nfc_t2t_parse`. -/
def tlvLoop (raw : Memory) (t2t : T2t) (offset : Nat) : ParseOutcome :=
  if offset = 0 then ⟨t2t, none, []⟩
  else if isEndReached t2t.cc offset then ⟨t2t, none, []⟩
  else
    match _h : (tlvParse raw t2t offset).result with
    | .error e => ⟨t2t, some e, (tlvParse raw t2t offset).reads⟩
    | .ok (t2t', next) => (tlvLoop raw t2t' next).after (tlvParse raw t2t offset).reads
termination_by if offset = 0 then 0 else t2t.cc.dataEnd + 1 - offset
decreasing_by
  obtain ⟨hcc, hlt, hnext⟩ := tlvParse_progress _h
  rw [hcc]
  split_ifs <;> omega

theorem byte_mul_eight_le (b : UInt8) : b.toNat * 8 ≤ 255 * 8 := by
  have := b.toNat_lt
  omega

theorem no_size_le : 0 ≤ 255 * 8 := Nat.zero_le _

def t2tClear (t2t : T2t) : T2t :=
  { t2t with tlvBlocks := [], cc := ⟨0, 0, 0, 0, 0, no_size_le⟩, sn := ⟨0, 0, 0, 0, 0, 0⟩ }

/-- `nfc_t2t_internal_parse`, which reads the first twelve bytes; a wrong check byte gives a warning
only. -/
def internalParse (raw : Memory) (t2t : T2t) : T2t :=
  { t2t with
    sn :=
      { manufacturerId := raw.getD 0 0
        serialNumberPart1 := be16Value (raw.getD 1 0) (raw.getD 2 0)
        checkByte0 := raw.getD 3 0
        serialNumberPart2 :=
          be32Value (raw.getD 4 0) (raw.getD 5 0) (raw.getD 6 0) (raw.getD 7 0)
        checkByte1 := raw.getD 8 0
        internal := raw.getD 9 0 }
    lockBytes := be16Value (raw.getD 10 0) (raw.getD 11 0) }

def ccParse (raw : Memory) (t2t : T2t) : Reading Errno T2t := do
  let magic ← byteAt raw ccBlockOffset
  if magic ≠ nfcForumDefinedData then fail .EINVAL
  else do
    let version ← byteAt raw (ccBlockOffset + 1)
    let size ← byteAt raw (ccBlockOffset + 2)
    let access ← byteAt raw (ccBlockOffset + 3)
    return { t2t with
      cc :=
        { majorVersion := (version >>> 4 &&& 0x0F).toNat
          minorVersion := (version &&& 0x0F).toNat
          dataAreaSize := size.toNat * 8
          readAccess := (access >>> 4 &&& 0x0F).toNat
          writeAccess := (access &&& 0x0F).toNat
          size_le := byte_mul_eight_le size } }

def t2tParse (raw : Memory) (t2t : T2t) : ParseOutcome :=
  let t2t := internalParse raw (t2tClear t2t)
  let reads := List.range 12 ++ (ccParse raw t2t).reads
  match (ccParse raw t2t).result with
  | .error e => ⟨t2t, some e, reads⟩
  | .ok t2t =>
    if t2t.cc.majorVersion = supportedMajorVersion then
      (tlvLoop raw t2t firstDataBlockOffset).after reads
    else ⟨t2t, some .EFAULT, reads⟩

end SdkNrf.Type2Tag
