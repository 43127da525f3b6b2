import SdkNrf.Framework.Reading
import SdkNrf.Type4Tag.Apdu

/-!
# The capability container of the Type 4 Tag

The parser of `cc_file.c` and of the TLV blocks in `tlv_block.c`: a header of seven bytes, and file
control blocks up to the end of the file.
-/

namespace SdkNrf.Type4Tag.CapabilityContainer

open Reading

/-- `struct nfc_t4t_tlv_block_file_control_val`; `file` is `none` until content is bound to it. -/
structure FileControlVal where
  file : Option Memory
  maxFileSize : Nat
  fileId : Nat
  readAccess : UInt8
  writeAccess : UInt8
  deriving DecidableEq, Repr

/-- `struct nfc_t4t_tlv_block`. -/
structure TlvBlock where
  value : FileControlVal
  length : Nat
  type : UInt8
  deriving DecidableEq, Repr

/-- `struct nfc_t4t_cc_file`; `tlvBlocks` holds the first `tlv_count` entries of the array. -/
structure CcFile where
  tlvBlocks : List TlvBlock
  maxTlvBlocks : Nat
  len : Nat
  maxRapduSize : Nat
  maxCapduSize : Nat
  majorVersion : Nat
  minorVersion : Nat
  deriving DecidableEq, Repr

def ndefFileControlTlv : UInt8 := 0x04

def proprietaryFileControlTlv : UInt8 := 0x05

def extendedNdefFileControlTlv : UInt8 := 0x06

def tlvLenLongFormatToken : UInt8 := 0xFF

def tlvLenLongFormatMinValue : Nat := 0xFF

/-- The `FILE_ID_INVALID_VALUE` constants. -/
def invalidFileIds : List Nat := [0x0000, 0xE102, 0xE103, 0x3F00, 0x3FFF, 0xFFFF]

def fileControlTlValidate (type : UInt8) (length : Nat) : Reading Errno Unit :=
  if type = ndefFileControlTlv then if length = 6 then pure () else fail .EINVAL
  else if type = proprietaryFileControlTlv then if length = 6 then pure () else fail .EINVAL
  else if type = extendedNdefFileControlTlv then if length = 8 then pure () else fail .EINVAL
  else fail .EINVAL

/-- A size of `width` bytes that `max_field_range_verify` accepts, and the offset behind it. -/
def sizeField (read : Reading Errno Nat) (min max behind : Nat) : Reading Errno (Nat × Nat) := do
  let value ← read
  if min ≤ value ∧ value ≤ max then pure (value, behind) else fail .EINVAL

section Parser

variable (raw : Memory)

/-- The maximum file size at `offset`, and the offset behind it. -/
def maxFileSizeParse (type : UInt8) (offset : Nat) : Reading Errno (Nat × Nat) :=
  if type = ndefFileControlTlv then sizeField (be16At raw offset) 0x0005 0xFFFE (offset + 2)
  else if type = proprietaryFileControlTlv then
    sizeField (be16At raw offset) 0x0003 0xFFFE (offset + 2)
  else if type = extendedNdefFileControlTlv then
    sizeField (be32At raw offset) 0x0000FFFF 0xFFFFFFFE (offset + 4)
  else pure (0, offset)

def fileControlValueParse (type : UInt8) (offset : Nat) : Reading Errno FileControlVal := do
  let fileId ← be16At raw offset
  if fileId ∈ invalidFileIds then fail .EINVAL
  else do
    let (maxFileSize, offset) ← maxFileSizeParse raw type (offset + 2)
    let readAccess ← byteAt raw offset
    let writeAccess ← byteAt raw (offset + 1)
    return ⟨none, maxFileSize, fileId, readAccess, writeAccess⟩

/-- The length field at `offset`, with `len` bytes from the type on, and the size of the type and
the length field. -/
def lengthParse (offset len : Nat) : Reading Errno (Nat × Nat) := do
  let first ← byteAt raw offset
  if first = tlvLenLongFormatToken then
    if len < 4 then fail .ENOMEM
    else do
      let length ← be16At raw (offset + 1)
      if length < tlvLenLongFormatMinValue then fail .EINVAL else return (length, 4)
  else return (first.toNat, 2)

/-- `nfc_t4t_tlv_block_parse` at `offset`, with the length of the block that it reports. -/
def tlvBlockParse (offset len : Nat) : Reading Errno (TlvBlock × Nat) := do
  if len < 2 then fail .ENOMEM
  else do
    let type ← byteAt raw offset
    let (length, tlLen) ← lengthParse raw (offset + 1) len
    let tlvBlockLen := (tlLen + length) % 2 ^ 16
    if len < tlvBlockLen then fail .ENOMEM
    else do
      fileControlTlValidate type length
      let value ← fileControlValueParse raw type (offset + tlLen)
      return (⟨value, length, type⟩, tlvBlockLen)

end Parser

def KnownKind (type : UInt8) (length : Nat) : Prop :=
  (type = ndefFileControlTlv ∨ type = proprietaryFileControlTlv) ∧ length = 6 ∨
    type = extendedNdefFileControlTlv ∧ length = 8

def sizeMin (type : UInt8) : Nat :=
  if type = ndefFileControlTlv then 0x0005
  else if type = proprietaryFileControlTlv then 0x0003
  else 0x0000FFFF

def sizeMax (type : UInt8) : Nat :=
  if type = extendedNdefFileControlTlv then 0xFFFFFFFE else 0xFFFE

/-- A file control block that the specification allows. -/
structure TlvBlock.WellFormed (b : TlvBlock) : Prop where
  kind : KnownKind b.type b.length
  fileId_lt : b.value.fileId < 2 ^ 16
  fileId : b.value.fileId ∉ invalidFileIds
  size_ge : sizeMin b.type ≤ b.value.maxFileSize
  size_le : b.value.maxFileSize ≤ sizeMax b.type
  file : b.value.file = none

def sizeBytes (type : UInt8) (size : Nat) : List UInt8 :=
  if type = extendedNdefFileControlTlv then be32 size else be16 size

def valueBytes (type : UInt8) (v : FileControlVal) : List UInt8 :=
  be16 v.fileId ++ (sizeBytes type v.maxFileSize ++ [v.readAccess, v.writeAccess])

def TlvBlock.bytes (b : TlvBlock) : List UInt8 :=
  b.type :: UInt8.ofNat b.length :: valueBytes b.type b.value

section Results

variable {raw : Memory} {type : UInt8} {offset len length : Nat}

theorem fileControlTlValidate_eq_ok_iff {u : Unit} :
    (fileControlTlValidate type length).result = .ok u ↔ KnownKind type length := by
  unfold fileControlTlValidate KnownKind
  split_ifs with hndef hlen hprop hlen hext hlen <;>
    simp_all [ndefFileControlTlv, proprietaryFileControlTlv, extendedNdefFileControlTlv]

theorem sizeField_eq_ok_iff {read : Reading Errno Nat} {min max behind value next : Nat} :
    (sizeField read min max behind).result = .ok (value, next) ↔
      read.result = .ok value ∧ (min ≤ value ∧ value ≤ max) ∧ next = behind := by
  simp only [sizeField, result_bind, bind_eq_ok]
  constructor
  · rintro ⟨v, hread, hrange⟩
    split_ifs at hrange with h
    · simp only [result_pure, Except.ok.injEq, Prod.mk.injEq] at hrange
      obtain ⟨rfl, rfl⟩ := hrange
      exact ⟨hread, h, rfl⟩
    · cases hrange
  · rintro ⟨hread, hrange, rfl⟩
    refine ⟨value, hread, ?_⟩
    rw [if_pos hrange]
    rfl

theorem maxFileSizeParse_eq_ok_iff {size next : Nat} (hkind : KnownKind type length) :
    (maxFileSizeParse raw type offset).result = .ok (size, next) ↔
      (sizeMin type ≤ size ∧ size ≤ sizeMax type) ∧ next = offset + (length - 4) ∧
        bytesAt raw offset (length - 4) = sizeBytes type size := by
  rcases hkind with ⟨rfl | rfl, rfl⟩ | ⟨rfl, rfl⟩
  case inl.inl =>
    have hbytes : sizeBytes ndefFileControlTlv size = be16 size := rfl
    have hrange : sizeMin ndefFileControlTlv = 0x0005 ∧ sizeMax ndefFileControlTlv = 0xFFFE :=
      ⟨rfl, rfl⟩
    rw [maxFileSizeParse, if_pos rfl, sizeField_eq_ok_iff, be16At_eq_ok_iff, hbytes, hrange.1,
      hrange.2]
    constructor
    · exact fun h => ⟨h.2.1, h.2.2, h.1.2⟩
    · exact fun h => ⟨⟨by omega, h.2.2⟩, h.1, h.2.1⟩
  case inl.inr =>
    have hbytes : sizeBytes proprietaryFileControlTlv size = be16 size := rfl
    have hrange : sizeMin proprietaryFileControlTlv = 0x0003 ∧
        sizeMax proprietaryFileControlTlv = 0xFFFE := ⟨rfl, rfl⟩
    rw [maxFileSizeParse, if_neg (by decide), if_pos rfl, sizeField_eq_ok_iff, be16At_eq_ok_iff,
      hbytes, hrange.1, hrange.2]
    constructor
    · exact fun h => ⟨h.2.1, h.2.2, h.1.2⟩
    · exact fun h => ⟨⟨by omega, h.2.2⟩, h.1, h.2.1⟩
  case inr =>
    have hbytes : sizeBytes extendedNdefFileControlTlv size = be32 size := rfl
    have hrange : sizeMin extendedNdefFileControlTlv = 0x0000FFFF ∧
        sizeMax extendedNdefFileControlTlv = 0xFFFFFFFE := ⟨rfl, rfl⟩
    rw [maxFileSizeParse, if_neg (by decide), if_neg (by decide), if_pos rfl, sizeField_eq_ok_iff,
      be32At_eq_ok_iff, hbytes, hrange.1, hrange.2]
    constructor
    · exact fun h => ⟨h.2.1, h.2.2, h.1.2⟩
    · exact fun h => ⟨⟨by omega, h.2.2⟩, h.1, h.2.1⟩

theorem KnownKind.length_eq (h : KnownKind type length) : length = 6 ∨ length = 8 := by
  rcases h with ⟨-, rfl⟩ | ⟨-, rfl⟩ <;> decide

theorem KnownKind.length_sizeBytes (h : KnownKind type length) (size : Nat) :
    (sizeBytes type size).length = length - 4 := by
  rcases h with ⟨rfl | rfl, rfl⟩ | ⟨rfl, rfl⟩ <;> rfl

theorem fileControlValueParse_eq_ok_iff {v : FileControlVal} (hkind : KnownKind type length) :
    (fileControlValueParse raw type offset).result = .ok v ↔
      (v.fileId < 2 ^ 16 ∧ v.fileId ∉ invalidFileIds ∧
        (sizeMin type ≤ v.maxFileSize ∧ v.maxFileSize ≤ sizeMax type) ∧ v.file = none) ∧
      bytesAt raw offset length = valueBytes type v := by
  have hlen : length = 2 + ((length - 4) + 2) := by
    rcases hkind.length_eq with rfl | rfl <;> rfl
  have hsplit : bytesAt raw offset length = valueBytes type v ↔
      bytesAt raw offset 2 = be16 v.fileId ∧
        bytesAt raw (offset + 2) (length - 4) = sizeBytes type v.maxFileSize ∧
          bytesAt raw (offset + 2 + (length - 4)) 2 = [v.readAccess, v.writeAccess] := by
    rw [valueBytes, ← bytesAt_eq_append_iff (hkind.length_sizeBytes _),
      ← bytesAt_eq_append_iff (show (be16 v.fileId).length = 2 from rfl), ← hlen]
  rw [hsplit]
  simp only [fileControlValueParse, result_bind, bind_eq_ok, be16At_eq_ok_iff]
  constructor
  · rintro ⟨fileId, ⟨hlt, hid⟩, hrest⟩
    have hvalid : fileId ∉ invalidFileIds := by
      intro hinvalid
      rw [if_pos hinvalid] at hrest
      cases hrest
    rw [if_neg hvalid] at hrest
    simp only [result_bind, bind_eq_ok, Prod.exists] at hrest
    obtain ⟨size, next, hsize, hrest⟩ := hrest
    obtain ⟨hrange, rfl, hsizeBytes⟩ := (maxFileSizeParse_eq_ok_iff hkind).mp hsize
    simp only [result_byteAt, Except.ok.injEq, result_pure] at hrest
    obtain ⟨readAccess, hread, writeAccess, hwrite, rfl⟩ := hrest
    refine ⟨⟨hlt, hvalid, hrange, rfl⟩, hid, hsizeBytes, ?_⟩
    rw [← hread, ← hwrite]
    rfl
  · rintro ⟨⟨hlt, hvalid, hrange, hfile⟩, hid, hsizeBytes, haccess⟩
    refine ⟨v.fileId, ⟨hlt, hid⟩, ?_⟩
    rw [if_neg hvalid]
    simp only [result_bind, bind_eq_ok, Prod.exists]
    refine ⟨_, _, (maxFileSizeParse_eq_ok_iff hkind).mpr ⟨hrange, rfl, hsizeBytes⟩, ?_⟩
    have haccess' : raw.getD (offset + 2 + (length - 4)) 0 = v.readAccess ∧
        raw.getD (offset + 2 + (length - 4) + 1) 0 = v.writeAccess := by
      simpa [bytesAt, List.range_succ, -List.getD_eq_getElem?_getD] using haccess
    simp only [result_byteAt, haccess'.1, haccess'.2, result_pure, ← hfile]
    exact ⟨_, rfl, _, rfl, rfl⟩

theorem lengthParse_eq_ok_iff (hlt : length < 255) {tlLen : Nat} :
    (lengthParse raw offset len).result = .ok (length, tlLen) ↔
      tlLen = 2 ∧ bytesAt raw offset 1 = [UInt8.ofNat length] := by
  have htoNat : (UInt8.ofNat length).toNat = length := by
    rw [UInt8.toNat_ofNat']
    omega
  have hbyte : bytesAt raw offset 1 = [UInt8.ofNat length] ↔ (raw.getD offset 0).toNat = length := by
    rw [bytesAt_one, List.cons.injEq, and_iff_left rfl, ← UInt8.toNat_inj, htoNat]
  rw [hbyte]
  simp only [lengthParse, result_bind, result_byteAt, bind_eq_ok, Except.ok.injEq, exists_eq_left']
  by_cases hlong : raw.getD offset 0 = tlvLenLongFormatToken
  · apply iff_of_false
    · rw [if_pos hlong]
      split_ifs with hshort
      · rintro ⟨⟩
      · simp only [result_bind, bind_eq_ok]
        rintro ⟨value, -, h⟩
        unfold tlvLenLongFormatMinValue at h
        split_ifs at h with hmin
        · cases h
        · simp only [result_pure, Except.ok.injEq, Prod.mk.injEq] at h
          omega
    · rintro ⟨-, hvalue⟩
      rw [hlong] at hvalue
      exact absurd hvalue (by change ¬ 255 = length; omega)
  · rw [if_neg hlong, result_pure, Except.ok.injEq, Prod.mk.injEq]
    exact ⟨fun h => ⟨h.2.symm, h.1⟩, fun h => ⟨h.2, h.1.symm⟩⟩

theorem TlvBlock.length_bytes {b : TlvBlock} (h : KnownKind b.type b.length) :
    b.bytes.length = b.length + 2 := by
  have hlen := h.length_eq
  rw [TlvBlock.bytes, List.length_cons, List.length_cons, valueBytes, List.length_append,
    List.length_append, h.length_sizeBytes]
  simp [be16]
  omega

theorem bytesAt_eq_bytes_iff {b : TlvBlock} :
    bytesAt raw offset (b.length + 2) = b.bytes ↔
      raw.getD offset 0 = b.type ∧ bytesAt raw (offset + 1) 1 = [UInt8.ofNat b.length] ∧
        bytesAt raw (offset + 2) b.length = valueBytes b.type b.value := by
  have hsplit : b.length + 2 = 1 + (1 + b.length) := by omega
  have hbytes : b.bytes = [b.type] ++ ([UInt8.ofNat b.length] ++ valueBytes b.type b.value) := rfl
  rw [hsplit, hbytes, bytesAt_eq_append_iff List.length_singleton,
    bytesAt_eq_append_iff List.length_singleton, bytesAt_one,
    List.cons.injEq, and_iff_left rfl]

theorem tlvBlockParse_eq_ok_iff {b : TlvBlock} {n : Nat} :
    (tlvBlockParse raw offset len).result = .ok (b, n) ↔
      b.WellFormed ∧ n = b.length + 2 ∧ n ≤ len ∧ bytesAt raw offset n = b.bytes := by
  have hwraps {l : Nat} (hl : l = 6 ∨ l = 8) : (2 + l) % 2 ^ 16 = l + 2 := by omega
  unfold tlvBlockParse
  constructor
  · intro h
    split_ifs at h with hshort
    · cases h
    simp only [result_bind, bind_eq_ok, result_byteAt, Except.ok.injEq, exists_eq_left',
      Prod.exists] at h
    obtain ⟨length, tlLen, hlength, h⟩ := h
    split_ifs at h with hfits
    · cases h
    simp only [result_bind, bind_eq_ok, result_pure, Except.ok.injEq, Prod.mk.injEq] at h
    obtain ⟨u, hvalidate, value, hvalue, rfl, rfl⟩ := h
    have hkind := fileControlTlValidate_eq_ok_iff.mp hvalidate
    have hsix := hkind.length_eq
    obtain ⟨rfl, hbyte⟩ := (lengthParse_eq_ok_iff (by omega)).mp hlength
    obtain ⟨⟨hlt, hid, hrange, hfile⟩, hbytes⟩ := (fileControlValueParse_eq_ok_iff hkind).mp hvalue
    rw [hwraps hsix] at hfits ⊢
    refine ⟨⟨hkind, hlt, hid, hrange.1, hrange.2, hfile⟩, rfl, not_lt.mp hfits, ?_⟩
    exact (bytesAt_eq_bytes_iff (b := ⟨value, length, raw.getD offset 0⟩)).mpr
      ⟨rfl, hbyte, hbytes⟩
  · rintro ⟨hwell, rfl, hfits, hbytes⟩
    have hsix := hwell.kind.length_eq
    obtain ⟨htype, hbyte, hvalue⟩ := bytesAt_eq_bytes_iff.mp hbytes
    rw [if_neg (by omega)]
    simp only [result_bind, bind_eq_ok, result_byteAt, Except.ok.injEq, exists_eq_left',
      Prod.exists]
    refine ⟨b.length, 2, (lengthParse_eq_ok_iff (by omega)).mpr ⟨rfl, hbyte⟩, ?_⟩
    rw [hwraps hsix, if_neg (by omega), htype]
    simp only [result_bind, bind_eq_ok, result_pure, Except.ok.injEq]
    exact ⟨(), fileControlTlValidate_eq_ok_iff.mpr hwell.kind, b.value,
      (fileControlValueParse_eq_ok_iff hwell.kind).mpr
        ⟨⟨hwell.fileId_lt, hwell.fileId, ⟨hwell.size_ge, hwell.size_le⟩, hwell.file⟩, hvalue⟩, rfl⟩

theorem within_fileControlTlValidate (n : Nat) (type : UInt8) (length : Nat) :
    Within n (fileControlTlValidate type length) := by
  unfold fileControlTlValidate
  split_ifs <;> first | exact Within.pure | exact Within.fail

theorem within_sizeField {n : Nat} {read : Reading Errno Nat} (h : Within n read)
    (min max behind : Nat) : Within n (sizeField read min max behind) := by
  apply h.bind
  intro value _
  split_ifs
  · exact Within.pure
  · exact Within.fail

theorem within_fileControlValueParse {n : Nat} (hkind : KnownKind type length)
    (h : offset + length ≤ n) : Within n (fileControlValueParse raw type offset) := by
  have hsix := hkind.length_eq
  apply Within.bind
  · exact Within.be16At (by omega)
  intro fileId _
  split_ifs
  · exact Within.fail
  apply Within.bind
  · unfold maxFileSizeParse
    rcases hkind with ⟨rfl | rfl, rfl⟩ | ⟨rfl, rfl⟩
    · exact within_sizeField (Within.be16At (by omega)) _ _ _
    · exact within_sizeField (Within.be16At (by omega)) _ _ _
    · exact within_sizeField (Within.be32At (by omega)) _ _ _
  rintro ⟨size, next⟩ hsize
  obtain ⟨-, rfl, -⟩ := (maxFileSizeParse_eq_ok_iff hkind).mp hsize
  apply Within.bind
  · exact Within.byteAt (by omega)
  intro readAccess _
  apply Within.bind
  · exact Within.byteAt (by omega)
  intro writeAccess _
  exact Within.pure

theorem within_lengthParse (hlen : 2 ≤ len) :
    Within (offset + len) (lengthParse raw (offset + 1) len) := by
  apply Within.bind
  · exact Within.byteAt (by omega)
  intro first _
  split_ifs with hlong hshort
  · exact Within.fail
  · apply Within.bind
    · exact Within.be16At (by omega)
    intro value _
    split_ifs
    · exact Within.fail
    · exact Within.pure
  · exact Within.pure

theorem within_tlvBlockParse : Within (offset + len) (tlvBlockParse raw offset len) := by
  unfold tlvBlockParse
  split_ifs with hshort
  · exact Within.fail
  apply Within.bind
  · exact Within.byteAt (by omega)
  intro type _
  apply Within.bind
  · exact within_lengthParse (by omega)
  rintro ⟨length, tlLen⟩ hlength
  dsimp only
  split_ifs with hfits
  · exact Within.fail
  apply Within.bind
  · exact within_fileControlTlValidate _ _ _
  intro u hvalidate
  -- Only the lengths 6 and 8 come so far, and they do not wrap.
  have hkind := fileControlTlValidate_eq_ok_iff.mp hvalidate
  have hsix := hkind.length_eq
  obtain ⟨rfl, -⟩ := (lengthParse_eq_ok_iff (by omega)).mp hlength
  apply Within.bind
  · exact within_fileControlValueParse hkind (by omega)
  intro value _
  exact Within.pure

end Results

def tlvBlockInsert (file : CcFile) (block : TlvBlock) : Except Errno CcFile :=
  if file.tlvBlocks.length = file.maxTlvBlocks then .error .ENOMEM
  else .ok { file with tlvBlocks := file.tlvBlocks ++ [block] }

structure ParseOutcome where
  file : CcFile
  err : Option Errno
  reads : List Nat

def ParseOutcome.after (reads : List Nat) (o : ParseOutcome) : ParseOutcome :=
  { o with reads := reads ++ o.reads }

/-- The loop of `nfc_t4t_cc_file_parse`, with `len` bytes left at `offset`. -/
def tlvBlocksParse (raw : Memory) (offset len : Nat) (file : CcFile) : ParseOutcome :=
  if len = 0 then ⟨file, none, []⟩
  else
    match _h : (tlvBlockParse raw offset len).result with
    | .error e => ⟨file, some e, (tlvBlockParse raw offset len).reads⟩
    | .ok (newBlock, tlvLen) =>
      match tlvBlockInsert file newBlock with
      | .error e => ⟨file, some e, (tlvBlockParse raw offset len).reads⟩
      | .ok file =>
        (tlvBlocksParse raw (offset + tlvLen) (len - tlvLen) file).after
          (tlvBlockParse raw offset len).reads
termination_by len
decreasing_by
  obtain ⟨-, hn, hle, -⟩ := tlvBlockParse_eq_ok_iff.mp _h
  omega

/-- `nfc_t4t_cc_args_validate`, for pointers that are not `NULL`. -/
def ccArgsValidate (file : CcFile) (len : Nat) : Option Errno :=
  if len < 0x000F ∨ 0xFFFE < len then some .EINVAL
  else if file.maxTlvBlocks = 0 then some .ENOMEM
  else none

def ccFileValidate (file : CcFile) : Option Errno :=
  match file.tlvBlocks.head? with
  | none => some .EINVAL
  | some first =>
    if (file.majorVersion = 0x03 ∧ first.type = extendedNdefFileControlTlv) ∨
        (file.majorVersion = 0x02 ∧ first.type = ndefFileControlTlv) then none
    else some .EINVAL

def headerParse (file : CcFile) (raw : Memory) : CcFile :=
  { file with
    tlvBlocks := []
    len := be16Value (raw.getD 0 0) (raw.getD 1 0)
    majorVersion := (raw.getD 2 0 >>> 4 &&& 0x0F).toNat
    minorVersion := (raw.getD 2 0 &&& 0x0F).toNat
    maxRapduSize := be16Value (raw.getD 3 0) (raw.getD 4 0)
    maxCapduSize := be16Value (raw.getD 5 0) (raw.getD 6 0) }

def ccFileParse (file : CcFile) (raw : Memory) (len : Nat) : ParseOutcome :=
  match ccArgsValidate file len with
  | some e => ⟨file, some e, []⟩
  | none =>
    let o := (tlvBlocksParse raw 7 (len - 7) (headerParse file raw)).after (List.range 7)
    match o.err with
    | some _ => o
    | none => { o with err := ccFileValidate o.file }

end SdkNrf.Type4Tag.CapabilityContainer
