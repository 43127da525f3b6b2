import SdkNrf.Type2Tag.Parser

/-!
# The data area of the Type 2 Tag

The parser takes a data area exactly when it is a sequence of TLV blocks that ends with the area or with a
terminator, and it stores the blocks other than `NULL`.
-/

namespace SdkNrf.Type2Tag

open Reading

/-- A block as it stands on the tag; `long` is the form of its length field. -/
inductive Tlv
  | null
  | block (tag : UInt8) (long : Bool) (value : List UInt8)

namespace Tlv

def bytes : Tlv → List UInt8
  | null => [tlvNull]
  | block tag long value => tag :: (lengthBytes long value.length ++ value)

/-- The form belongs to the length, and lock and memory control blocks have three bytes. -/
def WellFormed : Tlv → Prop
  | null => True
  | block tag long value => tag ≠ tlvNull ∧ tag ≠ tlvTerminator ∧ LengthForm long value.length ∧
      (tag = tlvLockControl ∨ tag = tlvMemoryControl → value.length = 3)

/-- What the parser stores for a block at `offset`. -/
def stored (offset : Nat) : Tlv → List TlvBlock
  | null => []
  | block tag long value => [⟨tag, value.length,
      if value.length = 0 then none else some (offset + 1 + lengthWidth long)⟩]

end Tlv

/-- The blocks that are stored for a sequence from `offset` on. -/
def storedFrom (offset : Nat) : List Tlv → List TlvBlock
  | [] => []
  | tlv :: tlvs => tlv.stored offset ++ storedFrom (offset + tlv.bytes.length) tlvs

/-- The descriptor with `blocks` behind those that it has. -/
def T2t.append (t2t : T2t) (blocks : List TlvBlock) : T2t :=
  { t2t with tlvBlocks := t2t.tlvBlocks ++ blocks }

/-- The block stands at `offset` and ends inside the data area. -/
structure StandsAt (cc : Cc) (raw : Memory) (offset : Nat) (tlv : Tlv) : Prop where
  wellFormed : tlv.WellFormed
  start : 16 ≤ offset
  fits : offset + tlv.bytes.length ≤ cc.dataEnd
  bytes : bytesAt raw offset tlv.bytes.length = tlv.bytes

/-- A terminator stands at `offset`. -/
structure EndsAt (cc : Cc) (raw : Memory) (offset : Nat) : Prop where
  start : 16 ≤ offset
  fits : offset < cc.dataEnd
  byte : raw.getD offset 0 = tlvTerminator

section Block

variable {cc : Cc} {raw : Memory} {offset next : Nat} {t2t t2t' : T2t}

theorem length_bytes_block (tag : UInt8) (long : Bool) (value : List UInt8) :
    (Tlv.block tag long value).bytes.length = 1 + (lengthWidth long + value.length) := by
  rw [Tlv.bytes, List.length_cons, List.length_append, length_lengthBytes]
  omega

theorem bytesAt_block_iff {tag : UInt8} {long : Bool} {value : List UInt8} :
    bytesAt raw offset (Tlv.block tag long value).bytes.length = (Tlv.block tag long value).bytes ↔
      raw.getD offset 0 = tag ∧
        bytesAt raw (offset + 1) (lengthWidth long) = lengthBytes long value.length ∧
          bytesAt raw (offset + 1 + lengthWidth long) value.length = value := by
  have hbytes : (Tlv.block tag long value).bytes =
      [tag] ++ (lengthBytes long value.length ++ value) := rfl
  rw [length_bytes_block, hbytes, bytesAt_eq_append_iff List.length_singleton,
    bytesAt_eq_append_iff (length_lengthBytes _ _), bytesAt_one, List.cons.injEq,
    and_iff_left rfl]

theorem standsAt_null_iff :
    StandsAt cc raw offset .null ↔
      (16 ≤ offset ∧ offset < cc.dataEnd) ∧ raw.getD offset 0 = tlvNull := by
  have hbytes : bytesAt raw offset 1 = [tlvNull] ↔ raw.getD offset 0 = tlvNull := by
    rw [bytesAt_one, List.cons.injEq, and_iff_left rfl]
  constructor
  · exact fun h => ⟨⟨h.start, h.fits⟩, hbytes.mp h.bytes⟩
  · exact fun h => ⟨trivial, h.1.1, h.1.2, hbytes.mpr h.2⟩

/-- The block that is extracted where the tag is neither `NULL` nor the terminator. -/
theorem tlvBlockExtract_block_iff {block : TlvBlock} (hnull : raw.getD offset 0 ≠ tlvNull)
    (hterm : raw.getD offset 0 ≠ tlvTerminator) :
    (tlvBlockExtract cc raw offset).result = .ok (block, next) ↔
      16 ≤ offset ∧ ∃ long length, LengthForm long length ∧
        offset + 1 + lengthWidth long + length ≤ cc.dataEnd ∧
        bytesAt raw (offset + 1) (lengthWidth long) = lengthBytes long length ∧
        block = ⟨raw.getD offset 0, length,
          if length = 0 then none else some (offset + 1 + lengthWidth long)⟩ ∧
        next = offset + 1 + lengthWidth long + length := by
  simp only [tlvBlockExtract, result_bind, bind_eq_ok, Prod.exists, typeExtract_eq_ok_iff]
  constructor
  · rintro ⟨tag, o, ⟨⟨hstart, -⟩, rfl, rfl⟩, h⟩
    rw [if_neg hnull, if_neg hterm] at h
    simp only [result_bind, bind_eq_ok, Prod.exists, lengthExtract_eq_ok_iff] at h
    obtain ⟨length, o, ⟨-, long, hform, hfits, hbytes, rfl⟩, h⟩ := h
    refine ⟨hstart, long, length, hform, ?_⟩
    split_ifs at h with hpos
    · simp only [result_bind, bind_eq_ok, Prod.exists, valuePtrExtract_eq_ok_iff hpos, result_pure,
        Except.ok.injEq, Prod.mk.injEq] at h
      obtain ⟨value, o, ⟨⟨-, hend⟩, rfl, rfl⟩, rfl, rfl⟩ := h
      rw [if_neg (by omega)]
      exact ⟨hend, hbytes, rfl, rfl⟩
    · rw [result_pure, Except.ok.injEq, Prod.mk.injEq] at h
      obtain ⟨rfl, rfl⟩ := h
      have hzero : length = 0 := by omega
      rw [if_pos hzero, hzero]
      exact ⟨hfits, hzero ▸ hbytes, rfl, rfl⟩
  · rintro ⟨hstart, long, length, hform, hend, hbytes, rfl, rfl⟩
    refine ⟨_, _, ⟨⟨hstart, by omega⟩, rfl, rfl⟩, ?_⟩
    rw [if_neg hnull, if_neg hterm]
    simp only [result_bind, bind_eq_ok, Prod.exists, lengthExtract_eq_ok_iff]
    refine ⟨length, _, ⟨by omega, long, hform, by omega, hbytes, rfl⟩, ?_⟩
    rcases Nat.eq_zero_or_pos length with rfl | hpos
    · rw [if_neg (Nat.lt_irrefl 0), if_pos rfl, result_pure]
      rfl
    · rw [if_pos hpos, if_neg hpos.ne']
      simp only [result_bind, bind_eq_ok, Prod.exists, valuePtrExtract_eq_ok_iff hpos]
      exact ⟨_, _, ⟨⟨by omega, hend⟩, rfl, rfl⟩, rfl⟩

theorem tlvBlockExtract_bare_iff {block : TlvBlock}
    (h : raw.getD offset 0 = tlvNull ∨ raw.getD offset 0 = tlvTerminator) :
    (tlvBlockExtract cc raw offset).result = .ok (block, next) ↔
      (16 ≤ offset ∧ offset < cc.dataEnd) ∧ block = ⟨raw.getD offset 0, 0, none⟩ ∧
        next = if raw.getD offset 0 = tlvNull then offset + 1 else 0 := by
  simp only [tlvBlockExtract, result_bind, bind_eq_ok, Prod.exists, typeExtract_eq_ok_iff]
  constructor
  · rintro ⟨tag, o, ⟨hrange, rfl, rfl⟩, hrest⟩
    refine ⟨hrange, ?_⟩
    split_ifs at hrest ⊢ with hnull hterm
    · rw [result_pure, Except.ok.injEq, Prod.mk.injEq] at hrest
      exact ⟨hrest.1.symm, hrest.2.symm⟩
    · rw [result_pure, Except.ok.injEq, Prod.mk.injEq] at hrest
      exact ⟨hrest.1.symm, hrest.2.symm⟩
    · exact absurd h (not_or.mpr ⟨hnull, hterm⟩)
  · rintro ⟨hrange, rfl, rfl⟩
    refine ⟨_, _, ⟨hrange, rfl, rfl⟩, ?_⟩
    split_ifs with hnull hterm
    · rfl
    · rfl
    · exact absurd h (not_or.mpr ⟨hnull, hterm⟩)

theorem tlvParse_bare_iff (h : raw.getD offset 0 = tlvNull ∨ raw.getD offset 0 = tlvTerminator) :
    (tlvParse raw t2t offset).result = .ok (t2t', next) ↔
      (16 ≤ offset ∧ offset < t2t.cc.dataEnd) ∧ t2t' = t2t ∧
        next = if raw.getD offset 0 = tlvNull then offset + 1 else 0 := by
  have hlen : isDataLengthCorrect ⟨raw.getD offset 0, 0, none⟩ = true := by
    rw [isDataLengthCorrect, if_pos h]
    rfl
  simp only [tlvParse, result_bind, bind_eq_ok, Prod.exists, tlvBlockExtract_bare_iff h]
  constructor
  · rintro ⟨block, o, ⟨hrange, rfl, rfl⟩, hrest⟩
    rw [if_pos hlen, if_pos h, result_pure, Except.ok.injEq, Prod.mk.injEq] at hrest
    exact ⟨hrange, hrest.1.symm, hrest.2.symm⟩
  · rintro ⟨hrange, rfl, rfl⟩
    refine ⟨_, _, ⟨hrange, rfl, rfl⟩, ?_⟩
    rw [if_pos hlen, if_pos h]
    rfl

theorem tlvBlockInsert_eq_ok_iff {block : TlvBlock}
    (hroom : t2t.tlvBlocks.length ≤ t2t.maxTlvBlocks) :
    (tlvBlockInsert t2t block).result = .ok t2t' ↔
      t2t.tlvBlocks.length + 1 ≤ t2t.maxTlvBlocks ∧ t2t' = t2t.append [block] := by
  unfold tlvBlockInsert T2t.append
  split_ifs with hfull
  · exact iff_of_false (by rintro ⟨⟩) (fun h => by omega)
  · rw [result_pure, Except.ok.injEq, eq_comm]
    exact ⟨fun h => ⟨by omega, h⟩, fun h => h.2⟩

theorem isDataLengthCorrect_block_iff {tag : UInt8} {length : Nat} {value : Option Nat}
    (hnull : tag ≠ tlvNull) (hterm : tag ≠ tlvTerminator) :
    isDataLengthCorrect ⟨tag, length, value⟩ = true ↔
      (tag = tlvLockControl ∨ tag = tlvMemoryControl → length = 3) := by
  unfold isDataLengthCorrect
  dsimp only
  rw [if_neg (not_or.mpr ⟨hnull, hterm⟩)]
  split_ifs with hctrl
  · rw [decide_eq_true_eq]
    exact ⟨fun h _ => h, fun h => h hctrl⟩
  · exact iff_of_true rfl (fun h => absurd h hctrl)

theorem tlvParse_block_iff (hroom : t2t.tlvBlocks.length ≤ t2t.maxTlvBlocks)
    (hnull : raw.getD offset 0 ≠ tlvNull) (hterm : raw.getD offset 0 ≠ tlvTerminator) :
    (tlvParse raw t2t offset).result = .ok (t2t', next) ↔
      ∃ long value, StandsAt t2t.cc raw offset (.block (raw.getD offset 0) long value) ∧
        t2t.tlvBlocks.length + 1 ≤ t2t.maxTlvBlocks ∧
          t2t' = t2t.append ((Tlv.block (raw.getD offset 0) long value).stored offset) ∧
            next = offset + (Tlv.block (raw.getD offset 0) long value).bytes.length := by
  have hbare := not_or.mpr ⟨hnull, hterm⟩
  simp only [tlvParse, result_bind, bind_eq_ok, Prod.exists, tlvBlockExtract_block_iff hnull hterm]
  constructor
  · rintro ⟨block, o, ⟨hstart, long, length, hform, hfits, hbytes, rfl, rfl⟩, hrest⟩
    by_cases hcorrect : raw.getD offset 0 = tlvLockControl ∨ raw.getD offset 0 = tlvMemoryControl →
        length = 3
    swap
    · rw [if_neg (mt (isDataLengthCorrect_block_iff hnull hterm).mp hcorrect)] at hrest
      cases hrest
    rw [if_pos ((isDataLengthCorrect_block_iff hnull hterm).mpr hcorrect), if_neg hbare] at hrest
    simp only [result_bind, bind_eq_ok, tlvBlockInsert_eq_ok_iff hroom, result_pure,
      Except.ok.injEq, Prod.mk.injEq] at hrest
    obtain ⟨t, ⟨hone, rfl⟩, rfl, rfl⟩ := hrest
    -- The value is what stands behind the length field.
    let value := bytesAt raw (offset + 1 + lengthWidth long) length
    have hvalue : value.length = length := length_bytesAt _ _ _
    have hwidth := length_bytes_block (raw.getD offset 0) long value
    rw [hvalue] at hwidth
    refine ⟨long, value, ⟨⟨hnull, hterm, ?_, ?_⟩, hstart, by omega, ?_⟩, hone, ?_, by omega⟩
    · rw [hvalue]
      exact hform
    · rw [hvalue]
      exact hcorrect
    · rw [bytesAt_block_iff, hvalue]
      exact ⟨rfl, hbytes, rfl⟩
    · rw [Tlv.stored, hvalue]
  · rintro ⟨long, value, hstands, hone, rfl, rfl⟩
    obtain ⟨-, -, hform, hctrl⟩ := hstands.wellFormed
    obtain ⟨-, hbytes, -⟩ := bytesAt_block_iff.mp hstands.bytes
    have hfits := hstands.fits
    have hwidth := length_bytes_block (raw.getD offset 0) long value
    refine ⟨_, _, ⟨hstands.start, long, value.length, hform, by omega, hbytes, rfl, rfl⟩, ?_⟩
    rw [if_pos ((isDataLengthCorrect_block_iff hnull hterm).mpr hctrl), if_neg hbare]
    simp only [result_bind, bind_eq_ok, tlvBlockInsert_eq_ok_iff hroom, result_pure,
      Except.ok.injEq, Prod.mk.injEq]
    exact ⟨_, ⟨hone, rfl⟩, rfl, by omega⟩

theorem tlvParse_eq_ok_iff (hroom : t2t.tlvBlocks.length ≤ t2t.maxTlvBlocks) :
    (tlvParse raw t2t offset).result = .ok (t2t', next) ↔
      (EndsAt t2t.cc raw offset ∧ t2t' = t2t ∧ next = 0) ∨
        ∃ tlv, StandsAt t2t.cc raw offset tlv ∧
          t2t.tlvBlocks.length + (tlv.stored offset).length ≤ t2t.maxTlvBlocks ∧
            t2t' = t2t.append (tlv.stored offset) ∧ next = offset + tlv.bytes.length := by
  have happend : t2t.append [] = t2t := by
    rw [T2t.append, List.append_nil]
  have htag {tag : UInt8} {long : Bool} {value : List UInt8}
      (h : StandsAt t2t.cc raw offset (.block tag long value)) :
      raw.getD offset 0 = tag ∧ tag ≠ tlvNull ∧ tag ≠ tlvTerminator :=
    ⟨(bytesAt_block_iff.mp h.bytes).1, h.wellFormed.1, h.wellFormed.2.1⟩
  by_cases hnull : raw.getD offset 0 = tlvNull
  · rw [tlvParse_bare_iff (.inl hnull), if_pos hnull]
    constructor
    · rintro ⟨hrange, rfl, rfl⟩
      exact .inr ⟨.null, standsAt_null_iff.mpr ⟨hrange, hnull⟩, hroom, happend.symm, rfl⟩
    · rintro (⟨hends, -⟩ | ⟨tlv, hstands, -, rfl, rfl⟩)
      · exact absurd (hnull.symm.trans hends.byte) (by decide)
      · cases tlv with
        | null => exact ⟨(standsAt_null_iff.mp hstands).1, happend, rfl⟩
        | block tag long value =>
          obtain ⟨rfl, hne, -⟩ := htag hstands
          exact absurd hnull hne
  by_cases hterm : raw.getD offset 0 = tlvTerminator
  · rw [tlvParse_bare_iff (.inr hterm), if_neg hnull]
    constructor
    · rintro ⟨hrange, rfl, rfl⟩
      exact .inl ⟨⟨hrange.1, hrange.2, hterm⟩, rfl, rfl⟩
    · rintro (⟨hends, rfl, rfl⟩ | ⟨tlv, hstands, -⟩)
      · exact ⟨⟨hends.start, hends.fits⟩, rfl, rfl⟩
      · cases tlv with
        | null => exact absurd (standsAt_null_iff.mp hstands).2 hnull
        | block tag long value =>
          obtain ⟨rfl, -, hne⟩ := htag hstands
          exact absurd hterm hne
  rw [tlvParse_block_iff hroom hnull hterm]
  constructor
  · rintro ⟨long, value, hstands, hone, rfl, rfl⟩
    exact .inr ⟨_, hstands, hone, rfl, rfl⟩
  · rintro (⟨hends, -⟩ | ⟨tlv, hstands, hone, rfl, rfl⟩)
    · exact absurd hends.byte hterm
    · cases tlv with
      | null => exact absurd (standsAt_null_iff.mp hstands).2 hnull
      | block tag long value =>
        obtain ⟨rfl, -⟩ := htag hstands
        exact ⟨long, value, hstands, hone, rfl, rfl⟩

end Block

section Loop

variable {cc : Cc} {raw : Memory} {offset : Nat} {t2t : T2t} {tlv : Tlv} {tlvs : List Tlv}

/-- The blocks stand one behind the other from `offset` on, up to the end of the area or a
terminator. -/
def Scans (cc : Cc) (raw : Memory) (offset : Nat) : List Tlv → Prop
  | [] => offset = cc.dataEnd ∨ EndsAt cc raw offset
  | tlv :: tlvs => StandsAt cc raw offset tlv ∧ Scans cc raw (offset + tlv.bytes.length) tlvs

theorem Tlv.length_pos (tlv : Tlv) : 0 < tlv.bytes.length := by
  cases tlv <;> exact Nat.zero_lt_succ _

theorem not_isEndReached (h : offset < cc.dataEnd) : ¬ isEndReached cc offset = true := by
  rw [isEndReached, decide_eq_true_eq]
  omega

theorem tlvLoop_round {t2t' : T2t} {next : Nat} (hpos : offset ≠ 0) (hlt : offset < t2t.cc.dataEnd)
    (h : (tlvParse raw t2t offset).result = .ok (t2t', next)) :
    tlvLoop raw t2t offset = (tlvLoop raw t2t' next).after (tlvParse raw t2t offset).reads := by
  rw [tlvLoop, if_neg hpos, if_neg (not_isEndReached hlt)]
  split
  next e he => rw [h] at he; cases he
  next t next' hok =>
    rw [h] at hok
    cases hok
    rfl

theorem tlvLoop_of_end (h : isEndReached t2t.cc offset = true) (raw : Memory) :
    tlvLoop raw t2t offset = ⟨t2t, none, []⟩ := by
  rw [tlvLoop, if_pos h, ite_self]

theorem tlvLoop_zero (raw : Memory) (t2t : T2t) : tlvLoop raw t2t 0 = ⟨t2t, none, []⟩ := by
  rw [tlvLoop, if_pos rfl]

theorem append_append (t2t : T2t) (blocks blocks' : List TlvBlock) :
    (t2t.append blocks).append blocks' = t2t.append (blocks ++ blocks') := by
  rw [T2t.append, T2t.append, T2t.append, List.append_assoc]

theorem Scans.loop (h : Scans t2t.cc raw offset tlvs) (hstart : 16 ≤ offset)
    (hroom : t2t.tlvBlocks.length + (storedFrom offset tlvs).length ≤ t2t.maxTlvBlocks) :
    (tlvLoop raw t2t offset).err = none ∧
      (tlvLoop raw t2t offset).t2t = t2t.append (storedFrom offset tlvs) := by
  induction tlvs generalizing offset t2t with
  | nil =>
    have happend : t2t.append [] = t2t := by
      rw [T2t.append, List.append_nil]
    rw [storedFrom, happend]
    rcases h with hend | hends
    · have hreached : isEndReached t2t.cc offset = true := decide_eq_true hend
      rw [tlvLoop_of_end hreached]
      exact ⟨rfl, rfl⟩
    · have hparse : (tlvParse raw t2t offset).result = .ok (t2t, 0) :=
        (tlvParse_eq_ok_iff (by omega)).mpr (.inl ⟨hends, rfl, rfl⟩)
      rw [tlvLoop_round (by omega) hends.fits hparse, tlvLoop_zero]
      exact ⟨rfl, rfl⟩
  | cons tlv tlvs ih =>
    obtain ⟨hstands, hrest⟩ := h
    have hpos := tlv.length_pos
    have hfits := hstands.fits
    rw [storedFrom, List.length_append] at hroom
    have hparse : (tlvParse raw t2t offset).result =
        .ok (t2t.append (tlv.stored offset), offset + tlv.bytes.length) :=
      (tlvParse_eq_ok_iff (by omega)).mpr (.inr ⟨tlv, hstands, by omega, rfl, rfl⟩)
    rw [tlvLoop_round (by omega) (by omega) hparse, storedFrom, ← append_append]
    have hlen : (t2t.append (tlv.stored offset)).tlvBlocks.length =
        t2t.tlvBlocks.length + (tlv.stored offset).length := List.length_append
    have hmax : (t2t.append (tlv.stored offset)).maxTlvBlocks = t2t.maxTlvBlocks := rfl
    exact ih (show Scans (t2t.append (tlv.stored offset)).cc raw _ tlvs from hrest) (by omega) (by omega)

theorem exists_scans (hstart : 16 ≤ offset) (hroom : t2t.tlvBlocks.length ≤ t2t.maxTlvBlocks)
    (h : (tlvLoop raw t2t offset).err = none) :
    ∃ tlvs, Scans t2t.cc raw offset tlvs ∧
      t2t.tlvBlocks.length + (storedFrom offset tlvs).length ≤ t2t.maxTlvBlocks := by
  induction hn : t2t.cc.dataEnd + 1 - offset using Nat.strongRecOn generalizing offset t2t with
  | ind n ih =>
    by_cases hreached : isEndReached t2t.cc offset = true
    · exact ⟨[], .inl (of_decide_eq_true hreached), hroom⟩
    cases hparse : (tlvParse raw t2t offset).result with
    | error e =>
      rw [tlvLoop, if_neg (by omega), if_neg hreached] at h
      split at h
      next e' he => cases h
      next hok => rw [hparse] at hok; cases hok
    | ok result =>
      obtain ⟨t2t', next⟩ := result
      obtain ⟨-, hlt, -⟩ := tlvParse_progress hparse
      rw [tlvLoop_round (by omega) hlt hparse] at h
      rcases (tlvParse_eq_ok_iff hroom).mp hparse with
        ⟨hends, rfl, rfl⟩ | ⟨tlv, hstands, hone, rfl, rfl⟩
      · exact ⟨[], .inr hends, hroom⟩
      have hpos := tlv.length_pos
      have hlen : (t2t.append (tlv.stored offset)).tlvBlocks.length =
          t2t.tlvBlocks.length + (tlv.stored offset).length := List.length_append
      obtain ⟨tlvs, hscans, hrest⟩ := ih (t2t.cc.dataEnd + 1 - (offset + tlv.bytes.length))
        (by omega) (by omega) (hlen.trans_le hone) h rfl
      refine ⟨tlv :: tlvs, ⟨hstands, hscans⟩, ?_⟩
      rw [storedFrom, List.length_append]
      rw [hlen] at hrest
      change _ ≤ t2t.maxTlvBlocks at hrest
      omega

theorem tlvLoop_reads (raw : Memory) (t2t : T2t) (offset : Nat) :
    ∀ i ∈ (tlvLoop raw t2t offset).reads, i < t2t.cc.dataEnd := by
  fun_induction tlvLoop raw t2t offset with
  | case1 => exact fun i hi => absurd hi List.not_mem_nil
  | case2 => exact fun i hi => absurd hi List.not_mem_nil
  | case3 => exact within_tlvParse _ _ _
  | case4 t2t offset hpos hreached t2t' next hparse ih =>
    intro i hi
    rcases List.mem_append.mp hi with h | h
    · exact within_tlvParse _ _ _ i h
    · rw [← (tlvParse_progress hparse).1]
      exact ih i h

end Loop

def areaSize (raw : Memory) : Nat := (raw.getD 14 0).toNat * 8

/-- The data area is the sequence `tlvs`, and ends there or goes on with a terminator. -/
structure AreaLayout (raw : Memory) (tlvs : List Tlv) : Prop where
  wellFormed : ∀ tlv ∈ tlvs, tlv.WellFormed
  bytes : raw.slice 16 (areaSize raw) = tlvs.flatMap Tlv.bytes ∨
    ∃ rest, raw.slice 16 (areaSize raw) = tlvs.flatMap Tlv.bytes ++ tlvTerminator :: rest

def ValueInside (raw : Memory) (block : TlvBlock) : Prop :=
  ∀ pos, block.value = some pos → 16 ≤ pos ∧ pos + block.length ≤ 16 + areaSize raw

/-- The capability container is one that the parser supports. -/
structure HeaderSupported (raw : Memory) : Prop where
  magic : raw.getD 12 0 = nfcForumDefinedData
  version : (raw.getD 13 0).toNat / 16 = supportedMajorVersion

section Area

variable {cc : Cc} {raw : Memory} {offset : Nat} {tlvs : List Tlv}

theorem scans_iff (hstart : 16 ≤ offset) (hend : offset ≤ cc.dataEnd) :
    Scans cc raw offset tlvs ↔ (∀ tlv ∈ tlvs, tlv.WellFormed) ∧
      (bytesAt raw offset (cc.dataEnd - offset) = tlvs.flatMap Tlv.bytes ∨
        ∃ rest, bytesAt raw offset (cc.dataEnd - offset) =
          tlvs.flatMap Tlv.bytes ++ tlvTerminator :: rest) := by
  induction tlvs generalizing offset with
  | nil =>
    have hnil : (∀ tlv ∈ ([] : List Tlv), tlv.WellFormed) := fun _ h => absurd h List.not_mem_nil
    rw [Scans, and_iff_right hnil, List.flatMap_nil, ← List.length_eq_zero_iff, length_bytesAt]
    apply or_congr
    · omega
    · constructor
      · intro h
        have hfits := h.fits
        have hsplit : cc.dataEnd - offset = 1 + (cc.dataEnd - offset - 1) := by omega
        rw [hsplit, bytesAt_add, bytesAt_one, h.byte]
        exact ⟨_, rfl⟩
      · rintro ⟨rest, h⟩
        have hlen := congrArg List.length h
        rw [length_bytesAt, List.nil_append, List.length_cons] at hlen
        have hsplit : cc.dataEnd - offset = 1 + (cc.dataEnd - offset - 1) := by omega
        rw [hsplit, bytesAt_add, bytesAt_one] at h
        exact ⟨hstart, by omega, (List.cons.inj h).1⟩
  | cons tlv tlvs ih =>
    have hpos := tlv.length_pos
    rw [Scans, List.flatMap_cons, List.forall_mem_cons]
    constructor
    · rintro ⟨hstands, hrest⟩
      have hfits := hstands.fits
      obtain ⟨hwell, hbytes⟩ := (ih (by omega) hfits).mp hrest
      have hsplit : cc.dataEnd - offset =
          tlv.bytes.length + (cc.dataEnd - (offset + tlv.bytes.length)) := by omega
      refine ⟨⟨hstands.wellFormed, hwell⟩, ?_⟩
      rw [hsplit, bytesAt_add, hstands.bytes]
      simpa [List.append_assoc] using hbytes
    · rintro ⟨⟨hwell, hwells⟩, hbytes⟩
      have hfits : offset + tlv.bytes.length ≤ cc.dataEnd := by
        rcases hbytes with h | ⟨rest, h⟩ <;> have hlen := congrArg List.length h <;>
          simp only [length_bytesAt, List.length_append] at hlen <;> omega
      have hsplit : cc.dataEnd - offset =
          tlv.bytes.length + (cc.dataEnd - (offset + tlv.bytes.length)) := by omega
      simp only [hsplit, List.append_assoc, bytesAt_eq_append_iff (rfl : tlv.bytes.length = _)]
        at hbytes
      rcases hbytes with ⟨hblock, hrest⟩ | ⟨rest, hblock, hrest⟩
      · exact ⟨⟨hwell, hstart, hfits, hblock⟩, (ih (by omega) hfits).mpr ⟨hwells, .inl hrest⟩⟩
      · exact ⟨⟨hwell, hstart, hfits, hblock⟩,
          (ih (by omega) hfits).mpr ⟨hwells, .inr ⟨rest, hrest⟩⟩⟩

theorem Scans.value_inside {block : TlvBlock} (h : Scans cc raw offset tlvs)
    (hblock : block ∈ storedFrom offset tlvs) :
    ∀ pos, block.value = some pos → 16 ≤ pos ∧ pos + block.length ≤ cc.dataEnd := by
  induction tlvs generalizing offset with
  | nil => exact absurd hblock List.not_mem_nil
  | cons tlv tlvs ih =>
    obtain ⟨hstands, hrest⟩ := h
    rcases List.mem_append.mp hblock with hmem | hmem
    · cases tlv with
      | null => exact absurd hmem List.not_mem_nil
      | block tag long value =>
        obtain rfl := List.mem_singleton.mp hmem
        intro pos hpos
        have hstart := hstands.start
        have hfits := hstands.fits
        rw [length_bytes_block] at hfits
        dsimp only at hpos ⊢
        split_ifs at hpos
        obtain rfl := Option.some.inj hpos
        omega
    · exact ih hrest hmem

end Area

section Image

variable {raw : Memory} {t2t : T2t}

theorem ccParse_eq_ok {t2t' : T2t} (h : (ccParse raw t2t).result = .ok t2t') :
    raw.getD 12 0 = nfcForumDefinedData ∧ t2t'.cc.dataAreaSize = areaSize raw ∧
      t2t'.cc.majorVersion = (raw.getD 13 0).toNat / 16 ∧ t2t'.tlvBlocks = t2t.tlvBlocks ∧
        t2t'.maxTlvBlocks = t2t.maxTlvBlocks := by
  have hnibble : ∀ b : UInt8, (b >>> 4 &&& 0x0F).toNat = b.toNat / 16 := by decide +kernel
  simp only [ccParse, result_bind, result_byteAt, bind_eq_ok, Except.ok.injEq,
    exists_eq_left'] at h
  split_ifs at h with hmagic
  · cases h
  simp only [result_bind, result_byteAt, bind_eq_ok, Except.ok.injEq, exists_eq_left',
    result_pure] at h
  subst h
  exact ⟨not_not.mp hmagic, rfl, hnibble _, rfl, rfl⟩

theorem exists_ccParse (h : raw.getD 12 0 = nfcForumDefinedData) (t2t : T2t) :
    ∃ t2t', (ccParse raw t2t).result = .ok t2t' := by
  simp only [ccParse, result_bind, result_byteAt, bind_eq_ok, Except.ok.injEq, exists_eq_left']
  rw [ccBlockOffset, if_neg (not_not.mpr h)]
  simp

theorem t2tParse_cases (raw : Memory) (t2t : T2t) :
    (¬ HeaderSupported raw ∧ (t2tParse raw t2t).err ≠ none) ∨
      ∃ t : T2t, HeaderSupported raw ∧ t.cc.dataEnd = 16 + areaSize raw ∧ t.tlvBlocks = [] ∧
        t.maxTlvBlocks = t2t.maxTlvBlocks ∧
          (t2tParse raw t2t).err = (tlvLoop raw t 16).err ∧
            (t2tParse raw t2t).t2t = (tlvLoop raw t 16).t2t := by
  unfold t2tParse
  dsimp only
  split
  next e he =>
    refine .inl ⟨fun hsupported => ?_, Option.some_ne_none e⟩
    obtain ⟨t, ht⟩ := exists_ccParse hsupported.magic (internalParse raw (t2tClear t2t))
    rw [ht] at he
    cases he
  next t ht =>
    obtain ⟨hmagic, hsize, hmajor, hblocks, hmax⟩ := ccParse_eq_ok ht
    split_ifs with hversion
    · refine .inr ⟨t, ⟨hmagic, hmajor ▸ hversion⟩, ?_, hblocks, hmax, rfl, rfl⟩
      rw [Cc.dataEnd, hsize, Nat.add_comm]
      rfl
    · exact .inl ⟨fun hsupported => hversion (hmajor.trans hsupported.version), nofun⟩

theorem within_ccParse {n : Nat} (hn : 16 ≤ n) (raw : Memory) (t2t : T2t) :
    Within n (ccParse raw t2t) := by
  apply Within.bind
  · exact Within.byteAt (by rw [ccBlockOffset]; omega)
  intro magic _
  split_ifs
  · exact Within.fail
  apply Within.bind
  · exact Within.byteAt (by rw [ccBlockOffset]; omega)
  intro version _
  apply Within.bind
  · exact Within.byteAt (by rw [ccBlockOffset]; omega)
  intro size _
  apply Within.bind
  · exact Within.byteAt (by rw [ccBlockOffset]; omega)
  exact fun _ _ => Within.pure

theorem t2tParse_reads (raw : Memory) (t2t : T2t) :
    ∀ i ∈ (t2tParse raw t2t).reads, i < 16 + areaSize raw := by
  have hheader : ∀ i ∈ List.range 12 ++ (ccParse raw (internalParse raw (t2tClear t2t))).reads,
      i < 16 + areaSize raw := by
    intro i hi
    rcases List.mem_append.mp hi with h | h
    · have := List.mem_range.mp h
      omega
    · exact within_ccParse (by omega) raw _ i h
  unfold t2tParse
  dsimp only
  split
  next => exact hheader
  next t ht =>
    obtain ⟨-, hsize, -⟩ := ccParse_eq_ok ht
    split_ifs
    · intro i hi
      rcases List.mem_append.mp hi with h | h
      · exact hheader i h
      · have := tlvLoop_reads raw t _ i h
        rw [Cc.dataEnd, hsize] at this
        exact this.trans_eq (Nat.add_comm _ _)
    · exact hheader

end Image

/-- The parser reads the header and the data area only. What it stores when it returns 0 are the blocks
of the area in order, up to the end or the first terminator, and where the capability container is
supported it takes every such area whose blocks fit. -/
theorem t2tParse_spec (raw : Memory) (t2t : T2t) (hlen : 16 + areaSize raw ≤ raw.length) :
    (∀ i ∈ (t2tParse raw t2t).reads, i < 16 + areaSize raw) ∧
      ((t2tParse raw t2t).err = none →
        HeaderSupported raw ∧ ∃ tlvs, AreaLayout raw tlvs ∧
          (t2tParse raw t2t).t2t.tlvBlocks = storedFrom 16 tlvs ∧
            ∀ block ∈ storedFrom 16 tlvs, ValueInside raw block) ∧
      (HeaderSupported raw → ∀ tlvs, AreaLayout raw tlvs →
        (storedFrom 16 tlvs).length ≤ t2t.maxTlvBlocks →
          (t2tParse raw t2t).err = none ∧
            (t2tParse raw t2t).t2t.tlvBlocks = storedFrom 16 tlvs) := by
  refine ⟨t2tParse_reads raw t2t, ?_⟩
  rcases t2tParse_cases raw t2t with ⟨hheader, herr⟩ | ⟨t, hheader, hend, hblocks, hmax, herr, ht⟩
  · exact ⟨fun h => absurd h herr, fun h => absurd h hheader⟩
  have hsize : t.cc.dataEnd - 16 = areaSize raw := by omega
  have hslice : bytesAt raw 16 (t.cc.dataEnd - 16) = raw.slice 16 (areaSize raw) := by
    rw [hsize, bytesAt_eq_slice hlen]
  have hscans (tlvs : List Tlv) : Scans t.cc raw 16 tlvs ↔ AreaLayout raw tlvs := by
    rw [scans_iff (le_refl 16) (by omega), hslice]
    exact ⟨fun h => ⟨h.1, h.2⟩, fun h => ⟨h.wellFormed, h.bytes⟩⟩
  have hcount : t.tlvBlocks.length = 0 := by rw [hblocks, List.length_nil]
  have hloop {tlvs : List Tlv} (h : Scans t.cc raw 16 tlvs)
      (hroom : (storedFrom 16 tlvs).length ≤ t2t.maxTlvBlocks) :
      (t2tParse raw t2t).err = none ∧
        (t2tParse raw t2t).t2t.tlvBlocks = storedFrom 16 tlvs := by
    obtain ⟨hnone, hstored⟩ := h.loop (le_refl 16) (by omega)
    refine ⟨herr.trans hnone, ?_⟩
    rw [ht, hstored, T2t.append, hblocks, List.nil_append]
  constructor
  · intro hnone
    obtain ⟨tlvs, htlvs, hroom⟩ := exists_scans (le_refl 16) (by omega) (herr.symm.trans hnone)
    refine ⟨hheader, tlvs, (hscans tlvs).mp htlvs, (hloop htlvs (by omega)).2, ?_⟩
    intro block hblock
    have hinside := htlvs.value_inside hblock
    rwa [hend] at hinside
  · intro _ tlvs hlayout hroom
    exact hloop ((hscans tlvs).mpr hlayout) hroom

/-- A tag with eight bytes of data: an empty NDEF message, `NULL` and a terminator. -/
private def exampleImage : Memory :=
  List.replicate 12 0 ++ [0xE1, 0x10, 0x01, 0x00] ++ [0x03, 0x00, 0x00, 0xFE, 0x00, 0x00, 0x00, 0x00]

private def exampleT2t : T2t := ⟨⟨0, 0, 0, 0, 0, 0⟩, 0, ⟨0, 0, 0, 0, 0, no_size_le⟩, 4, []⟩

theorem exampleImage_spec :
    (t2tParse exampleImage exampleT2t).err = none ∧
      (t2tParse exampleImage exampleT2t).t2t.tlvBlocks = [⟨0x03, 0, none⟩] := by
  have hheader : HeaderSupported exampleImage := ⟨by decide, by decide⟩
  have hlayout : AreaLayout exampleImage [.block 0x03 false [], .null] := by
    refine ⟨?_, .inr ⟨[0x00, 0x00, 0x00, 0x00], by decide⟩⟩
    rintro tlv htlv
    simp only [List.mem_cons, List.not_mem_nil, or_false] at htlv
    rcases htlv with rfl | rfl
    · exact ⟨by decide, by decide, (by decide : 0 < 255), by decide⟩
    · trivial
  exact (t2tParse_spec exampleImage exampleT2t (by decide)).2.2 hheader _ hlayout (by decide)

private def newerImage : Memory := List.replicate 12 0 ++ [0xE1, 0x20, 0x00, 0x00]

/-- The data area is well formed, and the tag is refused for its version. -/
theorem newerImage_refused : 16 + areaSize newerImage ≤ newerImage.length ∧
    AreaLayout newerImage [] ∧ (storedFrom 16 []).length ≤ exampleT2t.maxTlvBlocks ∧
      (t2tParse newerImage exampleT2t).err = some .EFAULT :=
  ⟨by decide, ⟨fun _ h => absurd h List.not_mem_nil, .inl (by decide)⟩, by decide,
    by decide⟩

end SdkNrf.Type2Tag
