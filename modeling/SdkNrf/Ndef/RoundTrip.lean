import SdkNrf.Ndef.Message

/-!
# NDEF round trip

The wire format of a message of binary records, stated on its own, is what `nfc_ndef_msg_encode`
leaves in its buffer; `nfc_ndef_msg_parser_internal` reads the same records back from it, whatever
follows in memory.
-/

namespace SdkNrf.Ndef

structure Record where
  tnf : Tnf
  type : List UInt8
  id : List UInt8
  payload : List UInt8
  tnf_ne : tnf ≠ .reserved
  type_lt : type.length < 2 ^ 8
  id_lt : id.length < 2 ^ 8

namespace Record

variable (r : Record)

/-- The descriptor of `NFC_NDEF_RECORD_BIN_DATA_DEF`. -/
def desc : RecordDesc where
  tnf := r.tnf
  id := r.id
  type := r.type
  payloadConstructor := some (binPayloadMemcopy r.payload)
  id_lt := r.id_lt
  type_lt := r.type_lt

def flags (location : Location) : UInt8 :=
  if 0 < r.id.length then location.toByte ||| r.tnf.toByte ||| ilMask
  else location.toByte ||| r.tnf.toByte

def idLength : List UInt8 := if 0 < r.id.length then [UInt8.ofNat r.id.length] else []

def header (location : Location) (payloadLength : List UInt8) : List UInt8 :=
  r.flags location :: UInt8.ofNat r.type.length :: (payloadLength ++ (r.idLength ++ (r.type ++ r.id)))

def wire (location : Location) : List UInt8 :=
  r.header location (be32 r.payload.length) ++ r.payload

def headerLength : Nat := 6 + r.idLength.length + r.type.length + r.id.length

def wireLength : Nat := r.headerLength + r.payload.length

theorem recordHeaderSizeCalc_desc : recordHeaderSizeCalc r.desc = r.headerLength := by
  simp only [recordHeaderSizeCalc, desc, headerLength, idLength, payloadLenLongSize]
  by_cases h : 0 < r.id.length
  · simp only [h, if_true, List.length_singleton]
    omega
  · simp only [h, if_false, List.length_nil]
    omega

theorem length_header (location : Location) {l : List UInt8} (h : l.length = 4) :
    (r.header location l).length = r.headerLength := by
  simp only [header, headerLength, List.length_cons, List.length_append, h]
  omega

theorem length_wire (location : Location) : (r.wire location).length = r.wireLength := by
  rw [wire, List.length_append, r.length_header _ (length_be32 _), wireLength]

end Record

/-- The records of a message from position `index` on. -/
def wireFrom (count : Nat) : Nat → List Record → List UInt8
  | _, [] => []
  | index, r :: rs => r.wire (recordLocationGet index count) ++ wireFrom count (index + 1) rs

def wireLengthOf (rs : List Record) : Nat := (rs.map Record.wireLength).sum

theorem wireLengthOf_cons (r : Record) (rs : List Record) :
    wireLengthOf (r :: rs) = r.wireLength + wireLengthOf rs := rfl

theorem length_wireFrom (count index : Nat) (rs : List Record) :
    (wireFrom count index rs).length = wireLengthOf rs := by
  induction rs generalizing index with
  | nil => rfl
  | cons r rs ih =>
    rw [wireFrom, List.length_append, ih, r.length_wire, wireLengthOf_cons]

private theorem write_zero (a b : UInt8) (l : List UInt8) :
    Memory.write (a :: l) 0 [b] = b :: l := rfl

private theorem write_one (a b c : UInt8) (l : List UInt8) :
    Memory.write (a :: b :: l) 1 [c] = a :: c :: l := rfl

def RecordDesc.header (desc : RecordDesc) (location : Location) (payloadLength : List UInt8) :
    List UInt8 :=
  (if 0 < desc.id.length then location.toByte ||| desc.tnf.toByte ||| ilMask
    else location.toByte ||| desc.tnf.toByte) :: UInt8.ofNat desc.type.length ::
    (payloadLength ++ ((if 0 < desc.id.length then [UInt8.ofNat desc.id.length] else []) ++
      (desc.type ++ desc.id)))

theorem RecordDesc.length_header (desc : RecordDesc) (location : Location) {l : List UInt8}
    (h : l.length = 4) : (desc.header location l).length = recordHeaderSizeCalc desc := by
  simp only [header, recordHeaderSizeCalc, payloadLenLongSize, List.length_cons, List.length_append,
    h]
  split
  · rw [List.length_singleton]
    omega
  · rw [List.length_nil]
    omega

theorem writeHeader_eq (desc : RecordDesc) (location : Location) (mem : Memory)
    (h : recordHeaderSizeCalc desc ≤ mem.length) :
    ∃ old, old.length = 4 ∧ writeHeader desc location mem =
      desc.header location old ++ mem.drop (recordHeaderSizeCalc desc) := by
  set idLength := if 0 < desc.id.length then [UInt8.ofNat desc.id.length] else [] with hidLength
  have hsize : recordHeaderSizeCalc desc =
      6 + idLength.length + desc.type.length + desc.id.length := by
    rw [← desc.length_header location (List.length_replicate (n := 4) (a := 0)), RecordDesc.header,
      ← hidLength]
    simp only [List.length_cons, List.length_append, List.length_replicate]
    omega
  obtain ⟨m0, m1, mem, rfl⟩ : ∃ m0 m1 rest, mem = m0 :: m1 :: rest := by
    match mem with
    | [] | [_] => simp only [List.length_nil, List.length_singleton, hsize] at h; omega
    | m0 :: m1 :: rest => exact ⟨m0, m1, rest, rfl⟩
  simp only [hsize, List.length_cons] at h
  obtain ⟨old, mem, rfl, hold⟩ := Memory.exists_field mem 4 (by omega)
  rw [List.length_append] at h
  obtain ⟨fi, mem, rfl, hfi⟩ := Memory.exists_field mem idLength.length (by omega)
  rw [List.length_append] at h
  obtain ⟨ft, mem, rfl, hft⟩ := Memory.exists_field mem desc.type.length (by omega)
  rw [List.length_append] at h
  obtain ⟨fd, rest, rfl, hfd⟩ := Memory.exists_field mem desc.id.length (by omega)
  refine ⟨old, hold, ?_⟩
  have hdrop : (m0 :: m1 :: (old ++ (fi ++ (ft ++ (fd ++ rest))))).drop
      (recordHeaderSizeCalc desc) = rest := by
    rw [show m0 :: m1 :: (old ++ (fi ++ (ft ++ (fd ++ rest)))) =
      (m0 :: m1 :: (old ++ (fi ++ (ft ++ fd)))) ++ rest by simp]
    refine List.drop_left' ?_
    simp only [List.length_cons, List.length_append, hsize]
    omega
  rw [hdrop, RecordDesc.header, ← hidLength]
  by_cases hid : 0 < desc.id.length
  · have hone : fi.length = 1 := by rw [hfi, hidLength, if_pos hid, List.length_singleton]
    rw [hidLength, if_pos hid, if_pos hid]
    simp only [writeHeader, if_pos hid, write_zero, write_one, payloadLenLongSize]
    rw [show ∀ a b : UInt8, a :: b :: (old ++ (fi ++ (ft ++ (fd ++ rest)))) =
        (a :: b :: old) ++ (fi ++ (ft ++ (fd ++ rest))) from fun _ _ => rfl,
      Memory.write_field (by simp [hold]) (by rw [hone, List.length_singleton])]
    simp only [List.cons_append, write_zero, List.nil_append]
    rw [show ∀ a b c : UInt8, a :: b :: (old ++ c :: (ft ++ (fd ++ rest))) =
        (a :: b :: (old ++ [c])) ++ (ft ++ (fd ++ rest)) by simp,
      Memory.write_field (by simp [hold]) hft.symm, ← List.append_assoc (_ :: _),
      Memory.write_field (by simp [hold]; omega) hfd.symm]
    simp
  · have hnil : fi = [] := by
      rw [← List.length_eq_zero_iff, hfi, hidLength, if_neg hid, List.length_nil]
    have hfd' : fd = desc.id := by
      rw [List.length_eq_zero_iff.mp (show desc.id.length = 0 by omega), ← List.length_eq_zero_iff]
      omega
    rw [hidLength, if_neg hid, if_neg hid]
    simp only [writeHeader, if_neg hid, write_zero, write_one, payloadLenLongSize]
    rw [hnil, List.nil_append, show ∀ a b : UInt8, a :: b :: (old ++ (ft ++ (fd ++ rest))) =
        (a :: b :: old) ++ (ft ++ (fd ++ rest)) from fun _ _ => rfl,
      Memory.write_field (by simp [hold]) hft.symm, hfd']
    simp

theorem writeHeader_desc (r : Record) (location : Location) (mem : Memory)
    (h : r.headerLength ≤ mem.length) :
    ∃ old, old.length = 4 ∧
      writeHeader r.desc location mem = r.header location old ++ mem.drop r.headerLength := by
  rw [← r.recordHeaderSizeCalc_desc] at h ⊢
  exact writeHeader_eq r.desc location mem h

theorem recordEncode_wire (r : Record) (location : Location) (uninit : Nat) (mem : Memory)
    (len : Nat) (hfit : r.wireLength ≤ len) (hlen : len ≤ mem.length) (hu32 : len < 2 ^ 32) :
    recordEncode uninit (some r.desc) location (some mem) len =
      ⟨some (r.wire location ++ mem.drop r.wireLength), .ok r.wireLength⟩ := by
  have hwl : r.wireLength = r.headerLength + r.payload.length := rfl
  obtain ⟨old, hold, hheader⟩ := writeHeader_desc r location mem (by omega)
  have hmask : ¬ location.toByte &&& ~~~locationMask ≠ 0 := by cases location <;> decide
  have hlenh := r.length_header location hold
  obtain ⟨field, rest, hfield, hpay⟩ := Memory.exists_field (mem.drop r.headerLength)
    r.payload.length (by rw [List.length_drop]; omega)
  have hrest : mem.drop r.wireLength = rest := by
    rw [hwl, ← List.drop_drop, hfield, List.drop_left' hpay]
  have hconstruct : binPayloadMemcopy r.payload (some (mem.drop r.headerLength))
      (len - r.headerLength) = ⟨some (r.payload ++ rest), .ok r.payload.length⟩ := by
    rw [hfield]
    simp only [binPayloadMemcopy, if_neg (show ¬ len - r.headerLength < r.payload.length by omega)]
    rw [← List.nil_append (field ++ rest), Memory.write_field List.length_nil.symm hpay.symm,
      List.nil_append]
  have hpayload : r.desc.payloadConstructor = some (binPayloadMemcopy r.payload) := rfl
  simp only [recordEncode, r.recordHeaderSizeCalc_desc, if_neg hmask, hpayload,
    if_neg (show ¬ r.headerLength > len by omega), hheader, List.take_left' hlenh,
    List.drop_left' hlenh, hconstruct, Option.getD_some]
  rw [addU32_of_lt (by omega), ← hwl, hrest, Record.header, Record.wire, Record.header,
    show ∀ a b : UInt8, (a :: b :: (old ++ (r.idLength ++ (r.type ++ r.id)))) ++ (r.payload ++ rest) =
      [a, b] ++ (old ++ (r.idLength ++ (r.type ++ r.id) ++ (r.payload ++ rest))) by simp,
    Memory.write_field (by rfl) (by rw [hold, length_be32])]
  simp

theorem msgEncodeFrom_wire (count msgLen uninit : Nat) (hu32 : msgLen < 2 ^ 32) :
    ∀ (rs : List Record) (index : Nat) (pre rest : Memory),
      pre.length + wireLengthOf rs ≤ msgLen → msgLen ≤ pre.length + rest.length →
      msgEncodeFrom uninit count msgLen (rs.map fun r => some r.desc) index pre.length
          (some (pre ++ rest)) =
        ⟨some (pre ++ wireFrom count index rs ++ rest.drop (wireLengthOf rs)),
          .ok (pre.length + wireLengthOf rs)⟩ := by
  intro rs
  induction rs with
  | nil =>
    intro index pre rest _ _
    simp [msgEncodeFrom, wireFrom, wireLengthOf]
  | cons r rs ih =>
    intro index pre rest hfit hmem
    rw [wireLengthOf_cons] at hfit
    have hrecord := recordEncode_wire r (recordLocationGet index count) uninit rest
      (subU32 msgLen pre.length) (by rw [subU32_of_le (by omega) hu32]; omega)
      (by rw [subU32_of_le (by omega) hu32]; omega) (by rw [subU32_of_le (by omega) hu32]; omega)
    simp only [List.map_cons, msgEncodeFrom, Option.map_some, List.drop_left, List.take_left,
      hrecord, Option.getD_some]
    rw [addU32_of_lt (by omega), ← List.append_assoc,
      ← show (pre ++ r.wire (recordLocationGet index count)).length = pre.length + r.wireLength by
        rw [List.length_append, r.length_wire],
      ih (index + 1) (pre ++ r.wire (recordLocationGet index count)) (rest.drop r.wireLength)
        (by rw [List.length_append, r.length_wire]; omega)
        (by rw [List.length_append, r.length_wire, List.length_drop]; omega)]
    simp only [wireFrom, wireLengthOf_cons, List.length_append, r.length_wire, List.append_assoc,
      List.drop_drop, Nat.add_assoc]

def bytesAt (data : Memory) (ptr : Option Nat) (len : Nat) : List UInt8 :=
  match ptr with
  | none => []
  | some off => data.slice off len

abbrev Contents := Tnf × List UInt8 × List UInt8 × List UInt8

def Record.contents (r : Record) : Contents := (r.tnf, r.type, r.id, r.payload)

def ParsedRecord.contents (data : Memory) (p : ParsedRecord) : Contents :=
  (p.tnf, bytesAt data p.type p.typeLength, bytesAt data p.id p.idLength,
    bytesAt data p.payload p.payloadLength)

namespace Record

variable (r : Record) (location : Location)

theorem ofFlags_location : Location.ofFlags (r.flags location) = location := by
  unfold flags
  split <;> cases location <;> cases r.tnf <;> rfl

theorem ofFlags_tnf : Tnf.ofFlags (r.flags location) = r.tnf := by
  unfold flags
  split <;> cases location <;> cases r.tnf <;> rfl

theorem flags_sr : ¬ r.flags location &&& srMask ≠ 0 := by
  unfold flags
  split <;> cases location <;> cases r.tnf <;> decide

theorem flags_il : r.flags location &&& ilMask ≠ 0 ↔ 0 < r.id.length := by
  unfold flags
  split <;> rename_i h <;> simp only [h, iff_true, iff_false] <;>
    cases location <;> cases r.tnf <;> decide

end Record

private theorem readByte_append (pre : Memory) {l : Memory} {i : Nat} {b : UInt8}
    (h : l[i]? = some b) :
    readByte (pre ++ l) (pre.length + i) = .ok b := by
  rw [readByte, List.getElem?_append_right (by omega), Nat.add_sub_cancel_left, h]

private theorem checkSize_of_le {expected len : Nat} (h : expected ≤ len) :
    checkSize expected len = .ok () := if_neg (by omega)

theorem readPayloadLength_wire (r : Record) (location : Location) (pre rest : Memory) {len : Nat}
    (hlen : 6 ≤ len) (hpayload : r.payload.length < 2 ^ 32) :
    readPayloadLength (r.flags location) (pre ++ (be32 r.payload.length ++ rest)) pre.length 3 len =
      .ok (r.payload.length, 6, pre.length + 4) := by
  have hb (i : Nat) (b : UInt8) (h : (be32 r.payload.length ++ rest)[i]? = some b) :=
    readByte_append pre h
  rw [readPayloadLength, if_neg (r.flags_sr location)]
  simp only [payloadLenLongSize, payloadLenShortSize, addU32_of_lt (show 3 + (4 - 1) < 2 ^ 32 by decide),
    checkSize_of_le hlen, bind, Except.bind, show readByte _ pre.length = _ from hb 0 _ rfl,
    hb 1 _ rfl, hb 2 _ rfl, hb 3 _ rfl, be32Value_be32 hpayload, pure, Except.pure]

theorem readIdLength_wire (r : Record) (location : Location) (prev : Option Nat)
    (pre rest : Memory) {len : Nat} (hlen : 6 + r.idLength.length ≤ len) :
    ∃ id, readIdLength (r.flags location) prev (pre ++ (r.idLength ++ rest)) pre.length 6 len =
      .ok (r.id.length, id, 6 + r.idLength.length, pre.length + r.idLength.length) ∧
      (r.id.length = 0 → id = none) := by
  by_cases hid : 0 < r.id.length
  · have hfield : r.idLength = [UInt8.ofNat r.id.length] := if_pos hid
    have hb : readByte (pre ++ (r.idLength ++ rest)) (pre.length + 0) =
        .ok (UInt8.ofNat r.id.length) := readByte_append pre (by rw [hfield]; rfl)
    have hlt : (UInt8.ofNat r.id.length).toNat = r.id.length :=
      UInt8.toNat_ofNat_of_lt' r.id_lt
    refine ⟨prev, ?_, fun h => absurd h (by omega)⟩
    rw [readIdLength, if_pos ((r.flags_il location).mpr hid)]
    rw [hfield, List.length_singleton] at hlen ⊢
    rw [hfield] at hb
    simp only [idLenSize, addU32_of_lt (show 6 + 1 < 2 ^ 32 by decide), checkSize_of_le hlen, bind,
      Except.bind, show readByte _ pre.length = _ from hb, hlt, pure, Except.pure]
  · have hfield : r.idLength = [] := if_neg hid
    refine ⟨none, ?_, fun _ => rfl⟩
    rw [readIdLength, if_neg (fun h => hid ((r.flags_il location).mp h)), hfield,
      show r.id.length = 0 by omega]
    rfl

/-- The descriptor of a record whose type starts at `off`; `id` is the ID pointer of a record
without an ID. -/
private def parsedAt (r : Record) (off : Nat) (id : Option Nat) : ParsedRecord where
  tnf := r.tnf
  typeLength := r.type.length
  type := if 0 < r.type.length then some off else none
  idLength := r.id.length
  id := if 0 < r.id.length then some (off + r.type.length) else id
  payloadLength := r.payload.length
  payload := if r.payload.length = 0 then none else some (off + r.type.length + r.id.length)

private theorem parsedAt_contents (r : Record) (pre rest : Memory) {id : Option Nat}
    (hid : r.id.length = 0 → id = none) :
    (parsedAt r pre.length id).contents (pre ++ (r.type ++ (r.id ++ (r.payload ++ rest)))) =
      r.contents := by
  set data := pre ++ (r.type ++ (r.id ++ (r.payload ++ rest))) with hdata
  have htype : bytesAt data (parsedAt r pre.length id).type r.type.length = r.type := by
    by_cases h : 0 < r.type.length
    · simp only [parsedAt, if_pos h, bytesAt]
      exact Memory.slice_field rfl rfl
    · simp only [parsedAt, if_neg h, bytesAt]
      exact (List.length_eq_zero_iff.mp (by omega)).symm
  have hidBytes : bytesAt data (parsedAt r pre.length id).id r.id.length = r.id := by
    by_cases h : 0 < r.id.length
    · simp only [parsedAt, if_pos h, bytesAt]
      rw [hdata, ← List.append_assoc]
      exact Memory.slice_field List.length_append.symm rfl
    · simp only [parsedAt, if_neg h, hid (by omega), bytesAt]
      exact (List.length_eq_zero_iff.mp (by omega)).symm
  have hpayload : bytesAt data (parsedAt r pre.length id).payload r.payload.length = r.payload := by
    by_cases h : r.payload.length = 0
    · simp only [parsedAt, if_pos h, bytesAt]
      exact (List.length_eq_zero_iff.mp h).symm
    · simp only [parsedAt, if_neg h, bytesAt]
      rw [hdata, ← List.append_assoc, ← List.append_assoc]
      exact Memory.slice_field (by simp only [List.length_append]) rfl
  exact Prod.ext rfl (Prod.ext htype (Prod.ext hidBytes hpayload))

theorem recordParse_wire (r : Record) (location : Location) (prev : ParsedRecord)
    (pre rest : Memory) {len : Nat} (hfit : r.wireLength ≤ len) (hlen : len < 2 ^ 32) :
    ∃ p, recordParse prev (pre ++ (r.wire location ++ rest)) pre.length len =
        .ok (p, location, r.wireLength) ∧
      p.contents (pre ++ (r.wire location ++ rest)) = r.contents := by
  have hwl : r.wireLength = 6 + r.idLength.length + r.type.length + r.id.length + r.payload.length := rfl
  set data := pre ++ (r.wire location ++ rest) with hdata
  have htype : (UInt8.ofNat r.type.length).toNat = r.type.length :=
    UInt8.toNat_ofNat_of_lt' r.type_lt
  have htnf : (if Tnf.ofFlags (r.flags location) = .reserved then .unknownType
      else Tnf.ofFlags (r.flags location)) = r.tnf := by
    rw [r.ofFlags_tnf location, if_neg r.tnf_ne]
  have hflags : readByte data pre.length = .ok (r.flags location) := readByte_append pre (i := 0) rfl
  have htypeByte : readByte data (pre.length + 1) = .ok (UInt8.ofNat r.type.length) :=
    readByte_append pre rfl
  have hpayload : readPayloadLength (r.flags location) data (pre.length + 2) 3 len =
      .ok (r.payload.length, 6, pre.length + 6) := by
    have := readPayloadLength_wire r location
      (pre ++ [r.flags location, UInt8.ofNat r.type.length])
      (r.idLength ++ (r.type ++ r.id) ++ (r.payload ++ rest)) (show 6 ≤ len by omega) (by omega)
    simpa [hdata, Record.wire, Record.header] using this
  obtain ⟨id, hid, hnull⟩ : ∃ id, readIdLength (r.flags location) prev.id data (pre.length + 6) 6 len =
      .ok (r.id.length, id, 6 + r.idLength.length, pre.length + 6 + r.idLength.length) ∧
      (r.id.length = 0 → id = none) := by
    have := readIdLength_wire r location prev.id
      (pre ++ (r.flags location :: UInt8.ofNat r.type.length :: be32 r.payload.length))
      (r.type ++ r.id ++ (r.payload ++ rest)) (show 6 + r.idLength.length ≤ len by omega)
    simpa [hdata, Record.wire, Record.header] using this
  have hsize : addU32 (6 + r.idLength.length) (addU32 (r.type.length + r.id.length) r.payload.length) =
      r.wireLength := by
    have hin : addU32 (r.type.length + r.id.length) r.payload.length =
        r.type.length + r.id.length + r.payload.length := addU32_of_lt (by omega)
    rw [hin, addU32_of_lt (by omega), hwl]
    omega
  refine ⟨parsedAt r (pre.length + 6 + r.idLength.length) id, ?_, ?_⟩
  · unfold recordParse
    simp only [payloadLenShortSize, checkSize_of_le (show 2 + 1 ≤ len by omega), hflags, htypeByte,
      hpayload, hid, htype, htnf, hsize, checkSize_of_le hfit, r.ofFlags_location location,
      bind, Except.bind, pure, Except.pure]
    rfl
  · have hcontents := parsedAt_contents r
      (pre ++ (r.flags location :: UInt8.ofNat r.type.length ::
        (be32 r.payload.length ++ r.idLength))) rest hnull
    rw [show (pre ++ (r.flags location :: UInt8.ofNat r.type.length ::
        (be32 r.payload.length ++ r.idLength))).length = pre.length + 6 + r.idLength.length by
      simp only [List.length_append, List.length_cons, length_be32]; omega] at hcontents
    rw [← hcontents, hdata]
    simp only [Record.wire, Record.header, List.append_assoc, List.cons_append]

theorem recordLocationGet_eq {index count : Nat} (hlt : index < count) (hcount : count < 2 ^ 32) :
    recordLocationGet index count =
      if index = 0 then (if count = 1 then .lone else .first)
      else if index + 1 = count then .last else .middle := by
  unfold recordLocationGet
  rw [addU32_of_lt (by omega)]
  by_cases h0 : index = 0
  · rw [if_pos h0, if_pos h0]
  · rw [if_neg h0, if_neg h0]
    by_cases hl : index + 1 = count
    · rw [if_pos (.inr hl.symm), if_pos hl]
    · rw [if_neg (by omega), if_neg hl]

theorem recordLocationGet_final {index count : Nat} (hlt : index < count) (hcount : count < 2 ^ 32) :
    (recordLocationGet index count = .last ∨ recordLocationGet index count = .lone) ↔
      index + 1 = count := by
  rw [recordLocationGet_eq hlt hcount]
  split
  · split <;> simp <;> omega
  · split <;> simp <;> omega

theorem locationAllowed_recordLocationGet (msg : ParsedMsg) {count : Nat}
    (hlt : msg.record.length < count) (hcount : count < 2 ^ 32) :
    locationAllowed msg (recordLocationGet msg.record.length count) = true := by
  rw [recordLocationGet_eq hlt hcount, locationAllowed]
  split
  · split <;> simp
  · split <;> simp

theorem msgParserLoop_wire (memo : Nat → ParsedRecord) {dataLen count : Nat}
    (hdataLen : dataLen < 2 ^ 32) (hcount : count < 2 ^ 32) (rest : Memory) :
    ∀ (rs : List Record) (msg : ParsedMsg) (k left : Nat) (pre : Memory), rs ≠ [] →
      msg.record.length + rs.length = count → count ≤ msg.maxRecordCount →
      wireLengthOf rs ≤ left → pre.length + left = dataLen →
      ∃ ps, msgParserLoop memo (pre ++ (wireFrom count msg.record.length rs ++ rest)) dataLen msg k
          pre.length left =
        .ok ({ msg with record := msg.record ++ ps }, pre.length + wireLengthOf rs) ∧
        ps.map (ParsedRecord.contents (pre ++ (wireFrom count msg.record.length rs ++ rest))) =
          rs.map Record.contents := by
  intro rs
  induction rs with
  | nil => intro msg k left pre hne; exact absurd rfl hne
  | cons r rs ih =>
    intro msg k left pre _ hlen hroom hfit hleft
    rw [List.length_cons] at hlen
    rw [wireLengthOf_cons] at hfit
    set location := recordLocationGet msg.record.length count with hloc
    have hdata : pre ++ (wireFrom count msg.record.length (r :: rs) ++ rest) =
        pre ++ (r.wire location ++ (wireFrom count (msg.record.length + 1) rs ++ rest)) := by
      rw [wireFrom, List.append_assoc]
    obtain ⟨p, hp, hcontents⟩ := recordParse_wire r location (memo k) pre
      (wireFrom count (msg.record.length + 1) rs ++ rest) (show r.wireLength ≤ left by omega) (by omega)
    rw [← hdata] at hp hcontents
    set data := pre ++ (wireFrom count msg.record.length (r :: rs) ++ rest)
    have hallowed := locationAllowed_recordLocationGet msg (by omega) hcount
    rw [← hloc] at hallowed
    have hnext : parseNext memo data msg k pre.length left =
        .ok ({ msg with record := msg.record ++ [p] }, location, r.wireLength) := by
      simp only [parseNext, hp, bind, Except.bind, hallowed, not_true_eq_false, if_false,
        msgRecordAdd, if_neg (show ¬ msg.record.length ≥ msg.maxRecordCount by omega), pure, Except.pure]
    have hpos : 0 < r.wireLength := by unfold Record.wireLength Record.headerLength; omega
    have hsub : subU32 left r.wireLength = left - r.wireLength := subU32_of_le (by omega) (by omega)
    rw [msgParserLoop_next dataLen (by omega) hnext, hsub]
    by_cases hrs : rs = []
    · -- The last record: its flags end the loop.
      subst hrs
      refine ⟨[p], ?_, by rw [List.map_singleton, List.map_singleton, hcontents]⟩
      rw [if_pos ((recordLocationGet_final (by omega) hcount).mpr (by simpa using hlen)),
        subU32_of_le (by omega) hdataLen]
      simp only [wireLengthOf, List.map_cons, List.map_nil, List.sum_cons, List.sum_nil]
      congr 2
      omega
    · have hpos' : 0 < rs.length := List.length_pos_iff.mpr hrs
      have hlen' : (msg.record ++ [p]).length = msg.record.length + 1 := by simp
      obtain ⟨ps, hps, hpsContents⟩ := ih { msg with record := msg.record ++ [p] } (k + 1)
        (left - r.wireLength) (pre ++ r.wire location) hrs (by simp only [hlen']; omega) hroom
        (by omega) (by rw [List.length_append, r.length_wire]; omega)
      have hsame : pre ++ r.wire location ++
          (wireFrom count (msg.record ++ [p]).length rs ++ rest) = data := by
        rw [hlen', hdata, List.append_assoc]
      simp only [hsame] at hps hpsContents
      refine ⟨p :: ps, ?_, by rw [List.map_cons, List.map_cons, hcontents, hpsContents]⟩
      rw [if_neg (fun h => by have := (recordLocationGet_final (by omega) hcount).mp h; omega),
        if_neg (by simp only [hlen']; omega),
        show pre.length + r.wireLength = (pre ++ r.wire location).length by
          rw [List.length_append, r.length_wire], hps]
      simp only [List.append_assoc, List.singleton_append, List.length_append, wireLengthOf_cons,
        r.length_wire, Nat.add_assoc]

def msgDesc (rs : List Record) (h : rs.length < 2 ^ 32) : MsgDesc where
  record := some (rs.map fun r => some r.desc)
  count_lt := by
    rintro _ ⟨⟩
    rwa [List.length_map]

theorem length_le_wireLengthOf (rs : List Record) : rs.length ≤ wireLengthOf rs := by
  induction rs with
  | nil => exact Nat.le_refl 0
  | cons r rs ih =>
    rw [List.length_cons, wireLengthOf_cons, Record.wireLength, Record.headerLength]
    omega

/-- A message is encoded into every buffer that is large enough, and the encoded bytes are parsed
back to the same records, whatever bytes follow them. -/
theorem msgEncode_msgParserInternal (rs : List Record) (hne : rs ≠ [])
    (hlen : wireLengthOf rs < 2 ^ 32) (uninit : Nat) (buffer : Memory) (msgLen : Nat)
    (hfit : wireLengthOf rs ≤ msgLen) (hbuffer : msgLen ≤ buffer.length) (hu32 : msgLen < 2 ^ 32) :
    ∃ encoded, msgEncode uninit
        (some (msgDesc rs (Nat.lt_of_le_of_lt (length_le_wireLengthOf rs) hlen))) (some buffer) msgLen =
        ⟨some (encoded ++ buffer.drop encoded.length), .ok encoded.length⟩ ∧
      encoded.length = wireLengthOf rs ∧
      ∀ (memo : Nat → ParsedRecord) (maxRecordCount : Nat) (trailing : List UInt8) (dataLen : Nat),
        rs.length ≤ maxRecordCount → encoded.length ≤ dataLen → dataLen ≤ (encoded ++ trailing).length →
        dataLen < 2 ^ 32 →
        ∃ ps, msgParserInternal memo ⟨[], maxRecordCount⟩ (encoded ++ trailing) dataLen =
            .ok (⟨ps, maxRecordCount⟩, encoded.length) ∧
          ps.map (ParsedRecord.contents (encoded ++ trailing)) = rs.map Record.contents := by
  have hcount := Nat.lt_of_le_of_lt (length_le_wireLengthOf rs) hlen
  have hwire := length_wireFrom rs.length 0 rs
  refine ⟨wireFrom rs.length 0 rs, ?_, hwire, ?_⟩
  · have := msgEncodeFrom_wire rs.length msgLen uninit hu32 rs 0 [] buffer
      (by simpa using hfit) (by simpa using hbuffer)
    simpa [msgEncode, msgDesc, hwire] using this
  · intro memo maxRecordCount trailing dataLen hroom hcovers _ hdataLen
    have := msgParserLoop_wire memo hdataLen hcount trailing rs ⟨[], maxRecordCount⟩ 0 dataLen []
      hne (by simp) hroom (hwire ▸ hcovers) (by simp)
    simpa [msgParserInternal, hwire] using this

def textRecord : Record where
  tnf := .wellKnown
  type := [0x54]
  id := []
  payload := [0x02, 0x65, 0x6e, 0x68, 0x69]
  tnf_ne := by decide
  type_lt := by decide
  id_lt := by decide

def mediaRecord : Record where
  tnf := .mediaType
  type := [0x61, 0x2f, 0x62]
  id := [0x31]
  payload := []
  tnf_ne := by decide
  type_lt := by decide
  id_lt := by decide

/-- Two records, one with an ID and no payload, in a buffer of 40 bytes. -/
theorem textAndMedia_roundTrip :
    ∃ encoded, msgEncode 0 (some (msgDesc [textRecord, mediaRecord] (by decide)))
        (some (List.replicate 40 0)) 40 =
        ⟨some (encoded ++ (List.replicate 40 0).drop encoded.length), .ok encoded.length⟩ ∧
      encoded.length = wireLengthOf [textRecord, mediaRecord] ∧
      ∀ (memo : Nat → ParsedRecord) (maxRecordCount : Nat) (trailing : List UInt8) (dataLen : Nat),
        2 ≤ maxRecordCount → encoded.length ≤ dataLen → dataLen ≤ (encoded ++ trailing).length →
        dataLen < 2 ^ 32 →
        ∃ ps, msgParserInternal memo ⟨[], maxRecordCount⟩ (encoded ++ trailing) dataLen =
            .ok (⟨ps, maxRecordCount⟩, encoded.length) ∧
          ps.map (ParsedRecord.contents (encoded ++ trailing)) =
            [textRecord, mediaRecord].map Record.contents :=
  msgEncode_msgParserInternal [textRecord, mediaRecord] (by decide) (by decide) 0
    (List.replicate 40 0) 40 (by decide) (by decide) (by decide)

end SdkNrf.Ndef
