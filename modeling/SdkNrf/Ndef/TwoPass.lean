import SdkNrf.Framework.Arena
import SdkNrf.Ndef.Payloads
import SdkNrf.Ndef.RoundTrip

/-!
# Encoding in two passes

A caller first asks a constructor for the length, with no buffer, and then encodes into a buffer of
that length.
-/

namespace SdkNrf.Ndef

/-- The constructor stores `bytes` and reports their number in both passes. -/
structure TwoPass (construct : PayloadConstructor) (bytes : List UInt8) : Prop where
  dryRun : ∀ len, construct none len = ⟨none, .ok bytes.length⟩
  encode : ∀ mem len, bytes.length ≤ len → len ≤ mem.length → len < 2 ^ 32 →
    construct (some mem) len = ⟨some (mem.write 0 bytes), .ok bytes.length⟩
  short : ∀ mem len, len < bytes.length → len ≤ mem.length → len < 2 ^ 32 →
    ∃ mem' err, construct (some mem) len = ⟨some mem', .error err⟩ ∧
      mem'.length = mem.length ∧ mem'.drop len = mem.drop len

/-- The constructor encodes its descriptor into some buffer, in a reported length of `n`. -/
def Accepts (construct : PayloadConstructor) (n : Nat) : Prop :=
  ∃ mem len, len ≤ mem.length ∧ len < 2 ^ 32 ∧ (construct (some mem) len).result = .ok n

namespace TwoPass

variable {construct : PayloadConstructor} {bytes : List UInt8}

theorem of_sized {err : Errno} (hdry : ∀ len, construct none len = ⟨none, .ok bytes.length⟩)
    (hbuffer : ∀ mem len, construct (some mem) len =
      if bytes.length > len then ⟨some mem, .error err⟩
      else ⟨some (mem.write 0 bytes), .ok bytes.length⟩) : TwoPass construct bytes where
  dryRun := hdry
  encode mem len hle _ _ := by rw [hbuffer, if_neg (by omega)]
  short mem len hlt _ _ := ⟨mem, err, by rw [hbuffer, if_pos hlt], rfl, rfl⟩

theorem eq_of_accepts (h : TwoPass construct bytes) {n : Nat} (hn : Accepts construct n) :
    n = bytes.length := by
  obtain ⟨mem, len, hle, hlt, hok⟩ := hn
  rcases Nat.lt_or_ge len bytes.length with hshort | hlong
  · obtain ⟨mem', err, herr, -⟩ := h.short mem len hshort hle hlt
    rw [herr] at hok
    cases hok
  · rw [h.encode mem len hlong hle hlt] at hok
    cases hok
    rfl

end TwoPass

def RecordHead.wire (head : RecordHead) (construct : PayloadConstructor) (location : Location)
    (bytes : List UInt8) : List UInt8 :=
  (head.desc construct).header location (be32 bytes.length) ++ bytes

def RecordHead.size (head : RecordHead) : Nat :=
  let len := 2 + payloadLenLongSize + head.id.val.length + head.type.val.length
  if 0 < head.id.val.length then len + 1 else len

section Record

variable {head : RecordHead} {construct : PayloadConstructor} {location : Location}
  {bytes : List UInt8} {uninit n : Nat}

theorem RecordHead.recordHeaderSizeCalc_desc (head : RecordHead) (construct : PayloadConstructor) :
    recordHeaderSizeCalc (head.desc construct) = head.size := by
  rw [RecordHead.size]
  rfl

theorem RecordHead.six_le_size (head : RecordHead) : 6 ≤ head.size := by
  unfold size payloadLenLongSize
  dsimp only
  split <;> omega

theorem RecordHead.length_wire :
    (head.wire construct location bytes).length = head.size + bytes.length := by
  rw [wire, List.length_append, RecordDesc.length_header _ _ (length_be32 _),
    recordHeaderSizeCalc_desc]

theorem recordEncode_none :
    recordEncode uninit (some (head.desc construct)) location none n =
      ⟨none, (construct none uninit).result.map (addU32 head.size)⟩ := by
  simp only [recordEncode, head.recordHeaderSizeCalc_desc]
  rfl

variable {mem : Memory}

theorem recordEncode_noRoom {len : Nat} (h : len < head.size) :
    recordEncode uninit (some (head.desc construct)) location (some mem) len =
      ⟨some mem, .error .ENOSR⟩ := by
  have hmask : ¬ location.toByte &&& ~~~locationMask ≠ 0 := by cases location <;> decide
  simp only [recordEncode, head.recordHeaderSizeCalc_desc, if_neg hmask]
  rw [if_pos h]

/-- With room for the header, the record is the header with an unset payload length in front of
what the constructor leaves. -/
theorem recordEncode_room (uninit : Nat) (location : Location) {len : Nat} (hsize : head.size ≤ len)
    (hle : len ≤ mem.length) :
    ∃ old, old.length = 4 ∧ ((head.desc construct).header location old).length = head.size ∧
      recordEncode uninit (some (head.desc construct)) location (some mem) len =
        let payload := construct (some (mem.drop head.size)) (len - head.size)
        let out : Memory := (head.desc construct).header location old ++
          payload.buffer.getD (mem.drop head.size)
        match payload.result with
        | .error err => ⟨some out, .error err⟩
        | .ok n => ⟨some (out.write 2 (be32 n)), .ok (addU32 head.size n)⟩ := by
  have hmask : ¬ location.toByte &&& ~~~locationMask ≠ 0 := by cases location <;> decide
  obtain ⟨old, hold, hheader⟩ := writeHeader_eq (head.desc construct) location mem
    (by rw [head.recordHeaderSizeCalc_desc]; omega)
  have hlen := (head.desc construct).length_header location hold
  have hconstruct : (head.desc construct).payloadConstructor = some construct := rfl
  rw [head.recordHeaderSizeCalc_desc] at hheader hlen
  refine ⟨old, hold, hlen, ?_⟩
  cases hresult : (construct (some (mem.drop head.size)) (len - head.size)).result <;>
    simp only [recordEncode, head.recordHeaderSizeCalc_desc, if_neg hmask, hconstruct,
      if_neg (Nat.not_lt.mpr hsize), hheader, List.take_left' hlen, List.drop_left' hlen, hresult]

theorem recordEncode_error (uninit : Nat) (location : Location) {len : Nat}
    (hsize : head.size ≤ len) (hle : len ≤ mem.length) {mem' : Memory} {err : Errno}
    (h : construct (some (mem.drop head.size)) (len - head.size) = ⟨some mem', .error err⟩) :
    ∃ pre, pre.length = head.size ∧
      recordEncode uninit (some (head.desc construct)) location (some mem) len =
        ⟨some (pre ++ mem'), .error err⟩ := by
  obtain ⟨old, -, hlen, heq⟩ := recordEncode_room uninit location hsize hle
  refine ⟨_, hlen, ?_⟩
  rw [heq, h]
  rfl

theorem recordEncode_ok {len : Nat} (hsize : head.size ≤ len) (hle : len ≤ mem.length)
    {mem' : Memory} {n : Nat}
    (h : construct (some (mem.drop head.size)) (len - head.size) = ⟨some mem', .ok n⟩) :
    recordEncode uninit (some (head.desc construct)) location (some mem) len =
      ⟨some ((head.desc construct).header location (be32 n) ++ mem'), .ok (addU32 head.size n)⟩ := by
  obtain ⟨old, hold, -, heq⟩ := recordEncode_room uninit location hsize hle
  rw [heq, h]
  -- the payload length goes over the four bytes behind the flags and the type length
  simp only [RecordDesc.header, List.cons_append, Option.getD_some]
  rw [show ∀ (a b : UInt8) (l : List UInt8), a :: b :: (old ++ l ++ mem') =
      [a, b] ++ (old ++ (l ++ mem')) by simp, Memory.write_field (by rfl) (by rw [hold, length_be32])]
  simp

theorem TwoPass.record (h : TwoPass construct bytes) (head : RecordHead)
    (hlt : head.size + bytes.length < 2 ^ 32) (uninit : Nat) (location : Location) :
    TwoPass (recordEncode uninit (some (head.desc construct)) location)
      (head.wire construct location bytes) where
  dryRun len := by
    rw [recordEncode_none, h.dryRun, RecordHead.length_wire]
    simp only [Except.map, addU32_of_lt hlt]
  encode mem len hwire hle hlen := by
    rw [RecordHead.length_wire] at hwire ⊢
    have hpayload := h.encode (mem.drop head.size) (len - head.size) (by omega)
      (by rw [List.length_drop]; omega) (by omega)
    rw [recordEncode_ok (by omega) hle hpayload, addU32_of_lt hlt]
    simp only [RecordHead.wire, Memory.write, List.take_zero, List.nil_append, Nat.zero_add,
      List.drop_drop, List.length_append, RecordDesc.length_header _ _ (length_be32 _),
      head.recordHeaderSizeCalc_desc, List.append_assoc]
  short mem len hshort hle hlen := by
    rw [RecordHead.length_wire] at hshort
    rcases Nat.lt_or_ge len head.size with hsize | hsize
    · exact ⟨mem, .ENOSR, recordEncode_noRoom hsize, rfl, rfl⟩
    · obtain ⟨mem', err, herr, hlen', hdrop⟩ := h.short (mem.drop head.size) (len - head.size)
        (by omega) (by rw [List.length_drop]; omega) (by omega)
      obtain ⟨pre, hpre, hrecord⟩ := recordEncode_error uninit location hsize hle herr
      refine ⟨pre ++ mem', err, hrecord, ?_, ?_⟩
      · rw [List.length_append, hpre, hlen', List.length_drop]
        omega
      · rw [List.drop_drop, Nat.add_sub_cancel' hsize] at hdrop
        rw [← Nat.add_sub_cancel' hsize, ← hpre, ← List.drop_drop, List.drop_left, hpre, hdrop,
          Nat.add_sub_cancel' hsize]

end Record

structure MsgItem where
  head : RecordHead
  construct : PayloadConstructor

def MsgItem.desc (item : MsgItem) : Option RecordDesc := some (item.head.desc item.construct)

/-- The bytes of the records from position `index` on, with the payloads `bytes`. -/
def itemsWire (count : Nat) : Nat → List (MsgItem × List UInt8) → List UInt8
  | _, [] => []
  | index, (item, bytes) :: items =>
    item.head.wire item.construct (recordLocationGet index count) bytes ++
      itemsWire count (index + 1) items

section Message

variable {uninit count msgLen : Nat}

theorem msgEncodeFrom_cons_none {item : MsgItem} {items : List MsgItem} {index sum n : Nat}
    (h : (recordEncode uninit item.desc (recordLocationGet index count) none
      (subU32 msgLen sum)).result = .ok n) :
    msgEncodeFrom uninit count msgLen ((item :: items).map MsgItem.desc) index sum none =
      msgEncodeFrom uninit count msgLen (items.map MsgItem.desc) (index + 1) (addU32 sum n) none := by
  simp only [List.map_cons, msgEncodeFrom, Option.map_none, h]

theorem msgEncodeFrom_cons_error {item : MsgItem} {items : List MsgItem} {index : Nat}
    {pre rest mem' : Memory} {err : Errno}
    (h : recordEncode uninit item.desc (recordLocationGet index count) (some rest)
      (subU32 msgLen pre.length) = ⟨some mem', .error err⟩) :
    msgEncodeFrom uninit count msgLen ((item :: items).map MsgItem.desc) index pre.length
      (some (pre ++ rest)) = ⟨some (pre ++ mem'), .error err⟩ := by
  simp only [List.map_cons, msgEncodeFrom, Option.map_some, List.drop_left, List.take_left, h,
    Option.getD_some]

theorem msgEncodeFrom_cons_ok {item : MsgItem} {items : List MsgItem} {index n : Nat}
    {pre rest mem' : Memory}
    (h : recordEncode uninit item.desc (recordLocationGet index count) (some rest)
      (subU32 msgLen pre.length) = ⟨some mem', .ok n⟩) :
    msgEncodeFrom uninit count msgLen ((item :: items).map MsgItem.desc) index pre.length
      (some (pre ++ rest)) =
      msgEncodeFrom uninit count msgLen (items.map MsgItem.desc) (index + 1) (addU32 pre.length n)
        (some (pre ++ mem')) := by
  simp only [List.map_cons, msgEncodeFrom, Option.map_some, List.drop_left, List.take_left, h,
    Option.getD_some]

def AllTwoPass (items : List (MsgItem × List UInt8)) : Prop :=
  ∀ item ∈ items, TwoPass item.1.construct item.2

variable {items : List (MsgItem × List UInt8)}

theorem msgEncodeFrom_dryRun (hitems : AllTwoPass items) {index sum : Nat}
    (hlt : sum + (itemsWire count index items).length < 2 ^ 32) :
    msgEncodeFrom uninit count msgLen ((items.map Prod.fst).map MsgItem.desc) index sum none =
      ⟨none, .ok (sum + (itemsWire count index items).length)⟩ := by
  induction items generalizing index sum with
  | nil => rfl
  | cons item items ih =>
    obtain ⟨hitem, hitems⟩ := List.forall_mem_cons.mp hitems
    rw [itemsWire, List.length_append, RecordHead.length_wire] at hlt ⊢
    have hrecord := (hitem.record item.1.head (by omega) uninit (recordLocationGet index count)).dryRun
      (subU32 msgLen sum)
    rw [RecordHead.length_wire] at hrecord
    rw [List.map_cons, msgEncodeFrom_cons_none (by rw [MsgItem.desc, hrecord]),
      addU32_of_lt (by omega), ih hitems (by omega)]
    congr 2
    omega

theorem msgEncodeFrom_encode (uninit : Nat) (hu32 : msgLen < 2 ^ 32) (hitems : AllTwoPass items)
    {index : Nat} {pre rest : Memory}
    (hfit : pre.length + (itemsWire count index items).length ≤ msgLen)
    (hmem : msgLen ≤ pre.length + rest.length) :
    msgEncodeFrom uninit count msgLen ((items.map Prod.fst).map MsgItem.desc) index pre.length
        (some (pre ++ rest)) =
      ⟨some (pre ++ rest.write 0 (itemsWire count index items)),
        .ok (pre.length + (itemsWire count index items).length)⟩ := by
  induction items generalizing index pre rest with
  | nil => rfl
  | cons item items ih =>
    obtain ⟨hitem, hitems⟩ := List.forall_mem_cons.mp hitems
    have hsub : subU32 msgLen pre.length = msgLen - pre.length := subU32_of_le (by omega) hu32
    rw [itemsWire, List.length_append, RecordHead.length_wire] at hfit
    have hrecord := (hitem.record item.1.head (by omega) uninit
      (recordLocationGet index count)).encode rest (subU32 msgLen pre.length)
      (by rw [RecordHead.length_wire]; omega) (by omega) (by omega)
    set wire := item.1.head.wire item.1.construct (recordLocationGet index count) item.2 with hwire
    have hlen : wire.length = item.1.head.size + item.2.length := RecordHead.length_wire
    rw [itemsWire, ← hwire, List.length_append]
    rw [List.map_cons, msgEncodeFrom_cons_ok (by rw [MsgItem.desc, hrecord]),
      addU32_of_lt (by omega), ← List.length_append, Memory.write, List.take_zero, List.nil_append,
      Nat.zero_add, ← List.append_assoc, ih hitems (by rw [List.length_append]; omega)
        (by rw [List.length_append, List.length_drop]; omega)]
    simp only [Memory.write, List.take_zero, List.nil_append, Nat.zero_add, List.length_append,
      List.drop_drop, List.append_assoc, Nat.add_assoc]

private theorem drop_overwrite {pre wire rest : Memory} {k : Nat}
    (h : pre.length + wire.length ≤ k) :
    (pre ++ wire ++ rest.drop wire.length).drop k = (pre ++ rest).drop k := by
  obtain ⟨j, rfl⟩ := Nat.exists_eq_add_of_le h
  rw [← List.length_append, List.drop_length_add_append, List.drop_drop, List.length_append,
    Nat.add_assoc, List.drop_length_add_append]

theorem msgEncodeFrom_short (uninit : Nat) (hu32 : msgLen < 2 ^ 32) (hitems : AllTwoPass items)
    {index : Nat} {pre rest : Memory} (hpre : pre.length ≤ msgLen)
    (hshort : msgLen < pre.length + (itemsWire count index items).length)
    (hlt : pre.length + (itemsWire count index items).length < 2 ^ 32)
    (hmem : msgLen ≤ pre.length + rest.length) :
    ∃ mem' err, msgEncodeFrom uninit count msgLen ((items.map Prod.fst).map MsgItem.desc) index
        pre.length (some (pre ++ rest)) = ⟨some mem', .error err⟩ ∧
      mem'.length = (pre ++ rest).length ∧ mem'.drop msgLen = (pre ++ rest).drop msgLen := by
  induction items generalizing index pre rest with
  | nil =>
    rw [itemsWire, List.length_nil] at hshort
    omega
  | cons item items ih =>
    obtain ⟨hitem, hitems⟩ := List.forall_mem_cons.mp hitems
    have hsub : subU32 msgLen pre.length = msgLen - pre.length := subU32_of_le (by omega) hu32
    rw [itemsWire, List.length_append, RecordHead.length_wire] at hshort hlt
    have hrecord := hitem.record item.1.head (by omega) uninit (recordLocationGet index count)
    set wire := item.1.head.wire item.1.construct (recordLocationGet index count) item.2 with hwire
    have hlen : wire.length = item.1.head.size + item.2.length := RecordHead.length_wire
    rw [List.map_cons]
    -- the record that does not fit is the first one, or a later one
    rcases Nat.lt_or_ge (msgLen - pre.length) wire.length with hfirst | hfirst
    · obtain ⟨mem', err, herr, hlen', hdrop⟩ := hrecord.short rest (subU32 msgLen pre.length)
        (by omega) (by omega) (by omega)
      refine ⟨pre ++ mem', err, msgEncodeFrom_cons_error (by rw [MsgItem.desc, herr]), ?_, ?_⟩
      · rw [List.length_append, List.length_append, hlen']
      · rw [List.drop_append, List.drop_append, ← hsub, hdrop]
    · have hok := hrecord.encode rest (subU32 msgLen pre.length) (by omega) (by omega) (by omega)
      rw [msgEncodeFrom_cons_ok (by rw [MsgItem.desc, hok]), addU32_of_lt (by omega),
        ← List.length_append, Memory.write, List.take_zero, List.nil_append, Nat.zero_add,
        ← List.append_assoc]
      have hpre' : (pre ++ wire).length = pre.length + wire.length := List.length_append
      have hmem' : msgLen ≤ (pre ++ wire).length + (rest.drop wire.length).length := by
        rw [hpre', List.length_drop]
        omega
      obtain ⟨mem', err, herr, hlen', hdrop⟩ := ih hitems (by omega : (pre ++ wire).length ≤ msgLen)
        (by omega : msgLen < _ + (itemsWire count (index + 1) items).length) (by omega) hmem'
      refine ⟨mem', err, herr, ?_, ?_⟩
      · rw [hlen']
        simp only [List.length_append, List.length_drop]
        omega
      · rw [hdrop, drop_overwrite (by omega)]

theorem msgEncode_twoPass {msg : MsgDesc}
    (hmsg : msg.record = some ((items.map Prod.fst).map MsgItem.desc)) (hitems : AllTwoPass items)
    (hlt : (itemsWire items.length 0 items).length < 2 ^ 32) :
    TwoPass (msgEncode uninit (some msg)) (itemsWire items.length 0 items) where
  dryRun len := by
    simp only [msgEncode, Option.bind_some, hmsg, List.length_map]
    rw [msgEncodeFrom_dryRun hitems (by rw [Nat.zero_add]; exact hlt), Nat.zero_add]
  encode mem len hle hmem hlen := by
    simp only [msgEncode, Option.bind_some, hmsg, List.length_map]
    have hfit : ([] : Memory).length + (itemsWire items.length 0 items).length ≤ len := by
      rw [List.length_nil, Nat.zero_add]
      exact hle
    have hroom : len ≤ ([] : Memory).length + mem.length := by
      rw [List.length_nil, Nat.zero_add]
      exact hmem
    have hencode := msgEncodeFrom_encode uninit hlen hitems hfit hroom
    rwa [List.length_nil, List.nil_append, List.nil_append, Nat.zero_add] at hencode
  short mem len hle hmem hlen := by
    simp only [msgEncode, Option.bind_some, hmsg, List.length_map]
    have hshort : len < ([] : Memory).length + (itemsWire items.length 0 items).length := by
      rw [List.length_nil, Nat.zero_add]
      exact hle
    have hroom : len ≤ ([] : Memory).length + mem.length := by
      rw [List.length_nil, Nat.zero_add]
      exact hmem
    exact msgEncodeFrom_short uninit hlen hitems (Nat.zero_le _) hshort
      (by rw [List.length_nil, Nat.zero_add]; exact hlt) hroom

end Message

section Handover

variable {uninit : Nat} {chRec : ChRec}

theorem chRecPayloadEncode_some {mem : Memory} {len : Nat} (hlen : 1 ≤ len) :
    chRecPayloadEncode uninit chRec (some mem) len =
      ⟨some (chRec.version ::
          (msgEncode uninit chRec.localRecords (some (mem.drop 1)) (len - 1)).buffer.getD (mem.drop 1)),
        (msgEncode uninit chRec.localRecords (some (mem.drop 1)) (len - 1)).result.map (addU32 · 1)⟩ := by
  have hwrite : mem.write 0 [chRec.version] = chRec.version :: mem.drop 1 := rfl
  simp only [chRecPayloadEncode, if_neg (Nat.not_lt.mpr hlen), hwrite, List.take_succ_cons,
    List.take_zero, List.drop_succ_cons, List.drop_zero, List.cons_append, List.nil_append]

theorem TwoPass.ch {bytes : List UInt8} (h : TwoPass (msgEncode uninit chRec.localRecords) bytes)
    (hlt : bytes.length + 1 < 2 ^ 32) :
    TwoPass (chRecPayloadEncode uninit chRec) (chRec.version :: bytes) where
  dryRun len := by
    simp only [chRecPayloadEncode, h.dryRun, Except.map, addU32_of_lt hlt, List.length_cons]
  encode mem len hle hmem hlen := by
    rw [List.length_cons] at hle
    rw [chRecPayloadEncode_some (by omega), h.encode (mem.drop 1) (len - 1) (by omega)
      (by rw [List.length_drop]; omega) (by omega)]
    simp only [Option.getD_some, Except.map, addU32_of_lt hlt, List.length_cons, Memory.write,
      List.take_zero, List.nil_append, Nat.zero_add, List.drop_drop, List.cons_append]
    rw [Nat.add_comm]
  short mem len hshort hmem hlen := by
    rw [List.length_cons] at hshort
    rcases Nat.eq_zero_or_pos len with rfl | hpos
    · exact ⟨mem, .ENOMEM, rfl, rfl, rfl⟩
    · obtain ⟨mem', err, herr, hlen', hdrop⟩ := h.short (mem.drop 1) (len - 1) (by omega)
        (by rw [List.length_drop]; omega) (by omega)
      refine ⟨chRec.version :: mem', err, ?_, ?_, ?_⟩
      · rw [chRecPayloadEncode_some hpos, herr]
        rfl
      · rw [List.length_cons, hlen', List.length_drop]
        omega
      · rw [List.drop_drop, Nat.add_sub_cancel' hpos] at hdrop
        rw [← Nat.sub_add_cancel hpos, List.drop_succ_cons, hdrop, Nat.sub_add_cancel hpos]

end Handover

end SdkNrf.Ndef
