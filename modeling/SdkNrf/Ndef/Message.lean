import SdkNrf.Ndef.Record

/-!
# NDEF messages

The message encoder of `subsys/nfc/ndef/msg.c` and the message parser of
`subsys/nfc/ndef/msg_parser_local.c`.
-/

namespace SdkNrf.Ndef

def recordLocationGet (index recordCount : Nat) : Location :=
  if index = 0 then
    if recordCount = 1 then .lone else .first
  else if index = 2 ^ 32 - 1 ∨ recordCount = addU32 index 1 then .last
  else .middle

/-- `struct nfc_ndef_msg_desc` as the encoder reads it: the array of record pointers, `none` for
`NULL`, up to `record_count`. -/
structure MsgDesc where
  record : Option (List (Option RecordDesc))
  count_lt : ∀ rs, record = some rs → rs.length < 2 ^ 32

/-- The loop of `nfc_ndef_msg_encode`: `index` records have been encoded, in `sumOfLen` bytes. -/
def msgEncodeFrom (uninit recordCount msgLen : Nat) :
    List (Option RecordDesc) → Nat → Nat → Option Memory → Encoded
  | [], _, sumOfLen, buffer => ⟨buffer, .ok sumOfLen⟩
  | desc? :: descs, index, sumOfLen, buffer =>
    let record := recordEncode uninit desc? (recordLocationGet index recordCount)
      (buffer.map (·.drop sumOfLen)) (subU32 msgLen sumOfLen)
    let buffer := buffer.map fun mem =>
      mem.take sumOfLen ++ record.buffer.getD (mem.drop sumOfLen)
    match record.result with
    | .error e => ⟨buffer, .error e⟩
    | .ok len => msgEncodeFrom uninit recordCount msgLen descs (index + 1)
        (addU32 sumOfLen len) buffer

def msgEncode (uninit : Nat) (msgDesc? : Option MsgDesc) (buffer : Option Memory)
    (msgLen : Nat) : Encoded :=
  match msgDesc?.bind MsgDesc.record with
  | none => ⟨buffer, .error .EINVAL⟩
  | some descs => msgEncodeFrom uninit descs.length msgLen descs 0 0 buffer

/-- `struct nfc_ndef_msg_desc` as the parser fills it. -/
structure ParsedMsg where
  record : List ParsedRecord
  maxRecordCount : Nat

def msgRecordAdd (msg : ParsedMsg) (r : ParsedRecord) : Except Stop ParsedMsg :=
  if msg.record.length ≥ msg.maxRecordCount then .error (.errno .ENOSR)
  else .ok { msg with record := msg.record ++ [r] }

def locationAllowed (msg : ParsedMsg) (location : Location) : Bool :=
  if msg.record.length = 0 then location = .first ∨ location = .lone
  else location = .middle ∨ location = .last

/-- One round of the loop: the record at `off`, checked and added to the message. -/
def parseNext (memo : Nat → ParsedRecord) (data : Memory) (msg : ParsedMsg) (k off left : Nat) :
    Except Stop (ParsedMsg × Location × Nat) := do
  let (r, location, len) ← recordParse (memo k) data off left
  if ¬ locationAllowed msg location then throw (.errno .EFAULT)
  let msg ← msgRecordAdd msg r
  return (msg, location, len)

theorem msgRecordAdd_eq_ok {msg msg' : ParsedMsg} {r : ParsedRecord}
    (h : msgRecordAdd msg r = .ok msg') :
    msg.record.length < msg.maxRecordCount ∧ msg' = { msg with record := msg.record ++ [r] } := by
  unfold msgRecordAdd at h
  split at h
  · cases h
  · cases h
    exact ⟨by omega, rfl⟩

theorem parseNext_eq_ok {memo : Nat → ParsedRecord} {data : Memory} {msg msg' : ParsedMsg}
    {k off left len : Nat} {location : Location}
    (h : parseNext memo data msg k off left = .ok (msg', location, len)) :
    ∃ r, recordParse (memo k) data off left = .ok (r, location, len) ∧
      locationAllowed msg location ∧ msg.record.length < msg.maxRecordCount ∧
      msg' = { msg with record := msg.record ++ [r] } := by
  unfold parseNext at h
  cases hr : recordParse (memo k) data off left with
  | error e => simp [hr, bind, Except.bind] at h
  | ok p =>
    obtain ⟨r, loc, n⟩ := p
    simp only [hr, bind, Except.bind] at h
    split at h
    · cases h
    · next hloc =>
      cases hadd : msgRecordAdd msg r with
      | error e => simp [hadd] at h
      | ok m =>
        simp only [hadd, pure, Except.pure, Except.ok.injEq, Prod.mk.injEq] at h
        obtain ⟨rfl, rfl, rfl⟩ := h
        obtain ⟨hlt, rfl⟩ := msgRecordAdd_eq_ok hadd
        exact ⟨r, rfl, by simpa using hloc, hlt, rfl⟩

/-- The loop of `nfc_ndef_msg_parser_internal`. `memo` is what the record descriptors hold before,
`k` the one to be filled next, `left` is `nfc_data_left`. Returns the message and the number of
bytes consumed. -/
def msgParserLoop (memo : Nat → ParsedRecord) (data : Memory) (dataLen : Nat) (msg : ParsedMsg)
    (k off left : Nat) : Except Stop (ParsedMsg × Nat) :=
  if left = 0 then .error (.errno .EFAULT)
  else
    match _h : parseNext memo data msg k off left with
    | .error e => .error e
    | .ok (msg', location, len) =>
      let left := subU32 left len
      if location = .last ∨ location = .lone then .ok (msg', subU32 dataLen left)
      else if msg'.record.length = msg'.maxRecordCount then .error (.errno .ENOMEM)
      else msgParserLoop memo data dataLen msg' (k + 1) (off + len) left
termination_by msg.maxRecordCount - msg.record.length
decreasing_by
  obtain ⟨r, -, -, hlt, rfl⟩ := parseNext_eq_ok ‹_›
  simp only [List.length_append, List.length_singleton]
  omega

theorem msgParserLoop_next {memo : Nat → ParsedRecord} {data : Memory} {msg msg' : ParsedMsg}
    {k off left len : Nat} {location : Location} (dataLen : Nat) (hleft : left ≠ 0)
    (h : parseNext memo data msg k off left = .ok (msg', location, len)) :
    msgParserLoop memo data dataLen msg k off left =
      if location = .last ∨ location = .lone then .ok (msg', subU32 dataLen (subU32 left len))
      else if msg'.record.length = msg'.maxRecordCount then .error (.errno .ENOMEM)
      else msgParserLoop memo data dataLen msg' (k + 1) (off + len) (subU32 left len) := by
  rw [msgParserLoop, if_neg hleft]
  split
  · next e he =>
    rw [h] at he
    cases he
  · next m l n he =>
    rw [h] at he
    cases he
    rfl

/-- `nfc_ndef_msg_parser_internal`, on `dataLen` bytes at the start of `data`. -/
def msgParserInternal (memo : Nat → ParsedRecord) (msg : ParsedMsg) (data : Memory)
    (dataLen : Nat) : Except Stop (ParsedMsg × Nat) :=
  msgParserLoop memo data dataLen msg 0 0 dataLen

end SdkNrf.Ndef
