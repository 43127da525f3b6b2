import SdkNrf.Framework.Bytes

/-!
# NDEF records

The record encoder of `subsys/nfc/ndef/record.c` and the record parser of `subsys/nfc/ndef/record_parser.c`.
-/

namespace SdkNrf.Ndef

inductive Errno
  | EINVAL
  | ENOSR
  | EFAULT
  | ENOMEM
  deriving DecidableEq, Repr

/-- `enum nfc_ndef_record_tnf`. -/
inductive Tnf
  | empty
  | wellKnown
  | mediaType
  | absoluteUri
  | externalType
  | unknownType
  | unchanged
  | reserved
  deriving DecidableEq, Repr

def Tnf.toByte : Tnf → UInt8
  | empty => 0
  | wellKnown => 1
  | mediaType => 2
  | absoluteUri => 3
  | externalType => 4
  | unknownType => 5
  | unchanged => 6
  | reserved => 7

/-- `enum nfc_ndef_record_location`. -/
inductive Location
  | first
  | middle
  | last
  | lone
  deriving DecidableEq, Repr

def Location.toByte : Location → UInt8
  | first => 0x80
  | middle => 0x00
  | last => 0x40
  | lone => 0xC0

def locationMask : UInt8 := 0xC0

def srMask : UInt8 := 0x10

def ilMask : UInt8 := 0x08

def tnfMask : UInt8 := 0x07

/-- `NDEF_RECORD_PAYLOAD_LEN_LONG_SIZE`. -/
def payloadLenLongSize : Nat := 4

/-- `NDEF_RECORD_PAYLOAD_LEN_SHORT_SIZE`. -/
def payloadLenShortSize : Nat := 1

/-- `NDEF_RECORD_ID_LEN_SIZE`. -/
def idLenSize : Nat := 1

structure Encoded where
  buffer : Option Memory
  result : Except Errno Nat

/-- A payload constructor together with its payload descriptor, as a function of the buffer and
of the length that is passed in. -/
abbrev PayloadConstructor := Option Memory → Nat → Encoded

/-- `struct nfc_ndef_record_desc`. The lengths of `id` and `type` are `uint8_t`. -/
structure RecordDesc where
  tnf : Tnf
  id : List UInt8
  type : List UInt8
  payloadConstructor : Option PayloadConstructor
  id_lt : id.length < 2 ^ 8
  type_lt : type.length < 2 ^ 8

def recordHeaderSizeCalc (desc : RecordDesc) : Nat :=
  let len := 2 + payloadLenLongSize + desc.id.length + desc.type.length
  if 0 < desc.id.length then len + 1 else len

/-- The fields in front of the payload, in the order in which they are stored. The payload
length is skipped: it is known only after the payload has been constructed. -/
def writeHeader (desc : RecordDesc) (location : Location) (mem : Memory) : Memory :=
  let flags := location.toByte
  let mem := mem.write 0 [flags]
  let flags := flags ||| desc.tnf.toByte
  let mem := mem.write 0 [flags]
  let mem := mem.write 1 [UInt8.ofNat desc.type.length]
  let off := 2 + payloadLenLongSize
  if 0 < desc.id.length then
    let mem := mem.write off [UInt8.ofNat desc.id.length]
    let mem := mem.write 0 [flags ||| ilMask]
    let mem := mem.write (off + 1) desc.type
    mem.write (off + 1 + desc.type.length) desc.id
  else
    mem.write off desc.type

/-- `nfc_ndef_record_encode`. In a dry run the constructor is handed `record_payload_len` without
a value: `uninit` is what is found there. -/
def recordEncode (uninit : Nat) (desc? : Option RecordDesc) (location : Location)
    (buffer : Option Memory) (recordLen : Nat) : Encoded :=
  match desc? with
  | none => ⟨buffer, .error .EINVAL⟩
  | some desc =>
    let headerLen := recordHeaderSizeCalc desc
    match buffer with
    | none =>
      match desc.payloadConstructor with
      | none => ⟨none, .error .EINVAL⟩
      | some construct =>
        ⟨none, (construct none uninit).result.map (addU32 headerLen)⟩
    | some mem =>
      if location.toByte &&& ~~~locationMask ≠ 0 then ⟨buffer, .error .EINVAL⟩
      else if headerLen > recordLen then ⟨buffer, .error .ENOSR⟩
      else
        let mem := writeHeader desc location mem
        match desc.payloadConstructor with
        | none => ⟨some mem, .error .EINVAL⟩
        | some construct =>
          let payload := construct (some (mem.drop headerLen)) (recordLen - headerLen)
          let mem : Memory := mem.take headerLen ++ payload.buffer.getD (mem.drop headerLen)
          match payload.result with
          | .error e => ⟨some mem, .error e⟩
          | .ok payloadLen => ⟨some (mem.write 2 (be32 payloadLen)), .ok (addU32 headerLen payloadLen)⟩

def binPayloadMemcopy (payload : List UInt8) : PayloadConstructor := fun buffer len =>
  match buffer with
  | none => ⟨none, .ok payload.length⟩
  | some mem =>
    if len < payload.length then ⟨buffer, .error .ENOSR⟩
    else ⟨some (mem.write 0 payload), .ok payload.length⟩

inductive Stop
  | errno (e : Errno)
  | outOfBounds (off : Nat)
  deriving DecidableEq, Repr

/-- A parsed record: `rec_desc` and its `bin_pay_desc`. Pointers are offsets into the input and
`none` is `NULL`. -/
structure ParsedRecord where
  tnf : Tnf
  typeLength : Nat
  type : Option Nat
  idLength : Nat
  id : Option Nat
  payloadLength : Nat
  payload : Option Nat
  deriving DecidableEq, Repr

def readByte (data : Memory) (off : Nat) : Except Stop UInt8 :=
  match data[off]? with
  | some b => .ok b
  | none => .error (.outOfBounds off)

def Tnf.ofFlags (flags : UInt8) : Tnf :=
  let v := flags &&& tnfMask
  if v = 0 then empty
  else if v = 1 then wellKnown
  else if v = 2 then mediaType
  else if v = 3 then absoluteUri
  else if v = 4 then externalType
  else if v = 5 then unknownType
  else if v = 6 then unchanged
  else reserved

def Location.ofFlags (flags : UInt8) : Location :=
  let v := flags &&& locationMask
  if v = 0x80 then first
  else if v = 0x00 then middle
  else if v = 0x40 then last
  else lone

/-- `if (expected_rec_size > *nfc_data_len) return -EINVAL`. -/
def checkSize (expected len : Nat) : Except Stop Unit :=
  if expected > len then .error (.errno .EINVAL) else .ok ()

/-- The payload length of a short or a long record: the length, the expected size so far and the
offset behind the field. -/
def readPayloadLength (flags : UInt8) (data : Memory) (off expected len : Nat) :
    Except Stop (Nat × Nat × Nat) :=
  if flags &&& srMask ≠ 0 then do
    let b ← readByte data off
    return (b.toNat, expected, off + 1)
  else do
    let expected := addU32 expected (payloadLenLongSize - payloadLenShortSize)
    checkSize expected len
    let b3 ← readByte data off
    let b2 ← readByte data (off + 1)
    let b1 ← readByte data (off + 2)
    let b0 ← readByte data (off + 3)
    return (be32Value b3 b2 b1 b0, expected, off + payloadLenLongSize)

/-- The ID length, the ID pointer, the expected size so far and the offset behind the field. With
the IL flag the pointer keeps the value `prev` that it had. -/
def readIdLength (flags : UInt8) (prev : Option Nat) (data : Memory) (off expected len : Nat) :
    Except Stop (Nat × Option Nat × Nat × Nat) :=
  if flags &&& ilMask ≠ 0 then do
    let expected := addU32 expected idLenSize
    checkSize expected len
    let b ← readByte data off
    return (b.toNat, prev, expected, off + 1)
  else return (0, none, expected, off)

/-- `nfc_ndef_record_parse` on the input from offset `off` on; `prev` is what the descriptor held.
The last component is the value stored in `nfc_data_len`. -/
def recordParse (prev : ParsedRecord) (data : Memory) (off len : Nat) :
    Except Stop (ParsedRecord × Location × Nat) := do
  let expected := 2 + payloadLenShortSize
  checkSize expected len
  let flags ← readByte data off
  let tnf := if Tnf.ofFlags flags = .reserved then .unknownType else Tnf.ofFlags flags
  let location := Location.ofFlags flags
  let typeLength := (← readByte data (off + 1)).toNat
  let (payloadLength, expected, off) ← readPayloadLength flags data (off + 2) expected len
  let (idLength, id, expected, off) ← readIdLength flags prev.id data off expected len
  let expected := addU32 expected (addU32 (typeLength + idLength) payloadLength)
  checkSize expected len
  let type := if 0 < typeLength then some off else none
  let off := off + typeLength
  let id := if 0 < idLength then some off else id
  let off := off + idLength
  let payload := if payloadLength = 0 then none else some off
  return ({ tnf, typeLength, type, idLength, id, payloadLength, payload }, location, expected)

end SdkNrf.Ndef
