import SdkNrf.Ndef.Handover

/-!
# Payload constructors

The constructors of `subsys/nfc/ndef/text_rec.c` and `subsys/nfc/ndef/tnep_rec.c`, and the payload descriptors
that a message can be made of.
-/

namespace SdkNrf.Ndef

/-- `enum nfc_ndef_text_rec_utf`. -/
inductive Utf
  | utf8
  | utf16
  deriving DecidableEq

def Utf.toByte : Utf → UInt8
  | utf8 => 0
  | utf16 => 1

/-- `struct nfc_ndef_text_rec_payload`; `none` is `NULL`, and the lengths are a `uint8_t` and a
`uint32_t`. -/
structure TextPayload where
  utf : Utf
  langCode : Option ShortBytes
  data : Option { data : List UInt8 // data.length < 2 ^ 32 }

/-- The bytes that `nfc_ndef_text_rec_payload_encode` stores. -/
def textBytes (utf : Utf) (langCode : ShortBytes) (data : List UInt8) : List UInt8 :=
  (langCode.lengthByte + (utf.toByte <<< 7)) :: (langCode.val ++ data)

def textRecPayloadSizeGet (langCode : ShortBytes) (data : List UInt8) : Nat :=
  addU32 (1 + langCode.val.length) data.length

def textRecPayloadEncode (desc : TextPayload) : PayloadConstructor := fun buffer len =>
  match desc.langCode, desc.data with
  | some langCode, some data =>
    if langCode.val.length = 0 ∨ langCode.lengthByte &&& 0x40 ≠ 0 ∨
        langCode.lengthByte &&& 0x80 ≠ 0 ∨ data.val.length = 0 then ⟨buffer, .error .EINVAL⟩
    else
      let payloadSize := textRecPayloadSizeGet langCode data.val
      match buffer with
      | none => ⟨none, .ok payloadSize⟩
      | some mem =>
        if payloadSize > len then ⟨buffer, .error .ENOSR⟩
        else ⟨some (mem.write 0 (textBytes desc.utf langCode data.val)), .ok payloadSize⟩
  | _, _ => ⟨buffer, .error .EINVAL⟩

def tnepRecStatusPayload (status : UInt8) : PayloadConstructor := fun buffer len =>
  match buffer with
  | none => ⟨none, .ok 1⟩
  | some mem =>
    if 1 > len then ⟨buffer, .error .ENOSR⟩
    else ⟨some (mem.write 0 [status]), .ok 1⟩

def tnepCalcSizeServiceSelect (uri : ShortBytes) : Nat :=
  if uri.val.length ≠ 0 then uri.val.length + 1 else 0

/-- `nfc_ndef_tnep_rec_svc_select_payload`: the URI length is stored also when the size is 0. -/
def tnepRecSvcSelectPayload (uri : ShortBytes) : PayloadConstructor := fun buffer len =>
  let payloadSize := tnepCalcSizeServiceSelect uri
  match buffer with
  | none => ⟨none, .ok payloadSize⟩
  | some mem =>
    if payloadSize > len then ⟨buffer, .error .ENOSR⟩
    else ⟨some (mem.write 0 uri.field), .ok payloadSize⟩

/-- `struct nfc_ndef_tnep_rec_svc_param`. -/
structure SvcParam where
  version : UInt8
  uri : Option ShortBytes
  communicationMode : UInt8
  minTime : UInt8
  maxTimeExt : UInt8
  maxSize : UInt16

def tnepCalcSizeServiceParam (uri : ShortBytes) : Nat :=
  if uri.val.length ≠ 0 then uri.val.length + 7 else 0

/-- The bytes that `nfc_ndef_tnep_rec_svc_param_payload` stores. -/
def SvcParam.bytes (param : SvcParam) (uri : ShortBytes) : List UInt8 :=
  param.version :: (uri.field ++
    (param.communicationMode :: param.minTime :: param.maxTimeExt :: be16 param.maxSize.toNat))

def tnepRecSvcParamPayload (param : SvcParam) : PayloadConstructor := fun buffer len =>
  match param.uri with
  | none => ⟨buffer, .error .EINVAL⟩
  | some uri =>
    if param.version = 0 ∨ uri.val.length = 0 then ⟨buffer, .error .EINVAL⟩
    else
      let payloadSize := tnepCalcSizeServiceParam uri
      match buffer with
      | none => ⟨none, .ok payloadSize⟩
      | some mem =>
        if payloadSize > len then ⟨buffer, .error .ENOSR⟩
        else ⟨some (mem.write 0 (param.bytes uri)), .ok payloadSize⟩

structure RecordHead where
  tnf : Tnf
  id : ShortBytes
  type : ShortBytes

def RecordHead.desc (head : RecordHead) (construct : PayloadConstructor) : RecordDesc where
  tnf := head.tnf
  id := head.id.val
  type := head.type.val
  payloadConstructor := some construct
  id_lt := head.id.property
  type_lt := head.type.property

/-- The payload descriptors, each with its constructor. The local records of a handover record are
counted in a `uint32_t`. -/
inductive PayloadDesc
  | text (desc : TextPayload)
  | bin (payload : List UInt8)
  | hc (hcRec : HcRec)
  | ac (acRec : AcRec)
  | cr (crRec : CrRec)
  | tnepStatus (status : UInt8)
  | tnepSvcSelect (uri : ShortBytes)
  | tnepSvcParam (param : SvcParam)
  | ch (majorVersion minorVersion : UInt8) (count : Nat) (count_lt : count < 2 ^ 32)
      (head : Fin count → RecordHead) (payload : Fin count → PayloadDesc)

def msgDescOf {count : Nat} (count_lt : count < 2 ^ 32) (head : Fin count → RecordHead)
    (construct : Fin count → PayloadConstructor) : MsgDesc where
  record := some (List.ofFn fun i => some ((head i).desc (construct i)))
  count_lt := by
    intro rs h
    cases h
    rw [List.length_ofFn]
    exact count_lt

def PayloadDesc.construct (uninit : Nat) : PayloadDesc → PayloadConstructor
  | text desc => textRecPayloadEncode desc
  | bin payload => binPayloadMemcopy payload
  | hc hcRec => chHcRecPayloadEncode hcRec
  | ac acRec => chAcRecPayloadEncode acRec
  | cr crRec => chCrRecPayloadEncode crRec
  | tnepStatus status => tnepRecStatusPayload status
  | tnepSvcSelect uri => tnepRecSvcSelectPayload uri
  | tnepSvcParam param => tnepRecSvcParamPayload param
  | ch majorVersion minorVersion _ count_lt head payload =>
    chRecPayloadEncode uninit ⟨majorVersion, minorVersion,
      some (msgDescOf count_lt head fun i => (payload i).construct uninit)⟩

end SdkNrf.Ndef
