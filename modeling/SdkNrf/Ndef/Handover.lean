import SdkNrf.Ndef.Message

/-!
# Connection Handover records

The payload encoders of `subsys/nfc/ndef/ch.c`.
-/

namespace SdkNrf.Ndef

/-- Bytes that are counted in a `uint8_t`. -/
abbrev ShortBytes := { bytes : List UInt8 // bytes.length < 2 ^ 8 }

def ShortBytes.lengthByte (s : ShortBytes) : UInt8 := UInt8.ofNat s.val.length

def ShortBytes.field (s : ShortBytes) : List UInt8 := s.lengthByte :: s.val

@[simp] theorem ShortBytes.length_field (s : ShortBytes) : s.field.length = s.val.length + 1 := rfl

@[simp] theorem ShortBytes.toNat_lengthByte (s : ShortBytes) :
    s.lengthByte.toNat = s.val.length := by
  unfold lengthByte
  rw [UInt8.toNat_ofNat', Nat.mod_eq_of_lt s.property]

/-- `struct nfc_ndef_ch_hc_rec`. The carrier type format is stored as an enumeration, which can hold
other values than the ones it names. -/
structure HcRec where
  ctf : UInt32
  type : ShortBytes
  data : ShortBytes
  deriving DecidableEq

/-- `struct nfc_ndef_ch_ac_rec`, with the auxiliary data references up to `aux_data_ref_cnt`. -/
structure AcRec where
  cps : UInt32
  carrierDataRef : ShortBytes
  auxDataRef : List ShortBytes
  auxDataRef_lt : auxDataRef.length < 2 ^ 8
  deriving DecidableEq

/-- `struct nfc_ndef_ch_cr_rec`. -/
structure CrRec where
  random : UInt16
  deriving DecidableEq

/-- `struct nfc_ndef_ch_rec`. -/
structure ChRec where
  majorVersion : UInt8
  minorVersion : UInt8
  localRecords : Option MsgDesc

/-- `NFC_NDEF_CH_AC_CPS_MASK`. -/
def cpsMask : UInt32 := 0x03

def hcPayloadSizeGet (hcRec : HcRec) : Nat := 1 + (hcRec.type.val.length + 1) + hcRec.data.val.length

/-- The bytes that `nfc_ndef_ch_hc_rec_payload_encode` stores. -/
def HcRec.payload (hcRec : HcRec) : List UInt8 :=
  hcRec.ctf.toUInt8 :: (hcRec.type.field ++ hcRec.data.val)

def chHcRecPayloadEncode (hcRec : HcRec) : PayloadConstructor := fun buffer len =>
  let payloadSize := hcPayloadSizeGet hcRec
  match buffer with
  | none => ⟨none, .ok payloadSize⟩
  | some mem =>
    if payloadSize > len then ⟨buffer, .error .ENOMEM⟩
    else if hcRec.ctf < 1 ∨ hcRec.ctf > 4 then ⟨buffer, .error .EFAULT⟩
    else ⟨some (mem.write 0 hcRec.payload), .ok payloadSize⟩

def acRecPayloadSizeGet (acRec : AcRec) : Nat :=
  acRec.auxDataRef.foldl (fun payloadSize ref => payloadSize + (ref.val.length + 1))
    (1 + (acRec.carrierDataRef.val.length + 1) + 1)

/-- The bytes that `nfc_ndef_ch_ac_rec_payload_encode` stores. -/
def AcRec.payload (acRec : AcRec) : List UInt8 :=
  acRec.cps.toUInt8 :: (acRec.carrierDataRef.field ++
    (UInt8.ofNat acRec.auxDataRef.length :: acRec.auxDataRef.flatMap ShortBytes.field))

def chAcRecPayloadEncode (acRec : AcRec) : PayloadConstructor := fun buffer len =>
  let payloadSize := acRecPayloadSizeGet acRec
  match buffer with
  | none => ⟨none, .ok payloadSize⟩
  | some mem =>
    if payloadSize > len then ⟨buffer, .error .ENOMEM⟩
    else if acRec.cps &&& ~~~cpsMask ≠ 0 then ⟨buffer, .error .EFAULT⟩
    else ⟨some (mem.write 0 acRec.payload), .ok payloadSize⟩

/-- The bytes that `nfc_ndef_ch_cr_rec_payload_encode` stores. -/
def CrRec.payload (crRec : CrRec) : List UInt8 := be16 crRec.random.toNat

/-- `nfc_ndef_ch_cr_rec_payload_encode`: the size counts only what is stored. -/
def chCrRecPayloadEncode (crRec : CrRec) : PayloadConstructor := fun buffer len =>
  match buffer with
  | none => ⟨none, .ok 0⟩
  | some mem =>
    if 2 > len then ⟨buffer, .error .ENOMEM⟩
    else ⟨some (mem.write 0 crRec.payload), .ok 2⟩

def ChRec.version (chRec : ChRec) : UInt8 :=
  ((chRec.majorVersion <<< 4) &&& 0xF0) ||| (chRec.minorVersion &&& 0x0F)

/-- `nfc_ndef_ch_rec_payload_encode`, for the Hs, Hr, Hm and Hi records. -/
def chRecPayloadEncode (uninit : Nat) (chRec : ChRec) : PayloadConstructor := fun buffer len =>
  match buffer with
  | none => ⟨none, (msgEncode uninit chRec.localRecords none len).result.map (addU32 · 1)⟩
  | some mem =>
    if len < 1 then ⟨buffer, .error .ENOMEM⟩
    else
      let mem := mem.write 0 [chRec.version]
      let msg := msgEncode uninit chRec.localRecords (some (mem.drop 1)) (len - 1)
      ⟨some (mem.take 1 ++ msg.buffer.getD (mem.drop 1)), msg.result.map (addU32 · 1)⟩

theorem HcRec.length_payload (hcRec : HcRec) : hcRec.payload.length = hcPayloadSizeGet hcRec := by
  simp only [payload, hcPayloadSizeGet, List.length_cons, List.length_append,
    ShortBytes.length_field]
  omega

private theorem foldl_length_field (refs : List ShortBytes) (n : Nat) :
    refs.foldl (fun payloadSize ref => payloadSize + (ref.val.length + 1)) n =
      n + (refs.flatMap ShortBytes.field).length := by
  induction refs generalizing n with
  | nil => rfl
  | cons ref refs ih =>
    rw [List.foldl_cons, ih, List.flatMap_cons, List.length_append, ShortBytes.length_field]
    omega

theorem AcRec.length_payload (acRec : AcRec) : acRec.payload.length = acRecPayloadSizeGet acRec := by
  unfold acRecPayloadSizeGet
  rw [foldl_length_field]
  simp only [payload, List.length_cons, List.length_append, ShortBytes.length_field]
  omega

theorem CrRec.length_payload (crRec : CrRec) : crRec.payload.length = 2 := rfl

end SdkNrf.Ndef
