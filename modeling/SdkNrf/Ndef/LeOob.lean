import SdkNrf.Framework.Arena
import SdkNrf.Framework.ExceptRun
import SdkNrf.Ndef.Record

/-!
# Bluetooth LE Out-of-Band records

The payload constructor of `subsys/nfc/ndef/le_oob_rec.c` and the parser of
`subsys/nfc/ndef/le_oob_rec_parser.c`.
-/

namespace SdkNrf.Ndef

/-- `bt_addr_le_t`. -/
structure BtAddrLe where
  type : UInt8
  a : List.Vector UInt8 6
  deriving DecidableEq

/-- `struct bt_le_oob_sc_data`: the random number and the confirm value. -/
structure ScData where
  r : List.Vector UInt8 16
  c : List.Vector UInt8 16
  deriving DecidableEq

abbrev CString := { s : List UInt8 // 0 ∉ s }

/-- `struct nfc_ndef_le_oob_rec_payload_desc`; `none` is `NULL`. The role is stored as an enumeration,
which can hold other values than the ones it names. -/
structure LeOobDesc where
  addr : Option BtAddrLe
  leRole : Option UInt32
  leScData : Option ScData
  tkValue : Option (List.Vector UInt8 16)
  appearance : Option UInt16
  flags : Option UInt8
  localName : Option CString
  deriving DecidableEq

def btDataFlags : UInt8 := 0x01

def btDataNameShortened : UInt8 := 0x08

def btDataNameComplete : UInt8 := 0x09

def btDataSmTkValue : UInt8 := 0x10

def btDataGapAppearance : UInt8 := 0x19

def btDataLeBtDeviceAddress : UInt8 := 0x1B

def btDataLeRole : UInt8 := 0x1C

def btDataLeScConfirmValue : UInt8 := 0x22

def btDataLeScRandomValue : UInt8 := 0x23

def btLeAdNoBredr : UInt8 := 0x04

/-- The bytes that have been stored, and `rem_size`. -/
structure AdBuffer where
  bytes : List UInt8
  size : Nat

/-- `data_len` of `struct bt_data`, a `uint8_t`. -/
def btDataLen (data : List UInt8) : Nat := data.length % 2 ^ 8

/-- The AD structure that `bt_data_encode` stores. -/
def adStructure (type : UInt8) (data : List UInt8) : List UInt8 :=
  UInt8.ofNat (btDataLen data + 1) :: type :: data.take (btDataLen data)

def btDataEncode (type : UInt8) (data : List UInt8) (buff : AdBuffer) : Except Errno AdBuffer :=
  if buff.size < btDataLen data + 2 then .error .ENOMEM
  else .ok ⟨buff.bytes ++ adStructure type data, buff.size - (btDataLen data + 2)⟩

def optionEncode {α : Type} (field : Option α) (encode : α → AdBuffer → Except Errno AdBuffer)
    (buff : AdBuffer) : Except Errno AdBuffer :=
  match field with
  | none => .ok buff
  | some value => encode value buff

def bleDeviceAddrEncode (addr : BtAddrLe) : AdBuffer → Except Errno AdBuffer :=
  btDataEncode btDataLeBtDeviceAddress (addr.a.toList ++ [addr.type])

def leRoleEncode (leRole : UInt32) (buff : AdBuffer) : Except Errno AdBuffer :=
  if leRole ≥ 4 then .error .EINVAL else btDataEncode btDataLeRole [leRole.toUInt8] buff

def leScDataEncode (leScData : ScData) (buff : AdBuffer) : Except Errno AdBuffer := do
  let buff ← btDataEncode btDataLeScConfirmValue leScData.c.toList buff
  btDataEncode btDataLeScRandomValue leScData.r.toList buff

/-- The bytes of a `uint16_t` on a little-endian host. -/
def le16 (v : UInt16) : List UInt8 := [v.toUInt8, (v >>> 8).toUInt8]

def flagsEncode (flags : UInt8) (buff : AdBuffer) : Except Errno AdBuffer :=
  if flags &&& btLeAdNoBredr = 0 then .error .EINVAL else btDataEncode btDataFlags [flags] buff

/-- `nfc_ndef_le_oob_rec_payload_constructor` with a buffer: the memory and the length it leaves. -/
def leOobRecPayloadConstructor (payloadDesc? : Option LeOobDesc) (buff : Memory) (len : Nat) :
    Except Errno (Memory × Nat) :=
  match payloadDesc? with
  | none => .error .EINVAL
  | some payloadDesc =>
    match payloadDesc.addr, payloadDesc.leRole with
    | some addr, some leRole => do
      let out ← bleDeviceAddrEncode addr ⟨[], len⟩
      let out ← leRoleEncode leRole out
      let out ← optionEncode payloadDesc.tkValue (fun tk => btDataEncode btDataSmTkValue tk.toList) out
      let out ← optionEncode payloadDesc.leScData leScDataEncode out
      let out ← optionEncode payloadDesc.appearance
        (fun appearance => btDataEncode btDataGapAppearance (le16 appearance)) out
      let out ← optionEncode payloadDesc.flags flagsEncode out
      let out ← optionEncode payloadDesc.localName
        (fun name => btDataEncode btDataNameComplete name.val) out
      return (buff.write 0 out.bytes, len - out.size)
    | _, _ => .error .EINVAL

/-- The sizes of the descriptor and of the role, and the width of the size that
`struct net_buf_simple` keeps. -/
structure LeOobAbi where
  recDescSize : Nat
  leRoleSize : Nat
  netBufBits : Nat

/-- The descriptor so far, and how many of the `size` bytes have been handed out. -/
structure LeOobState where
  desc : LeOobDesc
  len : Nat
  size : Nat

def LeOobDesc.empty : LeOobDesc := ⟨none, none, none, none, none, none, none⟩

/-- `memory_allocate`, or the `-ENOMEM` for the `NULL` that it returns. -/
def LeOobState.allocate (s : LeOobState) (n : Nat) : Except Errno LeOobState :=
  if s.size - s.len < n then .error .ENOMEM else .ok { s with len := s.len + n }

/-- The first `n` bytes from a pointer on. -/
def copyBytes (n : Nat) (data : List UInt8) : List.Vector UInt8 n :=
  ⟨data.takeD n 0, List.takeD_length n data 0⟩

def checkDataLen (dataLen expected : Nat) : Except Errno Unit :=
  if dataLen ≠ expected then .error .EINVAL else .ok ()

def cString (data : List UInt8) : CString :=
  ⟨data.takeWhile (· ≠ 0), fun h => absurd (List.mem_takeWhile_imp h) (by decide)⟩

def bleDeviceAddressDecode (data : List UInt8) (dataLen : Nat) : Except Errno BtAddrLe := do
  checkDataLen dataLen 7
  return ⟨data.getD 6 0, copyBytes 6 data⟩

def leRoleDecode (abi : LeOobAbi) (data : List UInt8) (dataLen : Nat) : Except Errno UInt32 := do
  checkDataLen dataLen abi.leRoleSize
  return (data.getD 0 0).toUInt32

/-- The bytes of `tk_value_decode` and of the two values of LE Secure Connections. -/
def bytes16Decode (data : List UInt8) (dataLen : Nat) : Except Errno (List.Vector UInt8 16) := do
  checkDataLen dataLen 16
  return copyBytes 16 data

def appearanceDecode (data : List UInt8) (dataLen : Nat) : Except Errno UInt16 := do
  checkDataLen dataLen 2
  return (data.getD 0 0).toUInt16 ||| ((data.getD 1 0).toUInt16 <<< 8)

def flagsDecode (data : List UInt8) (dataLen : Nat) : Except Errno UInt8 := do
  checkDataLen dataLen 1
  return data.getD 0 0

/-- The structure for LE Secure Connections, allocated when there is none yet; `scInit` is what the
result buffer holds there. -/
def LeOobState.scAllocate (s : LeOobState) (scInit : ScData) :
    Except Errno (ScData × LeOobState) :=
  match s.desc.leScData with
  | some sc => .ok (sc, s)
  | none => do
    let s ← s.allocate 32
    return (scInit, s)

/-- One AD structure: `data` are the bytes at `ad_data`, `dataLen` is `ad_data_len`. -/
def LeOobState.decode (abi : LeOobAbi) (scInit : ScData) (s : LeOobState) (type : UInt8)
    (data : List UInt8) (dataLen : Nat) : Except Errno LeOobState :=
  if type = btDataLeBtDeviceAddress then do
    let s ← s.allocate 7
    let addr ← bleDeviceAddressDecode data dataLen
    return { s with desc.addr := some addr }
  else if type = btDataLeRole then do
    let s ← s.allocate abi.leRoleSize
    let leRole ← leRoleDecode abi data dataLen
    return { s with desc.leRole := some leRole }
  else if type = btDataSmTkValue then do
    let s ← s.allocate 16
    let tk ← bytes16Decode data dataLen
    return { s with desc.tkValue := some tk }
  else if type = btDataLeScConfirmValue then do
    let (sc, s) ← s.scAllocate scInit
    let c ← bytes16Decode data dataLen
    return { s with desc.leScData := some { sc with c := c } }
  else if type = btDataLeScRandomValue then do
    let (sc, s) ← s.scAllocate scInit
    let r ← bytes16Decode data dataLen
    return { s with desc.leScData := some { sc with r := r } }
  else if type = btDataGapAppearance then do
    let s ← s.allocate 2
    let appearance ← appearanceDecode data dataLen
    return { s with desc.appearance := some appearance }
  else if type = btDataFlags then do
    let s ← s.allocate 1
    let flags ← flagsDecode data dataLen
    return { s with desc.flags := some flags }
  else if type = btDataNameShortened ∨ type = btDataNameComplete then do
    let s ← s.allocate (dataLen + 1)
    return { s with desc.localName := some (cString data) }
  else .ok s

/-- The loop over the AD structures: `mem` is the memory from `index` on, `left` the part of it that
belongs to the payload. The data length `ad_len - 1` is a `uint8_t`. -/
def adLoop (abi : LeOobAbi) (scInit : ScData) (mem : Memory) (left : Nat) (s : LeOobState) :
    Except Errno LeOobState :=
  if hleft : left = 0 then .ok s
  else
    let adLen := mem.getD 0 0
    if adLen = 1 ∨ left - 1 < adLen.toNat then .error .EINVAL
    else do
      let adDataLen := (adLen - 1).toNat
      let s ← s.decode abi scInit (mem.getD 1 0) (mem.slice 2 adDataLen) adDataLen
      adLoop abi scInit (mem.drop (adLen.toNat + 1)) (left - 1 - adLen.toNat) s
termination_by left
decreasing_by omega

/-- `nfc_ndef_le_oob_rec_payload_parse`: the descriptor and the length stored in `result_buf_len`. -/
def leOobRecPayloadParse (abi : LeOobAbi) (scInit : ScData) (payloadBuf? : Option Memory)
    (payloadLen resultBufLen : Nat) : Except Errno (LeOobDesc × Nat) :=
  match payloadBuf? with
  | none => .error .EINVAL
  | some payloadBuf => do
    let s : LeOobState := ⟨.empty, 0, resultBufLen % 2 ^ abi.netBufBits⟩
    let s ← s.allocate abi.recDescSize
    let s ← adLoop abi scInit payloadBuf payloadLen s
    return (s.desc, subU32 resultBufLen (s.size - s.len))

end SdkNrf.Ndef
