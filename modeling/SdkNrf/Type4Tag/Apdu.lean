import SdkNrf.Framework.Bytes

/-!
# Application protocol data units of the Type 4 Tag

The encoder for commands and the decoder for responses of `apdu.c`. Lengths are `uint16_t` values.
-/

namespace SdkNrf.Type4Tag

inductive Errno
  | EINVAL
  | EFAULT
  | ENOMEM
  | EPERM
  | EACCES
  | EAGAIN
  deriving DecidableEq, Repr

/-- `enum nfc_t4t_apdu_comm_ins`. -/
inductive ApduCommIns
  | select
  | read
  | update
  deriving DecidableEq, Repr

def ApduCommIns.code : ApduCommIns → UInt8
  | select => 0xA4
  | read => 0xB0
  | update => 0xD6

/-- `struct nfc_t4t_apdu_data`; `buff` is `none` for `NULL`. -/
structure ApduData where
  len : Nat
  buff : Option Memory
  deriving DecidableEq, Repr

/-- `struct nfc_t4t_apdu_comm`. -/
structure ApduComm where
  classByte : UInt8
  instruction : ApduCommIns
  parameter : Nat
  data : ApduData
  respLen : Nat
  deriving DecidableEq, Repr

/-- The data field of `bytes`. -/
def ApduData.of (bytes : Memory) : ApduData := ⟨bytes.length, some bytes⟩

/-- The descriptor that `nfc_t4t_apdu_comm_clear` leaves, with its instruction. -/
def ApduComm.clear (instruction : ApduCommIns) : ApduComm := ⟨0, instruction, 0, ⟨0, none⟩, 0⟩

def lcLongFormatThr : Nat := 0xFF

def leLongFormatThr : Nat := 0x0100

def ApduData.bytes (data : ApduData) : List UInt8 :=
  match data.buff with
  | none => []
  | some buff =>
    (if lcLongFormatThr < data.len then 0 :: be16 data.len else [UInt8.ofNat data.len]) ++
      buff.take data.len

def respLenBytes (respLen : Nat) : List UInt8 :=
  if respLen = 0 then []
  else if leLongFormatThr < respLen then be16 respLen
  else if respLen = leLongFormatThr then [0]
  else [UInt8.ofNat respLen]

def ApduComm.bytes (cmd : ApduComm) : List UInt8 :=
  [cmd.classByte, cmd.instruction.code] ++ be16 cmd.parameter ++ cmd.data.bytes ++
    respLenBytes cmd.respLen

def apduCommSizeCalc (cmd : ApduComm) : Nat :=
  let lc := if cmd.data.buff.isSome then (if lcLongFormatThr < cmd.data.len then 3 else 1) else 0
  let le := if cmd.respLen = 0 then 0 else if leLongFormatThr < cmd.respLen then 2 else 1
  (4 + lc + cmd.data.len + le) % 2 ^ 16

/-- `nfc_t4t_apdu_comm_encode` into the buffer `raw` of `len` bytes. -/
def apduCommEncode (cmd : ApduComm) (raw : Memory) (len : Nat) : Except Errno (Memory × Nat) :=
  if cmd.data.buff.isSome ∧ cmd.data.len = 0 then .error .EFAULT
  else if len < apduCommSizeCalc cmd then .error .ENOMEM
  else .ok (raw.write 0 cmd.bytes, apduCommSizeCalc cmd)

/-- `struct nfc_t4t_apdu_resp`. -/
structure ApduResp where
  status : Nat
  data : ApduData
  deriving DecidableEq, Repr

def statusCmdCompleted : Nat := 0x9000

def apduRespDecode (raw : Memory) : Except Errno ApduResp :=
  if raw.length < 2 then .error .EPERM
  else
    let len := raw.length - 2
    let status := be16Value (raw.getD len 0) (raw.getD (len + 1) 0)
    .ok ⟨status, if 0 < len then ⟨len, some raw⟩ else ⟨0, none⟩⟩

end SdkNrf.Type4Tag
