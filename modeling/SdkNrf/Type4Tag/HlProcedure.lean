import SdkNrf.Type4Tag.Apdu

/-!
# High-level procedures of the Type 4 Tag

The state machine of `hl_procedure.c`: a procedure sends a command through ISO-DEP, and each response moves it
on.
-/

namespace SdkNrf.Type4Tag

/-- `struct nfc_t4t_tlv_block` with its value; `file` is the content that was bound to it. -/
structure TlvBlock where
  fileId : Nat
  maxFileSize : Nat
  file : Option Memory
  deriving DecidableEq, Repr

/-- `struct nfc_t4t_cc_file`, as far as the procedures use it. -/
structure CcFile where
  tlvBlocks : List TlvBlock
  maxRapduSize : Nat
  maxCapduSize : Nat
  deriving DecidableEq, Repr

def ccFileContentGet (cc : CcFile) (fileId : Nat) : Option TlvBlock :=
  cc.tlvBlocks.find? (·.fileId = fileId)

def setContent (fileId : Nat) (file : Memory) : List TlvBlock → List TlvBlock
  | [] => []
  | block :: blocks =>
    if block.fileId = fileId then { block with file := some file } :: blocks
    else block :: setContent fileId file blocks

def ccFileContentSet (cc : CcFile) (file : Memory) (fileId : Nat) : Except Errno CcFile :=
  if (ccFileContentGet cc fileId).isSome then
    .ok { cc with tlvBlocks := setContent fileId file cc.tlvBlocks }
  else .error .EACCES

inductive TransactionType
  | select
  | ccRead
  | ndefNlenRead
  | ndefRead
  | ndefNlenClear
  | ndefUpdate
  | ndefNlenUpdate
  deriving DecidableEq, Repr

/-- `enum nfc_t4t_hl_procedure_select`. -/
inductive SelectType
  | ndefAppSelect
  | ccSelect
  | ndefFileSelect
  deriving DecidableEq, Repr

structure HlNdef where
  cc : CcFile
  buff : Memory
  buffSize : Nat
  nlen : Nat
  fileId : Nat
  deriving DecidableEq, Repr

structure HlCc where
  cc : CcFile
  len : Nat
  data : Memory
  deriving DecidableEq, Repr

structure HlProcedure where
  ccFile : HlCc
  ndef : HlNdef
  transactionType : TransactionType
  selectType : SelectType
  fileOffset : Nat
  apduBuff : Memory
  deriving DecidableEq, Repr

/-- What the procedures hand on: a command to `nfc_t4t_isodep_transmit` and the calls of
`struct nfc_t4t_hl_procedure_cb`. -/
inductive Output
  | transmit (apdu : List UInt8)
  | selected (type : SelectType)
  | ccRead (cc : CcFile)
  | ndefRead (fileId : Nat) (data : List UInt8)
  | ndefUpdated (fileId : Nat)
  deriving DecidableEq, Repr

structure Callbacks where
  selected : Bool
  ccRead : Bool
  ndefRead : Bool
  ndefUpdated : Bool

/-- What the procedures call: the answer of `nfc_t4t_isodep_transmit` to a command, the parser of
the capability container and the registered callbacks. -/
structure Env where
  isodepTransmit : List UInt8 → Option Errno
  ccFileParse : CcFile → Memory → Nat → Except Errno CcFile
  cb : Callbacks

structure Outcome where
  state : HlProcedure
  outputs : List Output
  err : Option Errno

section

variable (env : Env)

def dataExchange (s : HlProcedure) (comm : ApduComm) : Outcome :=
  match apduCommEncode comm s.apduBuff s.apduBuff.length with
  | .error e => ⟨s, [], some e⟩
  | .ok (buff, len) =>
    ⟨{ s with apduBuff := buff }, [.transmit (buff.take len)], env.isodepTransmit (buff.take len)⟩

def readComm (parameter respLen : Nat) : ApduComm :=
  { ApduComm.clear .read with parameter, respLen }

def updateComm (parameter : Nat) (data : Memory) : ApduComm :=
  { ApduComm.clear .update with parameter, data := .of data }

def ccMinRapduSize : Nat := 0x0F

def apduLeMap2MaxValue : Nat := 0xFF

def ndefFileNlenSize : Nat := 2

/-- `on_cc_read`, on the data field of the response. -/
def onCcRead (s : HlProcedure) (data : Memory) : Outcome :=
  let ccLen := if data.length ≠ 0 ∧ s.ccFile.len = 0
    then be16Value (data.getD 0 0) (data.getD 1 0) else s.ccFile.len
  let s := { s with ccFile.len := ccLen }
  if s.ccFile.data.length < s.fileOffset + data.length then ⟨s, [], some .ENOMEM⟩
  else
    let s := { s with ccFile.data := s.ccFile.data.write s.fileOffset data,
                      fileOffset := (s.fileOffset + data.length) % 2 ^ 16 }
    if s.fileOffset < ccLen then
      dataExchange env s (readComm s.fileOffset (min ccMinRapduSize (ccLen - s.fileOffset)))
    else if env.cb.ccRead then
      match env.ccFileParse s.ccFile.cc s.ccFile.data ccLen with
      | .error e => ⟨s, [], some e⟩
      | .ok cc => ⟨{ s with ccFile.cc := cc }, [.ccRead cc], none⟩
    else ⟨s, [], none⟩

def ndefFileChunkRead (s : HlProcedure) (data : Memory) : Outcome :=
  if s.ndef.buffSize < s.fileOffset + data.length then ⟨s, [], some .ENOMEM⟩
  else
    let s := { s with ndef.buff := s.ndef.buff.write s.fileOffset data,
                      fileOffset := (s.fileOffset + data.length) % 2 ^ 16 }
    if s.fileOffset < s.ndef.nlen + ndefFileNlenSize then
      dataExchange env { s with transactionType := .ndefRead } (readComm s.fileOffset
        (min (s.ndef.nlen - (s.fileOffset - ndefFileNlenSize))
          (min apduLeMap2MaxValue s.ndef.cc.maxRapduSize)))
    else
      match ccFileContentSet s.ndef.cc (s.ndef.buff.take s.fileOffset) s.ndef.fileId with
      | .error e => ⟨s, [], some e⟩
      | .ok cc =>
        ⟨{ s with ndef.cc := cc },
          if env.cb.ndefRead then
            [.ndefRead s.ndef.fileId (s.ndef.buff.take (s.ndef.nlen + ndefFileNlenSize))]
          else [], none⟩

/-- `on_ndef_nlen_read` and the chunk behind it. -/
def onNdefNlenRead (s : HlProcedure) (data : Memory) : Outcome :=
  if data.length ≠ ndefFileNlenSize then ⟨s, [], some .EINVAL⟩
  else ndefFileChunkRead env
    { s with ndef.nlen := be16Value (data.getD 0 0) (data.getD 1 0) } data

def chunkLen (s : HlProcedure) : Nat :=
  min (s.ndef.buffSize - s.fileOffset) (min apduLeMap2MaxValue s.ndef.cc.maxCapduSize)

def ndefFileChunkUpdate (s : HlProcedure) : Outcome :=
  if s.fileOffset < s.ndef.buffSize then
    dataExchange env
      { s with fileOffset := (s.fileOffset + chunkLen s) % 2 ^ 16, transactionType := .ndefUpdate }
      (updateComm s.fileOffset (s.ndef.buff.slice s.fileOffset (chunkLen s)))
  else
    dataExchange env { s with transactionType := .ndefNlenUpdate } (updateComm 0 (be16 s.ndef.nlen))

def onNdefNlenUpdate (s : HlProcedure) : Outcome :=
  ⟨s, if env.cb.ndefUpdated then [.ndefUpdated s.ndef.fileId] else [], none⟩

/-- `on_rapdu_succes`, on the data field of the response. -/
def onRapduSucces (s : HlProcedure) (data : Memory) : Outcome :=
  match s.transactionType with
  | .select => ⟨s, if env.cb.selected then [.selected s.selectType] else [], none⟩
  | .ccRead => onCcRead env s data
  | .ndefNlenRead => onNdefNlenRead env s data
  | .ndefRead => ndefFileChunkRead env s data
  | .ndefNlenClear | .ndefUpdate => ndefFileChunkUpdate env s
  | .ndefNlenUpdate => onNdefNlenUpdate env s

def onDataReceived (s : HlProcedure) (data : Memory) : Outcome :=
  if data.length < 2 then ⟨s, [], some .EINVAL⟩
  else
    match apduRespDecode data with
    | .error e => ⟨s, [], some e⟩
    | .ok resp =>
      if resp.status = statusCmdCompleted then
        onRapduSucces env s (data.take resp.data.len)
      else ⟨s, [], some .EPERM⟩

def ndefTagAppSelect (s : HlProcedure) : Outcome :=
  dataExchange env { s with transactionType := .select, selectType := .ndefAppSelect }
    { ApduComm.clear .select with
      parameter := 0x0400
      data := .of [0xD2, 0x76, 0x00, 0x00, 0x85, 0x01, 0x01]
      respLen := 256 }

def ccFileId : Nat := 0xE103

def ndefFileSelect (s : HlProcedure) (id : Nat) : Outcome :=
  dataExchange env
    { s with ndef.fileId := id
             transactionType := .select
             selectType := if id = ccFileId then .ccSelect else .ndefFileSelect }
    { ApduComm.clear .select with parameter := 0x000C, data := .of (be16 id) }

def ccSelect (s : HlProcedure) : Outcome := ndefFileSelect env s ccFileId

def ccRead (s : HlProcedure) (cc : CcFile) : Outcome :=
  dataExchange env
    { s with ccFile := ⟨cc, 0, List.replicate s.ccFile.data.length 0⟩
             fileOffset := 0
             transactionType := .ccRead }
    (readComm 0 ccMinRapduSize)

/-- `nfc_t4t_hl_procedure_ndef_read` with a buffer of `ndefLen` bytes. -/
def ndefRead (s : HlProcedure) (cc : CcFile) (ndefBuff : Memory) (ndefLen : Nat) : Outcome :=
  let s := { s with fileOffset := 0 }
  if ndefLen = 0 then ⟨s, [], some .EINVAL⟩
  else
    dataExchange env
      { s with ndef := { s.ndef with buff := ndefBuff, buffSize := ndefLen, cc }
               transactionType := .ndefNlenRead }
      (readComm 0 ndefFileNlenSize)

def imageNlen (ndefData : Memory) : Nat := be16Value (ndefData.getD 0 0) (ndefData.getD 1 0)

def HlProcedure.startUpdate (s : HlProcedure) (cc : CcFile) (ndefData : Memory) : HlProcedure :=
  { s with ndef := ⟨cc, ndefData, ndefData.length, imageNlen ndefData, s.ndef.fileId⟩
           fileOffset := ndefFileNlenSize
           transactionType := .ndefNlenClear }

/-- `nfc_t4t_hl_procedure_ndef_update` with the file image `ndefData`. -/
def ndefUpdate (s : HlProcedure) (cc : CcFile) (ndefData : Memory) : Outcome :=
  let ndefLen := ndefData.length
  if ndefLen < ndefFileNlenSize then ⟨s, [], some .EINVAL⟩
  else
    match ccFileContentGet cc s.ndef.fileId with
    | none => ⟨s, [], some .EACCES⟩
    | some tlvBlock =>
      if imageNlen ndefData + ndefFileNlenSize ≠ ndefLen ∨ tlvBlock.maxFileSize < ndefLen then
        ⟨s, [], some .ENOMEM⟩
      else dataExchange env (s.startUpdate cc ndefData) (updateComm 0 [0x00, 0x00])

end

end SdkNrf.Type4Tag
