import SdkNrf.Framework.Bytes

/-!
# ISO-DEP

The reader's side of the ISO-DEP protocol, as in `isodep.c`.
-/

namespace SdkNrf.Isodep

inductive Err
  | EINVAL
  | ENOMEM
  | EACCES
  | work
  | syntaxError
  | semanticError
  | transmissionError
  | timeoutError
  deriving DecidableEq, Repr

inductive Frame
  | none
  | rats
  | deselect
  | wtxResponse
  | i
  | iChaining
  deriving DecidableEq, Repr

inductive State
  | uninitialized
  | initialized
  | selected
  | transfer
  deriving DecidableEq, Repr

structure Tag where
  fwt : Nat
  sfgt : Nat
  fsc : Nat
  did : UInt8
  lpDivisor : UInt8
  plDivisor : UInt8
  historical : List UInt8
  didSupported : Bool
  nadSupported : Bool
  deriving DecidableEq, Repr

/-- `struct nfc_t4t_buf`: the buffer, the length in use and its size. -/
structure Buf where
  data : Memory
  len : Nat
  bufSize : Nat
  deriving DecidableEq, Repr

/-- `struct nfc_t4t_err`. -/
structure ErrStatus where
  lastFrame : Frame
  frameRetryCnt : Nat
  wtx : Nat
  deriving DecidableEq, Repr

/-- `struct nfc_t4t_isodep`, with `ats_received_time` and whether `isodep_work` is pending. The
block number is a bit. -/
structure T4tIsodep where
  state : State
  tag : Tag
  txData : Buf
  rxData : Buf
  errStatus : ErrStatus
  fsd : Nat
  blockNum : Bool
  retransmitCnt : Nat
  transmitData : Memory
  transmitLen : Nat
  transmittedLen : Nat
  chaining : Bool
  equalDivisor : Bool
  atsExpected : Bool
  firstTransfer : Bool
  atsReceivedTime : Int
  workPending : Bool
  deriving DecidableEq, Repr

/-- The calls of `struct nfc_t4t_isodep_cb`, and the submission of the delayed work. -/
inductive Output
  | readyToSend (frame : List UInt8) (fdt : Nat)
  | dataReceived (data : List UInt8)
  | selected (tag : Tag)
  | deselected
  | error (err : Err)
  | submit (delay : Nat)
  deriving DecidableEq, Repr

structure Callbacks where
  readyToSend : Bool
  dataReceived : Bool
  selected : Bool
  deselected : Bool
  error : Bool

/-- The configured retry counts, the registered callbacks, whether `k_delayed_work_submit` fails for
a delay, and the memory behind `fsd_value_map`. -/
structure Env where
  ratsRetry : Nat
  ackRetry : Nat
  nakRetry : Nat
  wtxRetry : Nat
  deselectRetry : Nat
  cb : Callbacks
  workSubmitFails : Nat → Bool
  behindFsdValueMap : Nat → Nat

structure Outcome where
  state : T4tIsodep
  outputs : List Output
  err : Option Err

def callback (registered : Bool) (output : Output) : List Output :=
  if registered then [output] else []

def iBlock : UInt8 := 0x02

def rBlock : UInt8 := 0xA2

def sBlock : UInt8 := 0xC2

def blockFixedBit : UInt8 := 0x02

def sBlockIndicator : UInt8 := 0x40

def rBlockIndicator : UInt8 := 0x80

def blockNumMask : UInt8 := 0x01

def iBlockDidBit : UInt8 := 0x08

def iBlockNadBit : UInt8 := 0x04

def iBlockChainingBit : UInt8 := 0x10

def rBlockNak : UInt8 := 0x10

def sBlockWtxMask : UInt8 := 0x30

def maxRetransmitCnt : Nat := 2

def fwtDeactivation : Nat := 71680

def fwtDelta : Nat := 49152

def fwtTFc : Nat := 164 * 1356

def ratsFdt : Nat := 71680 + fwtDelta + fwtTFc

/-- `T4T_FWT_TO_MS`. -/
def fwtToMs (fwt : Nat) : Nat := (fwt + 13559) / 13560

/-- `fsd_value_map`, and what lies behind it. -/
def fsdValueMap (env : Env) (i : Nat) : Nat :=
  [16, 24, 32, 40, 48, 64, 96, 128, 256].getD i (env.behindFsdValueMap i)

def frameDelayTime (fwt : Nat) : Nat := (fwt + fwtDelta + fwtTFc) % 2 ^ 32

def blockNumBit (blockNum : Bool) : UInt8 := if blockNum then 1 else 0

def Tag.includesDid (tag : Tag) : Bool := tag.didSupported && tag.did ≠ 0

/-- `did_include`: the bytes in front of the information field. -/
def didInclude (tag : Tag) (pcb : UInt8) : List UInt8 :=
  if tag.includesDid then [pcb ||| iBlockDidBit, tag.did] else [pcb]

/-- The position that `did_include` returns. -/
def headerLen (tag : Tag) : Nat := if tag.includesDid then 2 else 1

@[simp] theorem length_didInclude (tag : Tag) (pcb : UInt8) :
    (didInclude tag pcb).length = headerLen tag := by
  unfold didInclude headerLen
  split <;> rfl

namespace T4tIsodep

variable (env : Env) (s : T4tIsodep)

def transmissionClear : T4tIsodep :=
  { s with rxData.len := 0
           transmittedLen := 0
           transmitLen := 0
           chaining := false
           retransmitCnt := 0
           errStatus.frameRetryCnt := 0
           errStatus.lastFrame := .none }

def errNotify (err : Err) : T4tIsodep × List Output :=
  (s.transmissionClear, callback env.cb.error (.error err))

def txFrame : List UInt8 := s.txData.data.take s.txData.len

/-- Whether `isodep_chunk_send` needs another block after this one. -/
def chunkChains : Bool :=
  subU32 s.tag.fsc (headerLen s.tag) < subU32 s.transmitLen s.transmittedLen

def chunkLen : Nat :=
  if s.chunkChains then subU32 s.tag.fsc (headerLen s.tag)
  else subU32 s.transmitLen s.transmittedLen

/-- The I-block that `isodep_chunk_send` builds. -/
def chunkFrame : List UInt8 :=
  didInclude s.tag (iBlock ||| blockNumBit s.blockNum |||
    if s.chunkChains then iBlockChainingBit else 0) ++
    s.transmitData.slice s.transmittedLen s.chunkLen

def chunkSend : T4tIsodep × List Output :=
  ({ s with txData.data := s.txData.data.write 0 s.chunkFrame
            txData.len := headerLen s.tag + s.chunkLen
            chaining := s.chunkChains
            errStatus.lastFrame := .i
            transmittedLen := s.transmittedLen + s.chunkLen },
    callback env.cb.readyToSend (.readyToSend s.chunkFrame (frameDelayTime s.tag.fwt)))

def blockNumToggle : T4tIsodep := { s with blockNum := !s.blockNum }

/-- The R-block that `isodep_r_frame_send` builds. -/
def rFrame (ack : Bool) : List UInt8 :=
  didInclude s.tag (rBlock ||| blockNumBit s.blockNum ||| if ack then 0 else rBlockNak)

/-- `isodep_r_frame_send`: the length of the Tx data stays as it is. -/
def rFrameSend (ack : Bool) : T4tIsodep × List Output :=
  ({ s with txData.data := s.txData.data.write 0 (s.rFrame ack) },
    callback env.cb.readyToSend (.readyToSend (s.rFrame ack) (frameDelayTime s.tag.fwt)))

def headerEnd (pcb : UInt8) : Nat := if pcb &&& iBlockDidBit ≠ 0 then 2 else 1

def wtxFrame (wtxm : UInt8) : List UInt8 := didInclude s.tag (sBlock ||| sBlockWtxMask) ++ [wtxm]

def sFrameHandle (data : Memory) (len : Nat) : Outcome :=
  let pcb := data.getD 0 0
  let index := headerEnd pcb
  if pcb &&& sBlockWtxMask ≠ sBlockWtxMask then
    if pcb &&& sBlockWtxMask = 0 then
      if index < len then ⟨s, [], some .syntaxError⟩
      else ⟨{ s with state := .initialized }, callback env.cb.deselected .deselected, none⟩
    else ⟨s, [], some .syntaxError⟩
  else if index + 1 < len then ⟨s, [], some .EINVAL⟩
  else
    let wtxm := data.getD index 0 &&& 0x3F
    if wtxm < 1 ∨ wtxm > 59 then ⟨s, [], some .syntaxError⟩
    else
      ⟨{ s with txData.data := s.txData.data.write 0 (s.wtxFrame wtxm)
                txData.len := (s.wtxFrame wtxm).length
                errStatus.lastFrame := .wtxResponse },
        callback env.cb.readyToSend
          (.readyToSend (s.wtxFrame wtxm) (frameDelayTime (s.tag.fwt * wtxm.toNat))), none⟩

/-- The branch of `isodep_r_frame_handle` for an R(ACK) with the other block number. -/
def retransmit : Outcome :=
  if maxRetransmitCnt < s.retransmitCnt then ⟨s, [], some .semanticError⟩
  else if env.cb.readyToSend then
    ⟨{ s with retransmitCnt := s.retransmitCnt + 1 },
      [.readyToSend s.txFrame (frameDelayTime s.tag.fwt)], none⟩
  else ⟨s, [], none⟩

def rFrameHandle (data : Memory) (len : Nat) : Outcome :=
  let pcb := data.getD 0 0
  if headerEnd pcb < len then ⟨s, [], some .syntaxError⟩
  else if pcb &&& rBlockNak ≠ 0 then ⟨s, [], some .semanticError⟩
  else if ¬ s.chaining then ⟨s, [], some .semanticError⟩
  else if pcb &&& blockNumMask = blockNumBit s.blockNum then
    let (s', outputs) := s.blockNumToggle.chunkSend env
    ⟨s', outputs, none⟩
  else s.retransmit env

def iHeaderEnd (pcb : UInt8) : Nat := headerEnd pcb + if pcb &&& iBlockNadBit ≠ 0 then 1 else 0

/-- The state with the information field `inf` appended to the Rx data. -/
def rxAppend (inf : List UInt8) : T4tIsodep :=
  { s with rxData.data := s.rxData.data.write s.rxData.len inf
           rxData.len := s.rxData.len + inf.length }

def iFrameHandle (data : Memory) (len : Nat) : Outcome :=
  let pcb := data.getD 0 0
  let index := iHeaderEnd pcb
  if len < index then ⟨s, [], some .EINVAL⟩
  else if s.rxData.bufSize < s.rxData.len + (len - index) then ⟨s, [], some .ENOMEM⟩
  else
    let s := if pcb &&& blockNumMask = blockNumBit s.blockNum then s.blockNumToggle else s
    let s := s.rxAppend (data.slice index (len - index))
    if pcb &&& iBlockChainingBit ≠ 0 then
      let (s', outputs) := { s with errStatus.lastFrame := .iChaining }.rFrameSend env true
      ⟨s', outputs, none⟩
    else
      ⟨{ s with state := .selected, errStatus.lastFrame := .i },
        callback env.cb.dataReceived (.dataReceived (s.rxData.data.take s.rxData.len)), none⟩

def atsParse (data : Memory) (len : Nat) (now : Int) : Outcome :=
  let s := { s with atsReceivedTime := now }
  if len < 2 then ⟨s, [], some .syntaxError⟩
  else if (data.getD 0 0).toNat ≠ len ∨ 20 < len then ⟨s, [], some .syntaxError⟩
  else
    let t0 := data.getD 1 0
    let hasTa := t0 &&& 0x10 ≠ 0
    let hasTb := t0 &&& 0x20 ≠ 0
    let hasTc := t0 &&& 0x40 ≠ 0
    let tbIndex := if hasTa then 3 else 2
    let tcIndex := if hasTb then tbIndex + 1 else tbIndex
    let index := if hasTc then tcIndex + 1 else tcIndex
    let ta := data.getD 2 0
    let tb := data.getD tbIndex 0
    let tc := data.getD tcIndex 0
    let fwi := if hasTb then (tb >>> 4).toNat else 4
    let sfgi := if hasTb then (tb &&& 0x0F).toNat else 0
    let tag : Tag :=
      { s.tag with
        fsc := (fsdValueMap env (t0 &&& 0x0F).toNat + (2 ^ 16 - 2)) % 2 ^ 16
        plDivisor := if hasTa then (ta &&& 0x07) <<< 1 else 0
        lpDivisor := if hasTa then (ta &&& 0x70) >>> 3 else 0
        fwt := 256 * 16 * 2 ^ fwi
        sfgt := if sfgi ≠ 0 then 256 * 16 * 2 ^ sfgi + 384 * 2 ^ sfgi else 6780
        didSupported := if hasTc then tc &&& 0x02 ≠ 0 else true
        nadSupported := if hasTc then tc &&& 0x01 ≠ 0 else false
        historical := if index < len then data.slice index (len - index) else s.tag.historical }
    ⟨{ s with tag := tag
              equalDivisor := s.equalDivisor || (hasTa && ta &&& 0x80 ≠ 0)
              blockNum := false
              firstTransfer := true
              state := .selected },
      callback env.cb.selected (.selected tag), none⟩

def retryLimit : Frame → Nat
  | .rats => env.ratsRetry
  | .i => env.nakRetry
  | .iChaining => env.ackRetry
  | .wtxResponse => env.wtxRetry
  | .deselect => env.deselectRetry
  | .none => 0

/-- What `isodep_error_handle` sends while retries are left. -/
def recoverySend : T4tIsodep × List Output :=
  match s.errStatus.lastFrame with
  | .rats => (s, callback env.cb.readyToSend (.readyToSend s.txFrame ratsFdt))
  | .i => s.rFrameSend env false
  | .iChaining => s.rFrameSend env true
  | .wtxResponse => (s, callback env.cb.readyToSend
      (.readyToSend s.txFrame (frameDelayTime (s.errStatus.wtx * s.tag.fwt))))
  | .deselect => (s, callback env.cb.readyToSend (.readyToSend s.txFrame fwtDeactivation))
  | .none => (s, [])

def errorHandle (timeout : Bool) : T4tIsodep × List Output :=
  let s := { s with errStatus.frameRetryCnt := s.errStatus.frameRetryCnt + 1 }
  if s.errStatus.lastFrame = .none ∨
      retryLimit env s.errStatus.lastFrame < s.errStatus.frameRetryCnt then
    { s with state := .initialized }.errNotify env
      (if timeout then .timeoutError else .transmissionError)
  else s.recoverySend env

/-- `nfc_t4t_isodep_init`, with buffers of the given sizes. -/
def init (txBuf : Memory) (sizeTx : Nat) (rxBuf : Memory) (sizeRx : Nat) : Outcome :=
  if sizeTx < 16 then ⟨s, [], some .EINVAL⟩
  else if sizeRx < 16 then ⟨s, [], some .EINVAL⟩
  else if s.state ≠ .uninitialized then ⟨s, [], some .EACCES⟩
  else ⟨{ s with txData := ⟨txBuf, s.txData.len, sizeTx⟩
                 rxData := ⟨rxBuf, s.rxData.len, sizeRx⟩
                 workPending := false
                 state := .initialized }, [], none⟩

def onTimeout : Outcome :=
  let (s', outputs) := s.errorHandle env true
  ⟨s', outputs, none⟩

def ratsSend (fsd : Nat) (did : UInt8) : Outcome :=
  if s.state = .initialized ∨ s.state = .selected then
    let s := { s with state := .transfer }
    if did > 14 then ⟨s, [], some .EINVAL⟩
    else if s.txData.bufSize < fsdValueMap env fsd then ⟨s, [], some .ENOMEM⟩
    else
      let frame := [0xE0, did &&& 0x0F ||| UInt8.ofNat (fsd * 16)]
      ⟨{ s with txData.data := s.txData.data.write 0 frame
                txData.len := 2
                tag.did := did
                fsd := fsdValueMap env fsd
                atsExpected := true
                errStatus.lastFrame := .rats },
        callback env.cb.readyToSend (.readyToSend frame ratsFdt), none⟩
  else ⟨s, [], some .EACCES⟩

def tagDeselect : Outcome :=
  if s.state = .selected then
    let frame := didInclude s.tag sBlock
    ⟨{ s with state := .transfer
              txData.data := s.txData.data.write 0 frame
              txData.len := frame.length
              errStatus.lastFrame := .deselect },
      callback env.cb.readyToSend (.readyToSend frame fwtDeactivation), none⟩
  else ⟨s, [], some .EACCES⟩

def frameHandle (data : Memory) (len : Nat) : Outcome :=
  let blockData := data.getD 0 0
  if blockData &&& blockFixedBit ≠ 0 then
    if blockData &&& sBlockIndicator ≠ 0 then s.sFrameHandle env data len
    else if blockData &&& rBlockIndicator ≠ 0 then s.rFrameHandle env data len
    else s.iFrameHandle env data len
  else ⟨s, [], some .semanticError⟩

def reportErr (o : Outcome) : Outcome :=
  match o.err with
  | none => o
  | some err =>
    let (s', outputs) := o.state.errNotify env err
    ⟨s', o.outputs ++ outputs, none⟩

/-- `nfc_t4t_isodep_data_received` at the time `now`; `data` is `none` for `NULL`. -/
def dataReceived (data : Option Memory) (len : Nat) (err : Bool) (now : Int) : Outcome :=
  match data with
  | none => ⟨s, [], some .EINVAL⟩
  | some data =>
    if len < 1 then ⟨s, [], some .ENOMEM⟩
    else if err then
      let (s', outputs) := s.errorHandle env false
      ⟨s', outputs, none⟩
    else if s.atsExpected then
      reportErr env ({ s with atsExpected := false }.atsParse env data len now)
    else reportErr env (s.frameHandle env data len)

/-- The state in which a transfer of `len` bytes starts. -/
def startTransfer (data : Memory) (len : Nat) : T4tIsodep :=
  { { s with state := .transfer }.transmissionClear with
    transmitData := data
    transmitLen := len
    firstTransfer := false }

/-- `nfc_t4t_isodep_transmit` at the time `now`. `k_uptime_delta` sets `ats_received_time`. -/
def transmit (data : Option Memory) (len : Nat) (now : Int) : Outcome :=
  match data with
  | none => ⟨s, [], some .EINVAL⟩
  | some data =>
    if len < 1 then ⟨s, [], some .ENOMEM⟩
    else if s.state = .selected then
      let s' := s.startTransfer data len
      let s' := { s' with atsReceivedTime := if s.firstTransfer then now else s.atsReceivedTime }
      let spentTime := now - s.atsReceivedTime
      if s.firstTransfer ∧ spentTime < fwtToMs s.tag.fwt then
        let delay := (fwtToMs s.tag.fwt - spentTime).toNat % 2 ^ 32
        let fails := env.workSubmitFails delay
        ⟨{ s' with workPending := s.workPending || !fails }, [.submit delay],
          if fails then some .work else none⟩
      else
        let (s', outputs) := s'.chunkSend env
        ⟨s', outputs, none⟩
    else ⟨s, [], some .EACCES⟩

/-- `isodep_delay_handler`, run by the work queue. -/
def delayHandler : Outcome :=
  let (s', outputs) := { s with workPending := false }.chunkSend env
  ⟨s', outputs, none⟩

end T4tIsodep

def T4tIsodep.received (s : T4tIsodep) (toggle : Bool) (inf : List UInt8) : T4tIsodep :=
  (if toggle then s.blockNumToggle else s).rxAppend inf

inductive Handled (env : Env) (s : T4tIsodep) : Outcome → Prop
  | failed (err : Err) : Handled env s ⟨s, [], some err⟩
  | deselected :
      Handled env s
        ⟨{ s with state := .initialized }, callback env.cb.deselected .deselected, none⟩
  | wtx (wtxm : UInt8) :
      Handled env s
        ⟨{ s with txData.data := s.txData.data.write 0 (s.wtxFrame wtxm)
                  txData.len := (s.wtxFrame wtxm).length
                  errStatus.lastFrame := .wtxResponse },
          callback env.cb.readyToSend
            (.readyToSend (s.wtxFrame wtxm) (frameDelayTime (s.tag.fwt * wtxm.toNat))), none⟩
  | nextChunk (hchaining : s.chaining = true) :
      Handled env s
        ⟨(s.blockNumToggle.chunkSend env).1, (s.blockNumToggle.chunkSend env).2, none⟩
  | retransmitted (hchaining : s.chaining = true) (hcb : env.cb.readyToSend = true) :
      Handled env s ⟨{ s with retransmitCnt := s.retransmitCnt + 1 },
        [.readyToSend s.txFrame (frameDelayTime s.tag.fwt)], none⟩
  | unsent : Handled env s ⟨s, [], none⟩
  | chained (toggle : Bool) (inf : List UInt8) :
      Handled env s
        ⟨({ s.received toggle inf with errStatus.lastFrame := .iChaining }.rFrameSend env true).1,
          ({ s.received toggle inf with errStatus.lastFrame := .iChaining }.rFrameSend env true).2,
          none⟩
  | completed (toggle : Bool) (inf : List UInt8) :
      Handled env s ⟨{ s.received toggle inf with state := .selected, errStatus.lastFrame := .i },
        callback env.cb.dataReceived (.dataReceived
          ((s.received toggle inf).rxData.data.take (s.received toggle inf).rxData.len)), none⟩

namespace T4tIsodep

variable (env : Env) (s : T4tIsodep) (data : Memory) (len : Nat)

theorem sFrameHandle_handled : Handled env s (s.sFrameHandle env data len) := by
  unfold sFrameHandle
  dsimp only
  split
  · split
    · split
      · exact .failed _
      · exact .deselected
    · exact .failed _
  · split
    · exact .failed _
    · split
      · exact .failed _
      · exact .wtx _

theorem rFrameHandle_handled : Handled env s (s.rFrameHandle env data len) := by
  unfold rFrameHandle
  dsimp only
  split
  · exact .failed _
  · split
    · exact .failed _
    · split
      · exact .failed _
      next hchaining =>
        have hchaining := not_not.mp hchaining
        split
        · exact .nextChunk hchaining
        · unfold retransmit
          split
          · exact .failed _
          · split
            next hcb => exact .retransmitted hchaining hcb
            next => exact .unsent

theorem iFrameHandle_handled : Handled env s (s.iFrameHandle env data len) := by
  unfold iFrameHandle
  dsimp only
  split
  · exact .failed _
  · split
    · exact .failed _
    · by_cases htoggle : data.getD 0 0 &&& blockNumMask = blockNumBit s.blockNum
      · rw [if_pos htoggle]
        split
        · exact .chained true _
        · exact .completed true _
      · rw [if_neg htoggle]
        split
        · exact .chained false _
        · exact .completed false _

theorem frameHandle_handled : Handled env s (s.frameHandle env data len) := by
  unfold frameHandle
  dsimp only
  split
  · split
    · exact sFrameHandle_handled env s data len
    · split
      · exact rFrameHandle_handled env s data len
      · exact iFrameHandle_handled env s data len
  · exact .failed _

end T4tIsodep

/-- The outcomes of `nfc_t4t_isodep_transmit`. -/
inductive Transmitted (env : Env) (s : T4tIsodep) (data : Option Memory) (len : Nat) :
    Outcome → Prop
  | refused (err : Err) (hrefused : data = none ∨ len < 1 ∨ s.state ≠ .selected) :
      Transmitted env s data len ⟨s, [], some err⟩
  | delayed (bytes : Memory) (time : Int) (pending fails : Bool) (delay : Nat)
      (hdata : data = some bytes) (hsel : s.state = .selected) (hfirst : s.firstTransfer = true)
      (hfails : fails = env.workSubmitFails delay) :
      Transmitted env s data len
        ⟨{ s.startTransfer bytes len with atsReceivedTime := time, workPending := pending },
          [.submit delay], if fails then some .work else none⟩
  | sent (bytes : Memory) (time : Int) (hdata : data = some bytes) (hsel : s.state = .selected) :
      Transmitted env s data len
        ⟨({ s.startTransfer bytes len with atsReceivedTime := time }.chunkSend env).1,
          ({ s.startTransfer bytes len with atsReceivedTime := time }.chunkSend env).2, none⟩

theorem T4tIsodep.transmit_transmitted (env : Env) (s : T4tIsodep) (data : Option Memory) (len : Nat)
    (now : Int) : Transmitted env s data len (s.transmit env data len now) := by
  unfold transmit
  cases data with
  | none => exact .refused _ (Or.inl rfl)
  | some bytes =>
    dsimp only
    split
    next hlen => exact .refused _ (Or.inr (Or.inl hlen))
    next hlen =>
      split
      next hsel =>
        split
        next hdelay => exact .delayed bytes _ _ _ _ rfl hsel hdelay.1 rfl
        next hdelay => exact .sent bytes _ rfl hsel
      next hsel => exact .refused _ (Or.inr (Or.inr hsel))

inductive Call
  | ratsSend (fsd : Nat) (did : UInt8)
  | tagDeselect
  | transmit (data : Option Memory) (len : Nat) (now : Int)
  | dataReceived (data : Option Memory) (len : Nat) (err : Bool) (now : Int)
  | onTimeout
  | delayHandler

def Call.run (env : Env) (s : T4tIsodep) : Call → Outcome
  | .ratsSend fsd did => s.ratsSend env fsd did
  | .tagDeselect => s.tagDeselect env
  | .transmit data len now => s.transmit env data len now
  | .dataReceived data len err now => s.dataReceived env data len err now
  | .onTimeout => s.onTimeout env
  | .delayHandler => s.delayHandler env

def Call.Enabled (s : T4tIsodep) : Call → Prop
  | .delayHandler => s.workPending
  | _ => True

def T4tIsodep.reset : T4tIsodep :=
  ⟨.uninitialized, ⟨0, 0, 0, 0, 0, 0, [], false, false⟩, ⟨[], 0, 0⟩, ⟨[], 0, 0⟩, ⟨.none, 0, 0⟩, 0,
    false, 0, [], 0, 0, false, false, false, false, 0, false⟩

/-- The states after a successful initialisation, with buffers of the given sizes, and any calls. -/
inductive Reachable (env : Env) : T4tIsodep → Prop
  | init {txBuf rxBuf : Memory} {sizeTx sizeRx : Nat} (htx : sizeTx ≤ txBuf.length)
      (hrx : sizeRx ≤ rxBuf.length)
      (h : (T4tIsodep.reset.init txBuf sizeTx rxBuf sizeRx).err = none) :
      Reachable env (T4tIsodep.reset.init txBuf sizeTx rxBuf sizeRx).state
  | call {s : T4tIsodep} (hs : Reachable env s) (c : Call) (hc : c.Enabled s) :
      Reachable env (c.run env s).state

end SdkNrf.Isodep
