import SdkNrf.Isodep.Chunking

/-!
# Retransmission of I-blocks

An R(ACK) with the other block number asks for the last I-block again, and the reader sends what is in its Tx
buffer.
-/

namespace SdkNrf.Isodep

def Call.InTransfer : Call → Prop
  | .dataReceived .. | .onTimeout | .delayHandler => True
  | _ => False

/-- The states of a transfer of `data` that starts in `s`, with the frames that were handed to
`ready_to_send` so far. -/
inductive TransferRun (env : Env) (s : T4tIsodep) (data : Memory) (now : Int) :
    T4tIsodep → List (List UInt8) → Prop
  | start :
      TransferRun env s data now (s.transmit env (some data) data.length now).state
        (framesOf (s.transmit env (some data) data.length now).outputs)
  | step {s' : T4tIsodep} {sent : List (List UInt8)} (hrun : TransferRun env s data now s' sent)
      (c : Call) (hc : c.InTransfer) (henabled : c.Enabled s') :
      TransferRun env s data now (c.run env s').state (sent ++ framesOf (c.run env s').outputs)

def isIBlock (frame : List UInt8) : Bool := pcb frame &&& 0xE2 = iBlock

def lastIBlock (sent : List (List UInt8)) : Option (List UInt8) := (sent.filter isIBlock).getLast?

/-- The last frame that was sent is an I-block: nothing else was sent behind the last I-block. -/
def LastIsIBlock (sent : List (List UInt8)) : Prop :=
  ∃ frame, sent.getLast? = some frame ∧ isIBlock frame = true

/-- The received bytes are an R(ACK) with the other block number, for which the reader still sends
its last block again. -/
structure Retransmission (s : T4tIsodep) (data : Memory) (len : Nat) : Prop where
  ats : s.atsExpected = false
  len_pos : 1 ≤ len
  fixed : pcb data &&& blockFixedBit ≠ 0
  notS : pcb data &&& sBlockIndicator = 0
  isR : pcb data &&& rBlockIndicator ≠ 0
  len_le : len ≤ T4tIsodep.headerEnd (pcb data)
  ack : pcb data &&& rBlockNak = 0
  chaining : s.chaining = true
  number : pcb data &&& blockNumMask ≠ blockNumBit s.blockNum
  count : s.retransmitCnt ≤ maxRetransmitCnt

theorem Retransmission.dataReceived {env : Env} {s : T4tIsodep} {data : Memory} {len : Nat}
    (h : Retransmission s data len) (hcb : env.cb.readyToSend = true) (now : Int) :
    (s.dataReceived env (some data) len false now).outputs =
      [.readyToSend s.txFrame (frameDelayTime s.tag.fwt)] := by
  have hpos := h.len_pos
  have hle := h.len_le
  have hcount := h.count
  simp only [T4tIsodep.dataReceived, T4tIsodep.frameHandle, T4tIsodep.rFrameHandle,
    T4tIsodep.retransmit, h.ats]
  rw [show data.getD 0 0 = pcb data from rfl, if_neg (by omega), if_neg (by decide),
    if_neg (by decide), if_pos h.fixed,
    if_neg (not_not.mpr h.notS), if_pos h.isR, if_neg (Nat.not_lt.mpr hle),
    if_neg (not_not.mpr h.ack), if_neg (not_not.mpr h.chaining), if_neg h.number,
    if_neg (Nat.not_lt.mpr hcount), if_pos hcb]
  rfl

structure TxHolds (s : T4tIsodep) (sent : List (List UInt8)) : Prop where
  iBlock : ∀ frame, sent.getLast? = some frame → isIBlock frame = true → s.txFrame = frame
  other : ∀ frame, sent.getLast? = some frame → isIBlock frame = false →
    isIBlock s.txFrame = false

structure InData (s : T4tIsodep) : Prop where
  transmitted_le : s.transmittedLen ≤ s.transmitLen
  len_le : s.transmitLen ≤ s.transmitData.length
  len_lt : s.transmitLen < 2 ^ 32

structure TransferInv (s : T4tIsodep) (sent : List (List UInt8)) : Prop where
  inData : InData s
  txHolds : TxHolds s sent

section Frames

variable {s s' : T4tIsodep} {sent : List (List UInt8)} {frame : List UInt8}

theorem TxHolds.of_eq (h : TxHolds s sent) (heq : s'.txFrame = s.txFrame) : TxHolds s' sent := by
  constructor
  · rw [heq]
    exact h.iBlock
  · rw [heq]
    exact h.other

theorem TxHolds.nil (s : T4tIsodep) : TxHolds s [] :=
  ⟨fun _ h => (by cases h), fun _ h => (by cases h)⟩

theorem TxHolds.append_txFrame (heq : s.txFrame = frame) : TxHolds s (sent ++ [frame]) := by
  constructor <;> intro f hf <;> rw [List.getLast?_concat, Option.some.injEq] at hf <;> subst hf
  · exact fun _ => heq
  · exact fun h => heq ▸ h

theorem TxHolds.append_other (hframe : isIBlock frame = false) (htx : isIBlock s.txFrame = false) :
    TxHolds s (sent ++ [frame]) := by
  constructor <;> intro f hf <;> rw [List.getLast?_concat, Option.some.injEq] at hf <;> subst hf
  · intro h
    rw [hframe] at h
    cases h
  · exact fun _ => htx

end Frames

namespace T4tIsodep

variable {env : Env} {s : T4tIsodep}

theorem chunkLen_le : s.chunkLen ≤ subU32 s.transmitLen s.transmittedLen := by
  unfold chunkLen
  split
  next h => exact Nat.le_of_lt (of_decide_eq_true h)
  next => exact Nat.le_refl _

end T4tIsodep

theorem InData.chunkLen_le {s : T4tIsodep} (h : InData s) :
    s.transmittedLen + s.chunkLen ≤ s.transmitLen := by
  have hle := h.transmitted_le
  have hchunk := s.chunkLen_le
  rw [subU32_of_le hle h.len_lt] at hchunk
  omega

theorem InData.chunkSend {env : Env} {s : T4tIsodep} (h : InData s) :
    InData (s.chunkSend env).1 :=
  ⟨h.chunkLen_le, h.len_le, h.len_lt⟩

theorem InData.txFrame_chunkSend {env : Env} {s : T4tIsodep} (h : InData s) :
    (s.chunkSend env).1.txFrame = s.chunkFrame := by
  have hle := h.chunkLen_le
  have hdata := h.len_le
  have hlen : s.chunkFrame.length = headerLen s.tag + s.chunkLen := by
    rw [T4tIsodep.chunkFrame, List.length_append, length_didInclude, Memory.slice,
      List.length_take, List.length_drop]
    omega
  rw [T4tIsodep.txFrame]
  simp only [T4tIsodep.chunkSend]
  rw [← hlen, Memory.write, List.take_zero, List.nil_append, List.take_left]

private theorem pcb_take_write {tx frame : Memory} {len : Nat} (hframe : frame ≠ [])
    (hlen : len ≠ 0) : pcb ((tx.write 0 frame).take len) = pcb frame := by
  cases frame with
  | nil => exact absurd rfl hframe
  | cons b rest =>
    cases len with
    | zero => exact absurd rfl hlen
    | succ len => rfl

theorem didInclude_ne_nil (tag : Tag) (b : UInt8) : didInclude tag b ≠ [] := by
  unfold didInclude
  split <;> exact List.cons_ne_nil _ _

theorem isIBlock_rFrame (s : T4tIsodep) (ack : Bool) : isIBlock (s.rFrame ack) = false := by
  have h := pcb_didInclude s.tag (rBlock ||| blockNumBit s.blockNum ||| if ack then 0 else rBlockNak)
    []
  rw [List.append_nil] at h
  unfold isIBlock T4tIsodep.rFrame
  rcases h with h | h <;> rw [h] <;> cases s.blockNum <;> cases ack <;> decide

theorem isIBlock_rFrameSend (env : Env) (s : T4tIsodep) (ack : Bool) :
    isIBlock (s.rFrameSend env ack).1.txFrame = false := by
  have heq : (s.rFrameSend env ack).1.txFrame =
      (s.txData.data.write 0 (s.rFrame ack)).take s.txData.len := rfl
  rw [heq]
  by_cases hlen : s.txData.len = 0
  · rw [hlen, List.take_zero]
    decide
  · have h := isIBlock_rFrame s ack
    unfold isIBlock at h ⊢
    have hne : s.rFrame ack ≠ [] := didInclude_ne_nil _ _
    rwa [pcb_take_write hne hlen]

theorem txFrame_wtx (s : T4tIsodep) (wtxm : UInt8) (lastFrame : Frame) :
    T4tIsodep.txFrame { s with txData.data := s.txData.data.write 0 (s.wtxFrame wtxm)
                               txData.len := (s.wtxFrame wtxm).length
                               errStatus.lastFrame := lastFrame } = s.wtxFrame wtxm := by
  rw [T4tIsodep.txFrame, Memory.write, List.take_zero, List.nil_append, List.take_left]

section Steps

variable {env : Env} {s : T4tIsodep} {sent : List (List UInt8)}

theorem framesOf_callback_readyToSend (hcb : env.cb.readyToSend = true) (frame : List UInt8)
    (fdt : Nat) : framesOf (callback env.cb.readyToSend (.readyToSend frame fdt)) = [frame] := by
  rw [callback, if_pos hcb]
  rfl

theorem framesOf_callback_of_none {registered : Bool} {output : Output}
    (h : output.frame? = none) : framesOf (callback registered output) = [] := by
  cases registered
  · rfl
  · simp [callback, framesOf, h]

theorem TransferInv.chunkSend (hcb : env.cb.readyToSend = true) (h : TransferInv s sent) :
    TransferInv (s.chunkSend env).1 (sent ++ framesOf (s.chunkSend env).2) := by
  have hsent : framesOf (s.chunkSend env).2 = [s.chunkFrame] :=
    framesOf_callback_readyToSend hcb _ _
  rw [hsent]
  exact ⟨h.inData.chunkSend, .append_txFrame h.inData.txFrame_chunkSend⟩

theorem TransferInv.rFrameSend (hcb : env.cb.readyToSend = true) (h : InData s) (ack : Bool) :
    TransferInv (s.rFrameSend env ack).1 (sent ++ framesOf (s.rFrameSend env ack).2) := by
  have hsent : framesOf (s.rFrameSend env ack).2 = [s.rFrame ack] :=
    framesOf_callback_readyToSend hcb _ _
  rw [hsent]
  exact ⟨⟨h.transmitted_le, h.len_le, h.len_lt⟩,
    .append_other (isIBlock_rFrame s ack) (isIBlock_rFrameSend env s ack)⟩

theorem InData.received (h : InData s) (toggle : Bool) (inf : List UInt8) :
    InData (s.received toggle inf) := by
  cases toggle <;> exact ⟨h.transmitted_le, h.len_le, h.len_lt⟩

theorem TransferInv.handled (hcb : env.cb.readyToSend = true) (h : TransferInv s sent)
    {o : Outcome} (ho : Handled env s o) : TransferInv o.state (sent ++ framesOf o.outputs) := by
  have hkeep : sent ++ framesOf [] = sent := List.append_nil _
  cases ho with
  | failed err => rwa [hkeep]
  | deselected =>
    rw [framesOf_callback_of_none rfl, List.append_nil]
    exact ⟨⟨h.inData.transmitted_le, h.inData.len_le, h.inData.len_lt⟩, h.txHolds.of_eq rfl⟩
  | wtx wtxm =>
    rw [framesOf_callback_readyToSend hcb]
    exact ⟨⟨h.inData.transmitted_le, h.inData.len_le, h.inData.len_lt⟩,
      .append_txFrame (txFrame_wtx s wtxm _)⟩
  | nextChunk hchaining =>
    have htoggled : TransferInv s.blockNumToggle sent :=
      ⟨⟨h.inData.transmitted_le, h.inData.len_le, h.inData.len_lt⟩, h.txHolds.of_eq rfl⟩
    exact htoggled.chunkSend hcb
  | retransmitted hchaining hregistered =>
    exact ⟨⟨h.inData.transmitted_le, h.inData.len_le, h.inData.len_lt⟩, .append_txFrame rfl⟩
  | unsent => rwa [hkeep]
  | chained toggle inf =>
    have hdata := h.inData.received toggle inf
    exact TransferInv.rFrameSend hcb (s := { s.received toggle inf with
      errStatus.lastFrame := .iChaining }) ⟨hdata.transmitted_le, hdata.len_le, hdata.len_lt⟩ true
  | completed toggle inf =>
    have hdata := h.inData.received toggle inf
    rw [framesOf_callback_of_none rfl, List.append_nil]
    refine ⟨⟨hdata.transmitted_le, hdata.len_le, hdata.len_lt⟩, h.txHolds.of_eq ?_⟩
    cases toggle <;> rfl

variable (env) in

theorem TransferInv.errNotify (h : TransferInv s sent) (err : Err) :
    TransferInv (s.errNotify env err).1 (sent ++ framesOf (s.errNotify env err).2) := by
  have hsent : framesOf (s.errNotify env err).2 = [] := framesOf_callback_of_none rfl
  rw [hsent, List.append_nil]
  exact ⟨⟨Nat.le_refl 0, Nat.zero_le _, Nat.two_pow_pos 32⟩, h.txHolds.of_eq rfl⟩

theorem TransferInv.reportErr {o : Outcome} (h : TransferInv o.state (sent ++ framesOf o.outputs)) :
    TransferInv (T4tIsodep.reportErr env o).state
      (sent ++ framesOf (T4tIsodep.reportErr env o).outputs) := by
  unfold T4tIsodep.reportErr
  split
  · exact h
  next err herr =>
    have hnotified := h.errNotify env err
    rw [List.append_assoc] at hnotified
    simpa only [framesOf, List.filterMap_append] using hnotified

theorem TransferInv.errorHandle (hcb : env.cb.readyToSend = true) (h : TransferInv s sent)
    (timeout : Bool) :
    TransferInv (s.errorHandle env timeout).1 (sent ++ framesOf (s.errorHandle env timeout).2) := by
  have hdata : InData { s with errStatus.frameRetryCnt := s.errStatus.frameRetryCnt + 1 } :=
    ⟨h.inData.transmitted_le, h.inData.len_le, h.inData.len_lt⟩
  unfold T4tIsodep.errorHandle
  dsimp only
  split
  · have hreset : TransferInv { s with
        errStatus.frameRetryCnt := s.errStatus.frameRetryCnt + 1
        state := .initialized } sent :=
      ⟨⟨h.inData.transmitted_le, h.inData.len_le, h.inData.len_lt⟩, h.txHolds.of_eq rfl⟩
    exact hreset.errNotify env _
  · unfold T4tIsodep.recoverySend
    split
    · rw [framesOf_callback_readyToSend hcb]
      exact ⟨hdata, .append_txFrame rfl⟩
    · exact TransferInv.rFrameSend hcb hdata false
    · exact TransferInv.rFrameSend hcb hdata true
    · rw [framesOf_callback_readyToSend hcb]
      exact ⟨hdata, .append_txFrame rfl⟩
    · rw [framesOf_callback_readyToSend hcb]
      exact ⟨hdata, .append_txFrame rfl⟩
    · exact ⟨hdata, (List.append_nil sent).symm ▸ h.txHolds.of_eq rfl⟩

theorem TransferInv.atsParse (h : TransferInv s sent) (data : Memory) (len : Nat) (now : Int) :
    TransferInv (s.atsParse env data len now).state
      (sent ++ framesOf (s.atsParse env data len now).outputs) := by
  have hkeep : sent ++ framesOf [] = sent := List.append_nil _
  unfold T4tIsodep.atsParse
  dsimp only
  split
  · rw [hkeep]
    exact ⟨⟨h.inData.transmitted_le, h.inData.len_le, h.inData.len_lt⟩, h.txHolds.of_eq rfl⟩
  · split
    · rw [hkeep]
      exact ⟨⟨h.inData.transmitted_le, h.inData.len_le, h.inData.len_lt⟩, h.txHolds.of_eq rfl⟩
    · rw [framesOf_callback_of_none rfl, List.append_nil]
      exact ⟨⟨h.inData.transmitted_le, h.inData.len_le, h.inData.len_lt⟩, h.txHolds.of_eq rfl⟩

theorem TransferInv.dataReceived (hcb : env.cb.readyToSend = true) (h : TransferInv s sent)
    (data : Option Memory) (len : Nat) (err : Bool) (now : Int) :
    TransferInv (s.dataReceived env data len err now).state
      (sent ++ framesOf (s.dataReceived env data len err now).outputs) := by
  have hkeep : sent ++ framesOf [] = sent := List.append_nil _
  unfold T4tIsodep.dataReceived
  cases data with
  | none => rwa [hkeep]
  | some data =>
    dsimp only
    split
    · rwa [hkeep]
    · split
      · exact h.errorHandle hcb false
      · split
        · have hwithout : TransferInv { s with atsExpected := false } sent :=
            ⟨⟨h.inData.transmitted_le, h.inData.len_le, h.inData.len_lt⟩, h.txHolds.of_eq rfl⟩
          exact (hwithout.atsParse data len now).reportErr
        · exact (h.handled hcb (T4tIsodep.frameHandle_handled env s data len)).reportErr

theorem TransferInv.run (hcb : env.cb.readyToSend = true) (h : TransferInv s sent) {c : Call}
    (hc : c.InTransfer) : TransferInv (c.run env s).state (sent ++ framesOf (c.run env s).outputs) := by
  cases c with
  | ratsSend fsd did => cases hc
  | tagDeselect => cases hc
  | transmit data len now => cases hc
  | dataReceived data len err now => exact h.dataReceived hcb data len err now
  | onTimeout => exact h.errorHandle hcb true
  | delayHandler =>
    have hidle : TransferInv { s with workPending := false } sent :=
      ⟨⟨h.inData.transmitted_le, h.inData.len_le, h.inData.len_lt⟩, h.txHolds.of_eq rfl⟩
    exact hidle.chunkSend hcb

end Steps

theorem transmit_transferInv {env : Env} (hcb : env.cb.readyToSend = true) {s : T4tIsodep}
    (hsel : s.state = .selected) {data : Memory} (hdata : data ≠ []) (hlt : data.length < 2 ^ 32)
    (now : Int) :
    TransferInv (s.transmit env (some data) data.length now).state
      (framesOf (s.transmit env (some data) data.length now).outputs) := by
  have hpos := List.length_pos_iff.mpr hdata
  have htransmitted := s.transmit_transmitted env (some data) data.length now
  generalize s.transmit env (some data) data.length now = o at htransmitted
  cases htransmitted with
  | refused err hrefused =>
    rcases hrefused with h | h | h
    · cases h
    · omega
    · exact absurd hsel h
  | delayed bytes time pending fails delay hbytes =>
    cases hbytes
    exact ⟨⟨Nat.zero_le _, Nat.le_refl _, hlt⟩, .nil _⟩
  | sent bytes time hbytes =>
    cases hbytes
    have hstart : TransferInv { s.startTransfer data data.length with atsReceivedTime := time } [] :=
      ⟨⟨Nat.zero_le _, Nat.le_refl _, hlt⟩, .nil _⟩
    exact hstart.chunkSend hcb

theorem TransferRun.transferInv {env : Env} (hcb : env.cb.readyToSend = true) {s s' : T4tIsodep}
    (hsel : s.state = .selected) {data : Memory} (hdata : data ≠ []) (hlt : data.length < 2 ^ 32)
    {now : Int} {sent : List (List UInt8)} (hrun : TransferRun env s data now s' sent) :
    TransferInv s' sent := by
  induction hrun with
  | start => exact transmit_transferInv hcb hsel hdata hlt now
  | step hrun c hc henabled ih => exact ih.run hcb hc

theorem lastIBlock_of_getLast? {sent : List (List UInt8)} {frame : List UInt8}
    (hlast : sent.getLast? = some frame) (hframe : isIBlock frame = true) :
    lastIBlock sent = some frame := by
  obtain ⟨init, rfl⟩ := List.getLast?_eq_some_iff.mp hlast
  rw [lastIBlock, List.filter_append, List.filter_cons_of_pos hframe, List.filter_nil,
    List.getLast?_concat]

theorem isIBlock_of_lastIBlock {sent : List (List UInt8)} {frame : List UInt8}
    (hlast : lastIBlock sent = some frame) : isIBlock frame = true :=
  (List.mem_filter.mp (List.mem_of_getLast? hlast)).2

/-- In every run of a transfer, the frame that an R(ACK) with the other block number makes the reader
send is the last I-block exactly when nothing else was sent behind that I-block. -/
theorem retransmission_eq_lastIBlock_iff {env : Env} (hcb : env.cb.readyToSend = true)
    {s s' : T4tIsodep} (hsel : s.state = .selected) {data : Memory} (hdata : data ≠ [])
    (hlt : data.length < 2 ^ 32) {now : Int} {sent : List (List UInt8)}
    (hrun : TransferRun env s data now s' sent) {bytes : Memory} {len : Nat}
    (hack : Retransmission s' bytes len) (time : Int) :
    ∃ frame fdt, (s'.dataReceived env (some bytes) len false time).outputs =
        [.readyToSend frame fdt] ∧
      (lastIBlock sent = some frame ↔ LastIsIBlock sent) := by
  have hholds := (hrun.transferInv hcb hsel hdata hlt).txHolds
  refine ⟨s'.txFrame, _, hack.dataReceived hcb time, ?_⟩
  constructor
  · intro hlast
    have hblock := isIBlock_of_lastIBlock hlast
    cases hend : sent.getLast? with
    | none =>
      rw [List.getLast?_eq_none_iff] at hend
      rw [hend] at hlast
      cases hlast
    | some frame =>
      refine ⟨frame, hend, ?_⟩
      by_contra hother
      have := hholds.other frame hend (eq_false_of_ne_true hother)
      rw [hblock] at this
      cases this
  · rintro ⟨frame, hend, hframe⟩
    rw [hholds.iBlock frame hend hframe]
    exact lastIBlock_of_getLast? hend hframe

private def firstBlockSent : Outcome :=
  selectedState.transmit defaultEnv (some (List.replicate 30 0x55)) 30 1000

private theorem firstBlockSent_retransmission :
    Retransmission firstBlockSent.state (ackFrame none true) 1 := by
  constructor <;> decide

theorem firstBlockSent_retransmitted : ∃ frame fdt,
    (firstBlockSent.state.dataReceived defaultEnv (some (ackFrame none true)) 1 false 0).outputs =
      [.readyToSend frame fdt] ∧ lastIBlock (framesOf firstBlockSent.outputs) = some frame := by
  have hrun : TransferRun defaultEnv selectedState (List.replicate 30 0x55) 1000
    firstBlockSent.state (framesOf firstBlockSent.outputs) := .start
  obtain ⟨frame, fdt, houtputs, hiff⟩ := retransmission_eq_lastIBlock_iff rfl (by decide)
    (by decide) (by decide) hrun firstBlockSent_retransmission 0
  have hlast : LastIsIBlock (framesOf firstBlockSent.outputs) :=
    ⟨0x12 :: List.replicate 13 0x55, by decide, by decide⟩
  exact ⟨frame, fdt, houtputs, hiff.mpr hlast⟩

private def answerLost : Outcome := firstBlockSent.state.onTimeout defaultEnv

/-- The R(ACK) that follows brings the R(NAK) in front of the old block's information field. -/
theorem answerLost_not_retransmitted :
    TransferRun defaultEnv selectedState (List.replicate 30 0x55) 1000 answerLost.state
        (framesOf firstBlockSent.outputs ++ framesOf answerLost.outputs) ∧
      Retransmission answerLost.state (ackFrame none true) 1 ∧
      ∃ frame fdt,
        (answerLost.state.dataReceived defaultEnv (some (ackFrame none true)) 1 false 0).outputs =
            [.readyToSend frame fdt] ∧
          lastIBlock (framesOf firstBlockSent.outputs ++ framesOf answerLost.outputs) ≠
            some frame := by
  have hstart : TransferRun defaultEnv selectedState (List.replicate 30 0x55) 1000
    firstBlockSent.state (framesOf firstBlockSent.outputs) := .start
  refine ⟨hstart.step .onTimeout trivial trivial, ?_, 0xB2 :: List.replicate 13 0x55, 337072, ?_, ?_⟩
  · constructor <;> decide
  · decide
  · decide

end SdkNrf.Isodep
