import SdkNrf.Isodep.Protocol

/-!
# Chunking of transmitted data

A transfer cuts its data into I-blocks.
-/

namespace SdkNrf.Isodep

def pcb (frame : List UInt8) : UInt8 := frame.getD 0 0

/-- The I-blocks `frames` carry `data`, with headers of `header` bytes, frames of at most `fsc`
bytes and block numbers from `blockNum` on. -/
structure Carries (header fsc : Nat) (blockNum : Bool) (data : List UInt8)
    (frames : List (List UInt8)) : Prop where
  nonempty : frames ≠ []
  concat : (frames.map (·.drop header)).flatten = data
  length_le : ∀ frame ∈ frames, frame.length ≤ fsc
  iBlocks : ∀ frame ∈ frames, pcb frame &&& 0xE2 = iBlock
  chaining : ∀ k frame, frames[k]? = some frame →
    (pcb frame &&& iBlockChainingBit ≠ 0 ↔ k + 1 < frames.length)
  numbers : ∀ k frame, frames[k]? = some frame →
    pcb frame &&& blockNumMask = blockNumBit (blockNum ^^ decide (k % 2 = 1))

section Carries

variable {header fsc : Nat} {blockNum : Bool} {data : List UInt8} {frame : List UInt8}
  {frames : List (List UInt8)}

theorem Carries.singleton (hlen : frame.length ≤ fsc) (hblock : pcb frame &&& 0xE2 = iBlock)
    (hlast : pcb frame &&& iBlockChainingBit = 0)
    (hnum : pcb frame &&& blockNumMask = blockNumBit blockNum) :
    Carries header fsc blockNum (frame.drop header) [frame] := by
  constructor
  case nonempty => exact List.cons_ne_nil _ _
  case concat => simp
  case length_le => simpa using hlen
  case iBlocks => simpa using hblock
  case chaining =>
    intro k f hk
    cases k with
    | zero =>
      cases hk
      simp [hlast]
    | succ k => cases hk
  case numbers =>
    intro k f hk
    cases k with
    | zero =>
      cases hk
      simpa using hnum
    | succ k => cases hk

theorem Carries.cons (h : Carries header fsc (!blockNum) data frames) (hlen : frame.length ≤ fsc)
    (hblock : pcb frame &&& 0xE2 = iBlock) (hchained : pcb frame &&& iBlockChainingBit ≠ 0)
    (hnum : pcb frame &&& blockNumMask = blockNumBit blockNum) :
    Carries header fsc blockNum (frame.drop header ++ data) (frame :: frames) := by
  have hpos : 0 < frames.length := List.length_pos_iff.mpr h.nonempty
  constructor
  case nonempty => exact List.cons_ne_nil _ _
  case concat => rw [List.map_cons, List.flatten_cons, h.concat]
  case length_le => exact List.forall_mem_cons.mpr ⟨hlen, h.length_le⟩
  case iBlocks => exact List.forall_mem_cons.mpr ⟨hblock, h.iBlocks⟩
  case chaining =>
    intro k f hk
    cases k with
    | zero =>
      cases hk
      simp [hchained, hpos]
    | succ k =>
      rw [h.chaining k f hk, List.length_cons]
      omega
  case numbers =>
    intro k f hk
    cases k with
    | zero =>
      cases hk
      simpa using hnum
    | succ k =>
      rw [h.numbers k f hk]
      congr 1
      have hparity : decide ((k + 1) % 2 = 1) = !decide (k % 2 = 1) := by
        rw [← decide_not, decide_eq_decide]
        omega
      rw [hparity]
      cases blockNum <;> cases decide (k % 2 = 1) <;> rfl

end Carries

theorem pcb_didInclude (tag : Tag) (b : UInt8) (rest : List UInt8) :
    pcb (didInclude tag b ++ rest) = b ∨ pcb (didInclude tag b ++ rest) = b ||| iBlockDidBit := by
  unfold didInclude
  split
  · exact Or.inr rfl
  · exact Or.inl rfl

theorem pcb_iBlock (tag : Tag) (blockNum chains : Bool) (rest : List UInt8) :
    pcb (didInclude tag (iBlock ||| blockNumBit blockNum |||
        if chains then iBlockChainingBit else 0) ++ rest) &&& 0xE2 = iBlock ∧
      (pcb (didInclude tag (iBlock ||| blockNumBit blockNum |||
        if chains then iBlockChainingBit else 0) ++ rest) &&& iBlockChainingBit ≠ 0 ↔
          chains = true) ∧
      pcb (didInclude tag (iBlock ||| blockNumBit blockNum |||
        if chains then iBlockChainingBit else 0) ++ rest) &&& blockNumMask =
          blockNumBit blockNum := by
  rcases pcb_didInclude tag (iBlock ||| blockNumBit blockNum |||
      if chains then iBlockChainingBit else 0) rest with h | h <;> rw [h] <;>
    cases blockNum <;> cases chains <;> decide

namespace T4tIsodep

variable {env : Env} {s : T4tIsodep} {data : List UInt8} {t : Nat}

/-- The state is about to send `data` from `t` on. -/
structure SendsFrom (s : T4tIsodep) (data : List UInt8) (t : Nat) : Prop where
  transmitData : s.transmitData = data
  transmitLen : s.transmitLen = data.length
  transmittedLen : s.transmittedLen = t
  atsExpected : s.atsExpected = false

/-- The header leaves room in a frame, and the lengths are `size_t` values. -/
structure Roomy (s : T4tIsodep) (data : List UInt8) : Prop where
  header_lt : headerLen s.tag < s.tag.fsc
  fsc_lt : s.tag.fsc < 2 ^ 32
  length_lt : data.length < 2 ^ 32

theorem SendsFrom.left (h : s.SendsFrom data t) (hroom : s.Roomy data) (ht : t ≤ data.length) :
    subU32 s.transmitLen s.transmittedLen = data.length - t := by
  rw [h.transmitLen, h.transmittedLen]
  exact subU32_of_le ht hroom.length_lt

theorem Roomy.room (hroom : s.Roomy data) :
    subU32 s.tag.fsc (headerLen s.tag) = s.tag.fsc - headerLen s.tag :=
  subU32_of_le (Nat.le_of_lt hroom.header_lt) hroom.fsc_lt

theorem SendsFrom.chunkChains_iff (h : s.SendsFrom data t) (hroom : s.Roomy data)
    (ht : t ≤ data.length) :
    s.chunkChains = true ↔ s.tag.fsc - headerLen s.tag < data.length - t := by
  rw [chunkChains, h.left hroom ht, hroom.room, decide_eq_true_iff]

theorem SendsFrom.chunkLen_eq (h : s.SendsFrom data t) (hroom : s.Roomy data)
    (ht : t ≤ data.length) :
    s.chunkLen = min (s.tag.fsc - headerLen s.tag) (data.length - t) := by
  unfold chunkLen
  rw [h.left hroom ht, hroom.room]
  split
  next hc =>
    have := (h.chunkChains_iff hroom ht).mp hc
    omega
  next hc =>
    have := mt (h.chunkChains_iff hroom ht).mpr hc
    omega

theorem SendsFrom.chunkFrame_drop (h : s.SendsFrom data t) :
    s.chunkFrame.drop (headerLen s.tag) = (data.drop t).take s.chunkLen := by
  rw [chunkFrame, ← length_didInclude, List.drop_left, h.transmitData, h.transmittedLen,
    Memory.slice]

theorem SendsFrom.chunkFrame_length (h : s.SendsFrom data t) (hroom : s.Roomy data)
    (ht : t ≤ data.length) : s.chunkFrame.length ≤ s.tag.fsc := by
  have hlt := hroom.header_lt
  have hlen := h.chunkLen_eq hroom ht
  rw [chunkFrame, List.length_append, length_didInclude, Memory.slice, List.length_take]
  omega

theorem SendsFrom.chunkSend (h : s.SendsFrom data t) :
    (s.chunkSend env).1.SendsFrom data (t + s.chunkLen) := by
  constructor
  · exact h.transmitData
  · exact h.transmitLen
  · exact congrArg (· + s.chunkLen) h.transmittedLen
  · exact h.atsExpected

theorem SendsFrom.blockNumToggle (h : s.SendsFrom data t) : s.blockNumToggle.SendsFrom data t :=
  ⟨h.transmitData, h.transmitLen, h.transmittedLen, h.atsExpected⟩

end T4tIsodep

def ackFrame (did : Option UInt8) (blockNum : Bool) : List UInt8 :=
  match did with
  | none => [rBlock ||| blockNumBit blockNum]
  | some did => [rBlock ||| blockNumBit blockNum ||| iBlockDidBit, did]

/-- The R(ACK) with the current block number is received at the time `now`. -/
def ackStep (env : Env) (s : T4tIsodep) (did : Option UInt8) (now : Int) : Outcome :=
  s.dataReceived env (some (ackFrame did s.blockNum)) (ackFrame did s.blockNum).length false now

/-- The tag answers `n` blocks, the first one as `ack 0` says. -/
def ackRun (env : Env) (ack : Nat → Option UInt8 × Int) : Nat → T4tIsodep → T4tIsodep × List Output
  | 0, s => (s, [])
  | n + 1, s =>
    let o := ackStep env s (ack 0).1 (ack 0).2
    let rest := ackRun env (fun k => ack (k + 1)) n o.state
    (rest.1, o.outputs ++ rest.2)

def Output.frame? : Output → Option (List UInt8)
  | .readyToSend frame _ => some frame
  | _ => none

/-- The frames handed to `ready_to_send`. -/
def framesOf (outputs : List Output) : List (List UInt8) := outputs.filterMap Output.frame?

/-- `nfc_t4t_isodep_transmit`, and the delayed work if it was submitted. -/
def transmitStart (env : Env) (s : T4tIsodep) (data : List UInt8) (now : Int) :
    T4tIsodep × List Output :=
  let o := s.transmit env (some data) data.length now
  match o.outputs with
  | [.submit _] =>
    let d := o.state.delayHandler env
    (d.state, o.outputs ++ d.outputs)
  | _ => (o.state, o.outputs)

theorem ackFrame_bits (did : Option UInt8) (blockNum : Bool) :
    1 ≤ (ackFrame did blockNum).length ∧
      (ackFrame did blockNum).getD 0 0 &&& blockFixedBit ≠ 0 ∧
      (ackFrame did blockNum).getD 0 0 &&& sBlockIndicator = 0 ∧
      (ackFrame did blockNum).getD 0 0 &&& rBlockIndicator ≠ 0 ∧
      T4tIsodep.headerEnd ((ackFrame did blockNum).getD 0 0) = (ackFrame did blockNum).length ∧
      (ackFrame did blockNum).getD 0 0 &&& rBlockNak = 0 ∧
      (ackFrame did blockNum).getD 0 0 &&& blockNumMask = blockNumBit blockNum := by
  cases did <;> cases blockNum <;>
    simp only [ackFrame, List.getD_cons_zero, List.length_cons, List.length_nil] <;> decide

theorem dataReceived_ackFrame {env : Env} {s : T4tIsodep} (hats : s.atsExpected = false)
    (did : Option UInt8) (blockNum : Bool) (now : Int) :
    s.dataReceived env (some (ackFrame did blockNum)) (ackFrame did blockNum).length false now =
      T4tIsodep.reportErr env
        (s.rFrameHandle env (ackFrame did blockNum) (ackFrame did blockNum).length) := by
  obtain ⟨hlen, hfixed, hs, hr, -⟩ := ackFrame_bits did blockNum
  simp only [T4tIsodep.dataReceived, T4tIsodep.frameHandle, hats]
  rw [if_neg (by omega), if_neg (by decide), if_neg (by decide), if_pos hfixed,
    if_neg (not_not.mpr hs), if_pos hr]

theorem ackStep_eq (env : Env) {s : T4tIsodep} (hats : s.atsExpected = false)
    (hchaining : s.chaining = true) (did : Option UInt8) (now : Int) :
    ackStep env s did now =
      ⟨(s.blockNumToggle.chunkSend env).1, (s.blockNumToggle.chunkSend env).2, none⟩ := by
  obtain ⟨-, -, -, -, hend, hnak, hnum⟩ := ackFrame_bits did s.blockNum
  rw [ackStep, dataReceived_ackFrame hats, T4tIsodep.rFrameHandle, hend]
  rw [if_neg (Nat.lt_irrefl _), if_neg (not_not.mpr hnak), if_neg (not_not.mpr hchaining),
    if_pos hnum]
  rfl

theorem chunkSend_carries {env : Env} (hcb : env.cb.readyToSend = true)
    (ack : Nat → Option UInt8 × Int) {s : T4tIsodep} {data : List UInt8} {t : Nat}
    (h : s.SendsFrom data t) (hroom : s.Roomy data) (ht : t < data.length) :
    ∃ n frames, framesOf ((s.chunkSend env).2 ++ (ackRun env ack n (s.chunkSend env).1).2) = frames ∧
      frames.length = n + 1 ∧ (ackRun env ack n (s.chunkSend env).1).1.chaining = false ∧
      Carries (headerLen s.tag) s.tag.fsc s.blockNum (data.drop t) frames := by
  induction hm : data.length - t using Nat.strong_induction_on generalizing s t ack with
  | _ m ih =>
    have hlen := h.chunkLen_eq hroom (Nat.le_of_lt ht)
    have hchains := h.chunkChains_iff hroom (Nat.le_of_lt ht)
    have hframe := h.chunkFrame_length hroom (Nat.le_of_lt ht)
    have hdrop := h.chunkFrame_drop
    have hheader := hroom.header_lt
    obtain ⟨hblock, hbit, hnum⟩ := pcb_iBlock s.tag s.blockNum s.chunkChains
      (s.transmitData.slice s.transmittedLen s.chunkLen)
    have hsent : framesOf (s.chunkSend env).2 = [s.chunkFrame] := by
      simp [T4tIsodep.chunkSend, callback, hcb, framesOf, Output.frame?]
    cases hc : s.chunkChains with
    | false =>
      -- The last block: nothing is left behind it.
      rw [hc] at hchains
      have hlast : pcb s.chunkFrame &&& iBlockChainingBit = 0 := by
        by_contra hne
        have := hbit.mp hne
        rw [hc] at this
        cases this
      refine ⟨0, [s.chunkFrame], ?_, rfl, ?_, ?_⟩
      · rw [ackRun, List.append_nil, hsent]
      · exact hc
      · have hrest : (data.drop t).take s.chunkLen = data.drop t := by
          apply List.take_of_length_le
          rw [List.length_drop]
          have := mt hchains.mpr (by decide)
          omega
        rw [← hrest, ← hdrop]
        exact Carries.singleton hframe hblock hlast hnum
    | true =>
      have hmore := hchains.mp hc
      have hstep := ackStep_eq env (s := (s.chunkSend env).1) h.chunkSend.atsExpected hc
        (ack 0).1 (ack 0).2
      obtain ⟨n, frames, hframes, hcount, hend, hcarries⟩ := ih (data.length - (t + s.chunkLen))
        (by omega) (fun k => ack (k + 1)) (s := (s.chunkSend env).1.blockNumToggle)
        h.chunkSend.blockNumToggle ⟨hheader, hroom.fsc_lt, hroom.length_lt⟩ (by omega) rfl
      refine ⟨n + 1, s.chunkFrame :: frames, ?_, ?_, ?_, ?_⟩
      · rw [ackRun, hstep, ← hframes]
        simp only [framesOf, List.filterMap_append]
        rw [← framesOf, hsent]
        rfl
      · rw [List.length_cons, hcount]
      · rw [ackRun, hstep]
        exact hend
      · have hsplit : data.drop t =
            s.chunkFrame.drop (headerLen s.tag) ++ data.drop (t + s.chunkLen) := by
          rw [hdrop, ← List.drop_drop, List.take_append_drop]
        rw [hsplit]
        exact hcarries.cons hframe hblock (hbit.mpr hc) hnum

/-- What every call keeps: a selected tag has sent its ATS, FSC is a `uint16_t` and the Rx buffer has
its size. -/
structure Settled (s : T4tIsodep) : Prop where
  ats : s.state = .selected → s.atsExpected = false
  fsc : s.tag.fsc < 2 ^ 16
  rx : s.rxData.bufSize ≤ s.rxData.data.length

namespace Settled

variable {env : Env} {s : T4tIsodep}

/-- A state with the tag of `s`, that is not selected or agrees with `s` on state and ATS. -/
theorem of_eq {s' : T4tIsodep} (h : Settled s) (htag : s'.tag = s.tag)
    (hrx : s'.rxData.bufSize ≤ s'.rxData.data.length)
    (hstate : s'.state = .selected → s.state = .selected ∧ s'.atsExpected = s.atsExpected) :
    Settled s' := by
  constructor
  case ats =>
    intro hsel
    obtain ⟨hs, hats⟩ := hstate hsel
    rw [hats]
    exact h.ats hs
  case fsc =>
    rw [htag]
    exact h.fsc
  case rx => exact hrx

theorem of_ats {s' : T4tIsodep} (hats : s'.atsExpected = false) (hfsc : s'.tag.fsc < 2 ^ 16)
    (hrx : s'.rxData.bufSize ≤ s'.rxData.data.length) : Settled s' :=
  ⟨fun _ => hats, hfsc, hrx⟩

theorem errorHandle (h : Settled s) (timeout : Bool) : Settled (s.errorHandle env timeout).1 := by
  unfold T4tIsodep.errorHandle
  dsimp only
  split
  · exact h.of_eq rfl h.rx (fun hsel => by cases hsel)
  · unfold T4tIsodep.recoverySend
    split <;> exact h.of_eq rfl h.rx (fun hsel => ⟨hsel, rfl⟩)

theorem reportErr {o : Outcome} (h : Settled o.state) :
    Settled (T4tIsodep.reportErr env o).state := by
  unfold T4tIsodep.reportErr
  split
  · exact h
  · exact h.of_eq rfl h.rx (fun hsel => ⟨hsel, rfl⟩)

theorem atsParse (h : Settled s) (hats : s.atsExpected = false) (data : Memory) (len : Nat)
    (now : Int) : Settled (s.atsParse env data len now).state := by
  unfold T4tIsodep.atsParse
  dsimp only
  split
  · exact of_ats hats h.fsc h.rx
  · split
    · exact of_ats hats h.fsc h.rx
    · exact of_ats hats (Nat.mod_lt _ (by decide)) h.rx

theorem received (h : Settled s) (hats : s.atsExpected = false) (toggle : Bool) (inf : List UInt8) :
    Settled (s.received toggle inf) := by
  have hrx : s.rxData.bufSize ≤ (s.rxData.data.write s.rxData.len inf).length := by
    have := h.rx
    simp only [Memory.write, List.length_append, List.length_take, List.length_drop]
    omega
  cases toggle <;> exact of_ats hats h.fsc hrx

theorem frameHandle (h : Settled s) (hats : s.atsExpected = false) (data : Memory) (len : Nat) :
    Settled (s.frameHandle env data len).state := by
  have hhandled := T4tIsodep.frameHandle_handled env s data len
  generalize s.frameHandle env data len = o at hhandled
  cases hhandled with
  | chained toggle inf =>
    have hreceived := h.received hats toggle inf
    exact hreceived.of_eq rfl hreceived.rx (fun hsel => ⟨hsel, rfl⟩)
  | completed toggle inf =>
    have hreceived := h.received hats toggle inf
    have hats' : (s.received toggle inf).atsExpected = false := by
      cases toggle <;> exact hats
    exact of_ats hats' hreceived.fsc hreceived.rx
  | _ => exact of_ats hats h.fsc h.rx

theorem run (h : Settled s) (c : Call) : Settled (c.run env s).state := by
  cases c with
  | ratsSend fsd did =>
    simp only [Call.run, T4tIsodep.ratsSend]
    split
    · split
      · exact h.of_eq rfl h.rx (fun hsel => by cases hsel)
      · split
        · exact h.of_eq rfl h.rx (fun hsel => by cases hsel)
        · exact ⟨fun hsel => (by cases hsel), h.fsc, h.rx⟩
    · exact h
  | tagDeselect =>
    simp only [Call.run, T4tIsodep.tagDeselect]
    split
    · exact h.of_eq rfl h.rx (fun hsel => by cases hsel)
    · exact h
  | transmit data len now =>
    have htransmitted := s.transmit_transmitted env data len now
    simp only [Call.run]
    generalize s.transmit env data len now = o at htransmitted
    cases htransmitted with
    | refused => exact h
    | delayed => exact h.of_eq rfl h.rx (fun hsel => by cases hsel)
    | sent => exact h.of_eq rfl h.rx (fun hsel => by cases hsel)
  | dataReceived data len err now =>
    simp only [Call.run, T4tIsodep.dataReceived]
    cases data with
    | none => exact h
    | some data =>
      dsimp only
      split
      · exact h
      · split
        · exact h.errorHandle false
        · split
          · have hwithout : Settled { s with atsExpected := false } := of_ats rfl h.fsc h.rx
            exact (hwithout.atsParse rfl data len now).reportErr
          next hats => exact (h.frameHandle (eq_false_of_ne_true hats) data len).reportErr
  | onTimeout => exact h.errorHandle true
  | delayHandler => exact h.of_eq rfl h.rx (fun hsel => ⟨hsel, rfl⟩)

end Settled

theorem Reachable.settled {env : Env} {s : T4tIsodep} (h : Reachable env s) : Settled s := by
  induction h with
  | @init txBuf rxBuf sizeTx sizeRx htx hrx h =>
    have hreset : Settled T4tIsodep.reset := by
      constructor <;> decide
    unfold T4tIsodep.init
    split
    · exact hreset
    · split
      · exact hreset
      · split
        · exact hreset
        · exact ⟨fun hsel => (by cases hsel), Nat.two_pow_pos 16, hrx⟩
  | call hs c hc ih => exact ih.run c

theorem transmitStart_eq {env : Env} {s : T4tIsodep} {data : List UInt8} (now : Int)
    (hsel : s.state = .selected) (hdata : data ≠ [])
    (hok : (s.transmit env (some data) data.length now).err = none) :
    ∃ time pending,
      (transmitStart env s data now).1 = ({ s.startTransfer data data.length with
        atsReceivedTime := time, workPending := pending }.chunkSend env).1 ∧
      framesOf (transmitStart env s data now).2 = framesOf ({ s.startTransfer data data.length with
        atsReceivedTime := time, workPending := pending }.chunkSend env).2 := by
  have hpos := List.length_pos_iff.mpr hdata
  have htransmitted := s.transmit_transmitted env (some data) data.length now
  unfold transmitStart
  generalize s.transmit env (some data) data.length now = o at htransmitted hok
  cases htransmitted with
  | refused err hrefused =>
    rcases hrefused with h | h | h
    · cases h
    · omega
    · exact absurd hsel h
  | delayed bytes time pending fails delay hbytes =>
    cases hbytes
    exact ⟨time, false, rfl, rfl⟩
  | sent bytes time hbytes =>
    cases hbytes
    refine ⟨time, s.workPending, ?_, ?_⟩
    all_goals
      simp only [T4tIsodep.chunkSend, callback]
      cases env.cb.readyToSend <;> rfl

/-- A transfer from a reachable state in which the tag is selected carries its data in I-blocks, when
the tag answers every chained block with the R(ACK) for it. -/
theorem transmit_carries {env : Env} (hcb : env.cb.readyToSend = true) {s : T4tIsodep}
    (hs : Reachable env s) (hsel : s.state = .selected) (hfsc : headerLen s.tag < s.tag.fsc)
    {data : List UInt8} (hdata : data ≠ []) (hlt : data.length < 2 ^ 32) {now : Int}
    (hok : (s.transmit env (some data) data.length now).err = none)
    (ack : Nat → Option UInt8 × Int) :
    ∃ n frames, framesOf ((transmitStart env s data now).2 ++
        (ackRun env ack n (transmitStart env s data now).1).2) = frames ∧
      frames.length = n + 1 ∧
      (ackRun env ack n (transmitStart env s data now).1).1.chaining = false ∧
      Carries (headerLen s.tag) s.tag.fsc s.blockNum data frames := by
  have hsettled := hs.settled
  have hfsc' := hsettled.fsc
  obtain ⟨time, pending, hstate, hframes⟩ := transmitStart_eq now hsel hdata hok
  obtain ⟨n, frames, hsent, hcount, hend, hcarries⟩ := chunkSend_carries hcb ack
    (s := { s.startTransfer data data.length with atsReceivedTime := time, workPending := pending })
    ⟨rfl, rfl, rfl, hsettled.ats hsel⟩ ⟨hfsc, Nat.lt_trans hfsc' (by decide), hlt⟩
    (List.length_pos_iff.mpr hdata)
  refine ⟨n, frames, ?_, hcount, ?_, hcarries⟩
  · rw [← hsent]
    simp only [framesOf, List.filterMap_append] at hframes ⊢
    rw [hframes, hstate]
  · rw [hstate]
    exact hend

def defaultEnv : Env :=
  ⟨0, 2, 2, 2, 0, ⟨true, true, true, true, true⟩, fun _ => false, fun _ => 0⟩

def selectedState : T4tIsodep :=
  (Call.run defaultEnv
    (Call.run defaultEnv
      (T4tIsodep.reset.init (List.replicate 256 0) 256 (List.replicate 256 0) 256).state
      (.ratsSend 8 0)).state
    (.dataReceived (some [0x02, 0x00]) 2 false 0)).state

theorem selectedState_reachable : Reachable defaultEnv selectedState :=
  .call (.call (.init (le_of_eq List.length_replicate.symm) (le_of_eq List.length_replicate.symm)
    (by decide)) (.ratsSend 8 0) trivial)
    (.dataReceived (some [0x02, 0x00]) 2 false 0) trivial

theorem thirtyBytes_carries : ∃ n frames,
    framesOf ((transmitStart defaultEnv selectedState (List.replicate 30 0x55) 1000).2 ++
      (ackRun defaultEnv (fun _ => (none, 0)) n
        (transmitStart defaultEnv selectedState (List.replicate 30 0x55) 1000).1).2) = frames ∧
      frames.length = n + 1 ∧
      (ackRun defaultEnv (fun _ => (none, 0)) n
        (transmitStart defaultEnv selectedState (List.replicate 30 0x55) 1000).1).1.chaining = false ∧
      Carries 1 14 false (List.replicate 30 0x55) frames :=
  transmit_carries rfl selectedState_reachable (by decide) (by decide) (by decide)
    (by decide) (by decide) _

end SdkNrf.Isodep
