import SdkNrf.Isodep.Chunking

/-!
# Reassembly of received data

The tag's answer arrives in I-blocks, and each one with the chaining bit is answered with an R(ACK).
-/

namespace SdkNrf.Isodep

def iFrame (did : Option UInt8) (blockNum chains : Bool) (inf : List UInt8) : List UInt8 :=
  (match did with
    | none => [iBlock ||| blockNumBit blockNum ||| if chains then iBlockChainingBit else 0]
    | some did =>
      [iBlock ||| blockNumBit blockNum ||| (if chains then iBlockChainingBit else 0) |||
        iBlockDidBit, did]) ++ inf

/-- A chained block of the answer. `repeats` says what happens behind it until the next block: with
every entry the reader runs into a timeout and repeats its R(ACK), and the tag sends the block again
when the entry is `true`. -/
structure TagBlock where
  inf : List UInt8
  did : Option UInt8
  repeats : List Bool

inductive Event
  | timeout
  | block (frame : List UInt8)

def Event.run (env : Env) (now : Int) (s : T4tIsodep) : Event → Outcome
  | .timeout => s.onTimeout env
  | .block frame => s.dataReceived env (some frame) frame.length false now

def runEvents (env : Env) (now : Int) : List Event → T4tIsodep → List Output
  | [], _ => []
  | e :: events, s => (e.run env now s).outputs ++ runEvents env now events (e.run env now s).state

def repeatEvents (frame : List UInt8) : List Bool → List Event
  | [] => []
  | again :: rest =>
    .timeout :: (if again then [.block frame] else []) ++ repeatEvents frame rest

/-- The answer with the chained blocks `blocks`, from the block number `blockNum` on, and a last
block with the information field `inf`. -/
def answer (did : Option UInt8) (inf : List UInt8) : Bool → List TagBlock → List Event
  | blockNum, [] => [.block (iFrame did blockNum false inf)]
  | blockNum, b :: blocks =>
    .block (iFrame b.did blockNum true b.inf) ::
      (repeatEvents (iFrame b.did blockNum true b.inf) b.repeats ++
        answer did inf (!blockNum) blocks)

def distinct (blocks : List TagBlock) : List UInt8 := (blocks.map TagBlock.inf).flatten

def arriving : List TagBlock → List UInt8
  | [] => []
  | b :: blocks =>
    b.inf ++ (List.replicate (b.repeats.count true) b.inf).flatten ++ arriving blocks

def timeouts (blocks : List TagBlock) : Nat := (blocks.map fun b => b.repeats.length).sum

def notices (outputs : List Output) : List Output := outputs.filter fun o => o.frame?.isNone

@[simp] theorem notices_append (a b : List Output) : notices (a ++ b) = notices a ++ notices b :=
  List.filter_append _ _

/-- The reader has received `got` and expects the block number `blockNum`. -/
structure Receiving (s : T4tIsodep) (size : Nat) (blockNum : Bool) (got : List UInt8)
    (retries : Nat) : Prop where
  ats : s.atsExpected = false
  number : s.blockNum = blockNum
  bufSize : s.rxData.bufSize = size
  size_le : size ≤ s.rxData.data.length
  len : s.rxData.len = got.length
  got_le : got.length ≤ size
  data : s.rxData.data.take got.length = got
  retries_eq : s.errStatus.frameRetryCnt = retries

theorem iFrame_bits (did : Option UInt8) (blockNum chains : Bool) (inf : List UInt8) :
    1 ≤ (iFrame did blockNum chains inf).length ∧
      (iFrame did blockNum chains inf).getD 0 0 &&& blockFixedBit ≠ 0 ∧
      (iFrame did blockNum chains inf).getD 0 0 &&& sBlockIndicator = 0 ∧
      (iFrame did blockNum chains inf).getD 0 0 &&& rBlockIndicator = 0 ∧
      (iFrame did blockNum chains inf).getD 0 0 &&& blockNumMask = blockNumBit blockNum ∧
      ((iFrame did blockNum chains inf).getD 0 0 &&& iBlockChainingBit ≠ 0 ↔ chains = true) ∧
      (iFrame did blockNum chains inf).length =
        T4tIsodep.iHeaderEnd ((iFrame did blockNum chains inf).getD 0 0) + inf.length ∧
      (iFrame did blockNum chains inf).drop
        (T4tIsodep.iHeaderEnd ((iFrame did blockNum chains inf).getD 0 0)) = inf := by
  have hplain : ∀ b c : Bool, T4tIsodep.iHeaderEnd (iBlock ||| blockNumBit b |||
      if c then iBlockChainingBit else 0) = 1 := by decide
  have hdid : ∀ b c : Bool, T4tIsodep.iHeaderEnd (iBlock ||| blockNumBit b |||
      (if c then iBlockChainingBit else 0) ||| iBlockDidBit) = 2 := by decide
  refine ⟨?_, ?_, ?_, ?_, ?_, ?_, ?_, ?_⟩
  case refine_1 => cases did <;> simp [iFrame]
  case refine_7 =>
    cases did with
    | none =>
      simp [iFrame, hplain]
      omega
    | some did =>
      simp [iFrame, hdid]
      omega
  case refine_8 =>
    cases did with
    | none => simp [iFrame, hplain]
    | some did => simp [iFrame, hdid]
  all_goals
    cases did <;> simp only [iFrame, List.cons_append, List.getD_cons_zero] <;>
      cases blockNum <;> cases chains <;> decide

section Events

variable {env : Env} {s : T4tIsodep} {size retries : Nat} {blockNum : Bool} {got : List UInt8}

theorem dataReceived_iFrame (hats : s.atsExpected = false) (did : Option UInt8)
    (number chains : Bool) (inf : List UInt8) (now : Int) :
    s.dataReceived env (some (iFrame did number chains inf)) (iFrame did number chains inf).length
        false now =
      T4tIsodep.reportErr env (s.iFrameHandle env (iFrame did number chains inf)
        (iFrame did number chains inf).length) := by
  obtain ⟨hlen, hfixed, hs, hr, -⟩ := iFrame_bits did number chains inf
  simp only [T4tIsodep.dataReceived, T4tIsodep.frameHandle, hats]
  rw [if_neg (by omega), if_neg (by decide), if_neg (by decide), if_pos hfixed,
    if_neg (not_not.mpr hs), if_neg (not_not.mpr hr)]

variable {inf : List UInt8}

theorem Receiving.iFrame_overflow (h : Receiving s size blockNum got retries)
    (hcb : env.cb.error = true) (did : Option UInt8) (number chains : Bool)
    (hover : size < got.length + inf.length) (now : Int) :
    .error .ENOMEM ∈ (s.dataReceived env (some (iFrame did number chains inf))
      (iFrame did number chains inf).length false now).outputs := by
  obtain ⟨-, -, -, -, -, -, hlen, -⟩ := iFrame_bits did number chains inf
  have hfull : s.rxData.bufSize < s.rxData.len + ((iFrame did number chains inf).length -
      T4tIsodep.iHeaderEnd ((iFrame did number chains inf).getD 0 0)) := by
    rw [h.bufSize, h.len, hlen]
    omega
  rw [dataReceived_iFrame h.ats, T4tIsodep.iFrameHandle]
  dsimp only
  rw [if_neg (by omega), if_pos hfull]
  simp [T4tIsodep.reportErr, T4tIsodep.errNotify, callback, hcb]

def afterBlock (s : T4tIsodep) (number : Bool) (inf : List UInt8) : T4tIsodep :=
  s.received (number == s.blockNum) inf

theorem Receiving.iFrameHandle_eq (h : Receiving s size blockNum got retries) (did : Option UInt8)
    (number chains : Bool) (hfits : got.length + inf.length ≤ size) :
    s.iFrameHandle env (iFrame did number chains inf) (iFrame did number chains inf).length =
      if chains then
        ⟨({ afterBlock s number inf with errStatus.lastFrame := .iChaining }.rFrameSend env true).1,
          ({ afterBlock s number inf with errStatus.lastFrame := .iChaining }.rFrameSend env true).2,
          none⟩
      else
        ⟨{ afterBlock s number inf with state := .selected, errStatus.lastFrame := .i },
          callback env.cb.dataReceived (.dataReceived ((afterBlock s number inf).rxData.data.take
            (afterBlock s number inf).rxData.len)), none⟩ := by
  obtain ⟨-, -, -, -, hnum, hchains, hlen, hdrop⟩ := iFrame_bits did number chains inf
  have hfull : ¬ s.rxData.bufSize < s.rxData.len + ((iFrame did number chains inf).length -
      T4tIsodep.iHeaderEnd ((iFrame did number chains inf).getD 0 0)) := by
    rw [h.bufSize, h.len, hlen]
    omega
  have hinf : Memory.slice (iFrame did number chains inf)
      (T4tIsodep.iHeaderEnd ((iFrame did number chains inf).getD 0 0))
      ((iFrame did number chains inf).length -
        T4tIsodep.iHeaderEnd ((iFrame did number chains inf).getD 0 0)) = inf := by
    rw [Memory.slice, hdrop, hlen, Nat.add_sub_cancel_left, List.take_length]
  have htoggle : (if blockNumBit number = blockNumBit s.blockNum then s.blockNumToggle else s) =
      if number == s.blockNum then s.blockNumToggle else s := by
    cases number <;> cases s.blockNum <;> rfl
  rw [T4tIsodep.iFrameHandle]
  dsimp only
  rw [if_neg (by omega), if_neg hfull, hinf, hnum, htoggle]
  cases chains with
  | true =>
    rw [if_pos (hchains.mpr rfl)]
    rfl
  | false =>
    rw [if_neg (mt hchains.mp (by decide))]
    rfl

theorem Receiving.afterBlock_rxData (h : Receiving s size blockNum got retries) (number : Bool)
    (hfits : got.length + inf.length ≤ size) :
    (afterBlock s number inf).rxData.len = (got ++ inf).length ∧
      (afterBlock s number inf).rxData.data.take (got ++ inf).length = got ++ inf ∧
      (afterBlock s number inf).rxData.data.length = s.rxData.data.length := by
  have hlen := h.size_le
  have hdata := h.data
  have hrx : (afterBlock s number inf).rxData =
      ⟨s.rxData.data.write s.rxData.len inf, s.rxData.len + inf.length, s.rxData.bufSize⟩ := by
    unfold afterBlock T4tIsodep.received
    cases number == s.blockNum <;> rfl
  have hwrite : s.rxData.data.write s.rxData.len inf =
      got ++ inf ++ s.rxData.data.drop (got.length + inf.length) := by
    rw [Memory.write, h.len, hdata]
  rw [hrx]
  refine ⟨?_, ?_, ?_⟩
  · rw [h.len, List.length_append]
  · rw [hwrite, List.take_left]
  · rw [hwrite, List.length_append, List.length_append, List.length_drop]
    omega

variable (env) in

theorem Receiving.iFrame_chained (h : Receiving s size blockNum got retries) (did : Option UInt8)
    (number : Bool) (hfits : got.length + inf.length ≤ size) (now : Int) :
    ∃ o, s.dataReceived env (some (iFrame did number true inf)) (iFrame did number true inf).length
        false now = o ∧ notices o.outputs = [] ∧ o.state.errStatus.lastFrame = .iChaining ∧
      Receiving o.state size (if number = blockNum then !blockNum else blockNum) (got ++ inf)
        retries := by
  obtain ⟨hlen, hdata, hsize⟩ := h.afterBlock_rxData number hfits
  have hnumber : (afterBlock s number inf).blockNum =
      if number = blockNum then !blockNum else blockNum := by
    rw [← h.number]
    unfold afterBlock T4tIsodep.received
    cases number <;> cases hs : s.blockNum <;> simp [T4tIsodep.rxAppend, T4tIsodep.blockNumToggle, hs]
  refine ⟨_, dataReceived_iFrame h.ats did number true inf now, ?_, ?_, ?_⟩
  all_goals rw [h.iFrameHandle_eq did number true hfits, if_pos rfl]
  · simp only [T4tIsodep.reportErr, T4tIsodep.rFrameSend, notices, callback]
    cases env.cb.readyToSend <;> rfl
  · rfl
  · constructor
    case ats =>
      unfold afterBlock T4tIsodep.received
      cases number == s.blockNum <;> exact h.ats
    case number => exact hnumber
    case bufSize =>
      unfold afterBlock T4tIsodep.received
      cases number == s.blockNum <;> exact h.bufSize
    case size_le => exact hsize ▸ h.size_le
    case len => exact hlen
    case got_le => rwa [List.length_append]
    case data => exact hdata
    case retries_eq =>
      unfold afterBlock T4tIsodep.received
      cases number == s.blockNum <;> exact h.retries_eq

theorem Receiving.iFrame_last (h : Receiving s size blockNum got retries)
    (hcb : env.cb.dataReceived = true) (did : Option UInt8) (number : Bool)
    (hfits : got.length + inf.length ≤ size) (now : Int) :
    (s.dataReceived env (some (iFrame did number false inf)) (iFrame did number false inf).length
      false now).outputs = [.dataReceived (got ++ inf)] := by
  obtain ⟨hlen, hdata, -⟩ := h.afterBlock_rxData number hfits
  rw [dataReceived_iFrame h.ats, h.iFrameHandle_eq did number false hfits]
  simp only [T4tIsodep.reportErr, callback, hcb, if_true, Bool.false_eq_true, if_false]
  rw [hlen, hdata]

variable (env) in

theorem Receiving.timeout (h : Receiving s size blockNum got retries)
    (hlast : s.errStatus.lastFrame = .iChaining) (hretry : retries + 1 ≤ env.ackRetry) :
    notices (s.onTimeout env).outputs = [] ∧
      (s.onTimeout env).state.errStatus.lastFrame = .iChaining ∧
      Receiving (s.onTimeout env).state size blockNum got (retries + 1) := by
  have heq : s.errorHandle env true =
      { s with errStatus.frameRetryCnt := s.errStatus.frameRetryCnt + 1 }.rFrameSend env true := by
    unfold T4tIsodep.errorHandle T4tIsodep.recoverySend
    simp only [hlast, h.retries_eq, T4tIsodep.retryLimit]
    rw [if_neg (by simp; omega)]
  simp only [T4tIsodep.onTimeout, heq]
  refine ⟨?_, hlast, ?_⟩
  · simp only [T4tIsodep.rFrameSend, notices, callback]
    cases env.cb.readyToSend <;> rfl
  · exact ⟨h.ats, h.number, h.bufSize, h.size_le, h.len, h.got_le, h.data,
      congrArg (· + 1) h.retries_eq⟩

theorem Receiving.timeout_expired (h : Receiving s size blockNum got retries)
    (hlast : s.errStatus.lastFrame = .iChaining) (hcb : env.cb.error = true)
    (hexpired : env.ackRetry < retries + 1) : .error .timeoutError ∈ (s.onTimeout env).outputs := by
  unfold T4tIsodep.onTimeout T4tIsodep.errorHandle
  simp only [hlast, h.retries_eq, T4tIsodep.retryLimit]
  rw [if_pos (Or.inr hexpired)]
  simp [T4tIsodep.errNotify, callback, hcb]

end Events

/-- The outputs hand over `total` if all goes well (`fine`), and report an error otherwise. -/
def Delivers (outputs : List Output) (fine : Prop) (total : List UInt8) : Prop :=
  (fine → notices outputs = [.dataReceived total]) ∧ (¬ fine → ∃ e, .error e ∈ outputs)

section Answer

variable {env : Env} {size : Nat} {fine : Prop} {total : List UInt8} {outputs rest : List Output}

theorem Delivers.append_of_notices (h : Delivers rest fine total) (hnotices : notices outputs = []) :
    Delivers (outputs ++ rest) fine total := by
  constructor
  · intro hfine
    rw [notices_append, hnotices, h.1 hfine]
    rfl
  · intro hfine
    obtain ⟨e, he⟩ := h.2 hfine
    exact ⟨e, List.mem_append_right _ he⟩

theorem Delivers.append_of_error {e : Err} (herror : .error e ∈ outputs) (hfine : ¬ fine) :
    Delivers (outputs ++ rest) fine total :=
  ⟨fun h => absurd h hfine, fun _ => ⟨e, List.mem_append_left _ herror⟩⟩

/-- The repetitions behind a block, whatever follows them. The block's number is not the expected
one any more, so that the number stays. -/
theorem repeatEvents_delivers (hcb : env.cb.error = true) (now : Int) (did : Option UInt8)
    {number : Bool} (inf : List UInt8) (events : List Event) {repeats : List Bool} {s : T4tIsodep}
    {got : List UInt8} {retries : Nat} (h : Receiving s size (!number) got retries)
    (hlast : s.errStatus.lastFrame = .iChaining) (hle : retries ≤ env.ackRetry)
    (hfine : fine → retries + repeats.length ≤ env.ackRetry ∧
      got.length + (List.replicate (repeats.count true) inf).flatten.length ≤ size)
    (hrest : retries + repeats.length ≤ env.ackRetry → ∀ s', Receiving s' size (!number)
        (got ++ (List.replicate (repeats.count true) inf).flatten) (retries + repeats.length) →
      Delivers (runEvents env now events s') fine total) :
    Delivers (runEvents env now (repeatEvents (iFrame did number true inf) repeats ++ events) s)
      fine total := by
  induction repeats generalizing s got retries with
  | nil =>
    apply hrest hle
    simpa using h
  | cons again repeats ih =>
    rw [List.length_cons] at hfine hrest
    have hsucc : retries + (repeats.length + 1) = retries + 1 + repeats.length := by omega
    rw [hsucc] at hfine hrest
    by_cases hretry : retries + 1 ≤ env.ackRetry
    case neg =>
      have hexpired := h.timeout_expired hlast hcb (Nat.not_le.mp hretry)
      exact Delivers.append_of_error hexpired fun hf => hretry (by have := (hfine hf).1; omega)
    obtain ⟨hnotices, hlast', hnext⟩ := h.timeout env hlast hretry
    apply Delivers.append_of_notices _ hnotices
    cases again with
    | false => exact ih hnext hlast' hretry hfine hrest
    | true =>
      rw [List.count_cons_self, List.replicate_succ, List.flatten_cons] at hfine hrest
      rw [List.length_append] at hfine
      by_cases hfits : got.length + inf.length ≤ size
      · obtain ⟨o, heq, hquiet, hchained, hreceived⟩ :=
          hnext.iFrame_chained env did number hfits now
        rw [if_neg (by cases number <;> decide)] at hreceived
        rw [← List.append_assoc] at hrest
        rw [← Nat.add_assoc, ← List.length_append] at hfine
        have hafter := ih hreceived hchained hretry hfine hrest
        rw [← heq] at hafter hquiet
        exact hafter.append_of_notices hquiet
      · have hover := hnext.iFrame_overflow hcb did number true (Nat.not_le.mp hfits) now
        exact Delivers.append_of_error hover fun hf => hfits (by have := (hfine hf).2; omega)

theorem answer_delivers (hdata : env.cb.dataReceived = true) (herr : env.cb.error = true)
    (now : Int) (did : Option UInt8) (inf : List UInt8) {blocks : List TagBlock} {s : T4tIsodep}
    {blockNum : Bool} {got : List UInt8} {retries : Nat}
    (h : Receiving s size blockNum got retries) (hle : retries ≤ env.ackRetry) :
    Delivers (runEvents env now (answer did inf blockNum blocks) s)
      ((got ++ arriving blocks ++ inf).length ≤ size ∧ retries + timeouts blocks ≤ env.ackRetry)
      (got ++ arriving blocks ++ inf) := by
  induction blocks generalizing s blockNum got retries with
  | nil =>
    rw [arriving, List.append_nil]
    constructor
    · rintro ⟨hfits, -⟩
      rw [List.length_append] at hfits
      have hlast := h.iFrame_last hdata did blockNum hfits now
      simp only [answer, runEvents, Event.run, List.append_nil, hlast]
      rfl
    · intro hfine
      simp only [answer, runEvents, Event.run, List.append_nil]
      refine ⟨.ENOMEM, h.iFrame_overflow herr did blockNum false ?_ now⟩
      rw [List.length_append] at hfine
      change ¬ (_ ∧ retries ≤ _) at hfine
      omega
  | cons b blocks ih =>
    have htimeouts : timeouts (b :: blocks) = b.repeats.length + timeouts blocks := by
      rw [timeouts, List.map_cons, List.sum_cons, timeouts]
    by_cases hfits : got.length + b.inf.length ≤ size
    · obtain ⟨o, heq, hquiet, hchained, hreceived⟩ := h.iFrame_chained env b.did blockNum hfits now
      rw [if_pos rfl] at hreceived
      have hrest : retries + b.repeats.length ≤ env.ackRetry → ∀ s', Receiving s' size (!blockNum)
            (got ++ b.inf ++ (List.replicate (b.repeats.count true) b.inf).flatten)
            (retries + b.repeats.length) →
          Delivers (runEvents env now (answer did inf (!blockNum) blocks) s')
            ((got ++ arriving (b :: blocks) ++ inf).length ≤ size ∧
              retries + timeouts (b :: blocks) ≤ env.ackRetry)
            (got ++ arriving (b :: blocks) ++ inf) := by
        intro hle' s' hs'
        have hih := ih hs' hle'
        simp only [htimeouts, arriving, List.append_assoc, Nat.add_assoc] at hih ⊢
        exact hih
      have hafter := repeatEvents_delivers herr now b.did b.inf (answer did inf (!blockNum) blocks)
        hreceived hchained hle ?fine hrest
      case fine =>
        rintro ⟨htotal, hretry⟩
        simp only [htimeouts, arriving, List.length_append] at htotal hretry ⊢
        omega
      rw [← heq] at hafter hquiet
      exact hafter.append_of_notices hquiet
    · have hover := h.iFrame_overflow herr b.did blockNum true (Nat.not_le.mp hfits) now
      apply Delivers.append_of_error hover
      rintro ⟨htotal, -⟩
      simp only [arriving, List.length_append] at htotal
      omega

end Answer

/-- A block that the tag sends again has nothing in its information field. -/
def RepeatsEmpty (blocks : List TagBlock) : Prop :=
  ∀ b ∈ blocks, true ∈ b.repeats → b.inf = []

theorem RepeatsEmpty.arriving_eq {blocks : List TagBlock} (h : RepeatsEmpty blocks) :
    arriving blocks = distinct blocks := by
  induction blocks with
  | nil => rfl
  | cons b blocks ih =>
    have hrepeated : (List.replicate (b.repeats.count true) b.inf).flatten = [] := by
      by_cases hmem : true ∈ b.repeats
      · rw [h b (List.mem_cons_self ..) hmem, List.flatten_eq_nil_iff]
        exact fun l hl => List.eq_of_mem_replicate hl
      · rw [List.count_eq_zero_of_not_mem hmem]
        rfl
    rw [arriving, hrepeated, List.append_nil, ih fun c hc => h c (List.mem_cons_of_mem _ hc)]
    rfl

theorem length_distinct_le (blocks : List TagBlock) :
    (distinct blocks).length ≤ (arriving blocks).length := by
  induction blocks with
  | nil => exact Nat.le_refl _
  | cons b blocks ih =>
    have hcons : distinct (b :: blocks) = b.inf ++ distinct blocks := rfl
    simp only [hcons, arriving, List.length_append]
    omega

theorem repeatsEmpty_of_length_eq {blocks : List TagBlock}
    (h : (arriving blocks).length = (distinct blocks).length) : RepeatsEmpty blocks := by
  induction blocks with
  | nil => exact fun b hb => absurd hb (List.not_mem_nil)
  | cons b blocks ih =>
    have hcons : distinct (b :: blocks) = b.inf ++ distinct blocks := rfl
    have hle := length_distinct_le blocks
    simp only [hcons, arriving, List.length_append] at h
    intro c hc hmem
    rcases List.mem_cons.mp hc with rfl | hc
    · have hpos := List.count_pos_iff.mpr hmem
      have hzero : (List.replicate (c.repeats.count true) c.inf).flatten.length = 0 := by omega
      rw [List.length_eq_zero_iff, List.flatten_eq_nil_iff] at hzero
      exact hzero c.inf (List.mem_replicate.mpr ⟨by omega, rfl⟩)
    · exact ih (by omega) c hc hmem

/-- The states of a transfer without errors: its blocks, each answered with the R(ACK) for it. -/
inductive Acknowledged (env : Env) (s : T4tIsodep) (data : List UInt8) (now : Int) :
    T4tIsodep → Prop
  | start : Acknowledged env s data now (transmitStart env s data now).1
  | ack {s' : T4tIsodep} (h : Acknowledged env s data now s') (hchaining : s'.chaining = true)
      (did : Option UInt8) (time : Int) : Acknowledged env s data now (ackStep env s' did time).state

theorem Acknowledged.receiving {env : Env} {s s' : T4tIsodep} {data : List UInt8} {now : Int}
    (hs : Reachable env s) (hsel : s.state = .selected) (hdata : data ≠ [])
    (hok : (s.transmit env (some data) data.length now).err = none)
    (h : Acknowledged env s data now s') : Receiving s' s.rxData.bufSize s'.blockNum [] 0 := by
  have hsettled := hs.settled
  induction h with
  | start =>
    obtain ⟨time, pending, hstate, -⟩ := transmitStart_eq now hsel hdata hok
    rw [hstate]
    exact ⟨hsettled.ats hsel, rfl, rfl, hsettled.rx, rfl, Nat.zero_le _, rfl, rfl⟩
  | @ack s' h hchaining did time ih =>
    rw [ackStep_eq env ih.ats hchaining]
    exact ⟨ih.ats, rfl, ih.bufSize, ih.size_le, ih.len, ih.got_le, ih.data, ih.retries_eq⟩

private def commandSent : T4tIsodep := (transmitStart defaultEnv selectedState [0x01] 1000).1

private def ackLost : List TagBlock := [⟨[0x61, 0x62], none, [false]⟩, ⟨[], none, [true]⟩]

private def blockRepeated : List TagBlock := [⟨[0x61, 0x62], none, [true]⟩]

end SdkNrf.Isodep
