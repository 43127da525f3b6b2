import SdkNrf.Framework.Accesses
import SdkNrf.Framework.Reachable
import SdkNrf.Isodep.Chunking

/-!
# ISO-DEP frames and their buffers

What a call reads from the received block and from `fsd_value_map`, and what it writes to the Tx buffer and to
the historical bytes of the tag.
-/

namespace SdkNrf.Isodep

/-- The index of TB in an ATS with the format byte `t0`. -/
def atsTb (t0 : UInt8) : Nat := if t0 &&& 0x10 ≠ 0 then 3 else 2

def atsTc (t0 : UInt8) : Nat := if t0 &&& 0x20 ≠ 0 then atsTb t0 + 1 else atsTb t0

def atsEnd (t0 : UInt8) : Nat := if t0 &&& 0x40 ≠ 0 then atsTc t0 + 1 else atsTc t0

/-- The length check of `ats_parse` fails. -/
def badAts (data : Memory) (len : Nat) : Bool := (data.getD 0 0).toNat ≠ len ∨ 20 < len

/-- What `ats_parse` reads from the ATS. -/
def atsReads (data : Memory) (len : Nat) : List Access :=
  let t0 := data.getD 1 0
  if len < 2 then []
  else .read 0 1 ::
    if badAts data len then []
    else .read 1 1 ::
      ((if t0 &&& 0x10 ≠ 0 then [.read 2 1] else []) ++
        (if t0 &&& 0x20 ≠ 0 then [.read (atsTb t0) 1] else []) ++
        (if t0 &&& 0x40 ≠ 0 then [.read (atsTc t0) 1] else []) ++
        if atsEnd t0 < len then [.read (atsEnd t0) (len - atsEnd t0)] else [])

/-- What `ats_parse` reads from `fsd_value_map` and writes to the historical bytes. -/
def atsTagAccesses (data : Memory) (len : Nat) : List Access :=
  let t0 := data.getD 1 0
  if len < 2 ∨ badAts data len then []
  else .read (t0 &&& 0x0F).toNat 1 ::
    if atsEnd t0 < len then [.write 0 (len - atsEnd t0)] else []

namespace T4tIsodep

variable (env : Env) (s : T4tIsodep)

/-- The I-block of `isodep_chunk_send`. -/
def chunkAccesses : List Access := [.write 0 (headerLen s.tag + s.chunkLen)]

/-- The R-block of `isodep_r_frame_send`. -/
def rFrameAccesses : List Access := [.write 0 (headerLen s.tag)]

/-- The accesses of `isodep_s_frame_handle`. -/
def sFrameAccesses (data : Memory) (len : Nat) : List Access :=
  let index := headerEnd (data.getD 0 0)
  .read 0 1 ::
    if data.getD 0 0 &&& sBlockWtxMask ≠ sBlockWtxMask ∨ index + 1 < len then []
    else .read index 1 ::
      if data.getD index 0 &&& 0x3F < 1 ∨ data.getD index 0 &&& 0x3F > 59 then []
      else [.write 0 (headerLen s.tag + 1)]

def asksForChunk (data : Memory) (len : Nat) : Bool :=
  len ≤ headerEnd (data.getD 0 0) ∧ data.getD 0 0 &&& rBlockNak = 0 ∧ s.chaining ∧
    data.getD 0 0 &&& blockNumMask = blockNumBit s.blockNum

/-- The accesses of `isodep_r_frame_handle`. -/
def rFrameHandleAccesses (data : Memory) (len : Nat) : List Access :=
  .read 0 1 :: if s.asksForChunk data len then s.chunkAccesses else []

/-- The accesses of `isodep_i_frame_handle`. -/
def iFrameAccesses (data : Memory) (len : Nat) : List Access :=
  let index := iHeaderEnd (data.getD 0 0)
  .read 0 1 ::
    if len < index ∨ s.rxData.bufSize < s.rxData.len + (len - index) then []
    else .read index (len - index) ::
      if data.getD 0 0 &&& iBlockChainingBit ≠ 0 then s.rFrameAccesses else []

def frameAccesses (data : Memory) (len : Nat) : List Access :=
  .read 0 1 ::
    if data.getD 0 0 &&& blockFixedBit ≠ 0 then
      if data.getD 0 0 &&& sBlockIndicator ≠ 0 then s.sFrameAccesses data len
      else if data.getD 0 0 &&& rBlockIndicator ≠ 0 then s.rFrameHandleAccesses data len
      else s.iFrameAccesses data len
    else []

/-- The R-block that `isodep_error_handle` sends while retries are left. -/
def errorAccesses : List Access :=
  if s.errStatus.frameRetryCnt + 1 ≤ retryLimit env s.errStatus.lastFrame ∧
      (s.errStatus.lastFrame = .i ∨ s.errStatus.lastFrame = .iChaining) then s.rFrameAccesses
  else []

def waits (now : Int) : Bool :=
  s.firstTransfer ∧ now - s.atsReceivedTime < fwtToMs s.tag.fwt

end T4tIsodep

def Call.accesses (env : Env) (s : T4tIsodep) : Call → List Access
  | .ratsSend fsd did =>
    if (s.state = .initialized ∨ s.state = .selected) ∧ did ≤ 14 ∧
      fsdValueMap env fsd ≤ s.txData.bufSize then [.write 0 2] else []
  | .tagDeselect => if s.state = .selected then [.write 0 (headerLen s.tag)] else []
  | .transmit data len now =>
    if data.isSome ∧ 1 ≤ len ∧ s.state = .selected ∧ ¬ s.waits now then
      (s.startTransfer (data.getD []) len).chunkAccesses
    else []
  | .dataReceived data len err _ =>
    if data.isSome ∧ 1 ≤ len then
      if err then s.errorAccesses env
      else if s.atsExpected then atsReads (data.getD []) len
      else s.frameAccesses (data.getD []) len
    else []
  | .onTimeout => s.errorAccesses env
  | .delayHandler => s.chunkAccesses

/-- What a call reads from `fsd_value_map` and writes to the historical bytes. -/
def Call.tagAccesses (s : T4tIsodep) : Call → List Access
  | .ratsSend fsd did =>
    if (s.state = .initialized ∨ s.state = .selected) ∧ did ≤ 14 then [.read fsd 1] else []
  | .dataReceived data len err _ =>
    if data.isSome ∧ 1 ≤ len ∧ err = false ∧ s.atsExpected then atsTagAccesses (data.getD []) len
    else []
  | _ => []

def Call.receivedLen : Call → Nat
  | .dataReceived _ len _ _ => len
  | _ => 0

/-- The entries of `fsd_value_map`. -/
def fsdValueMapLen : Nat := 9

/-- `NFC_T4T_ISODEP_HIST_MAX_LEN`. -/
def histMaxLen : Nat := 15

def Call.InBounds (env : Env) (s : T4tIsodep) (c : Call) : Prop :=
  AllInside c.receivedLen s.txData.bufSize (c.accesses env s) ∧
    AllInside fsdValueMapLen histMaxLen (c.tagAccesses s)

/-- What the C types of the arguments hold: a `size_t` and an `enum nfc_t4t_isodep_fsd`. -/
def Call.Typed : Call → Prop
  | .ratsSend fsd _ => fsd < fsdValueMapLen
  | .transmit _ len _ => len < 2 ^ 32
  | .dataReceived _ len _ _ => len < 2 ^ 32
  | _ => True

/-- The tag's frame size, as far as `left` bytes need it, is at most `bufSize`. A frame size below the
header is no limit. -/
def Tag.FitsBuffer (tag : Tag) (bufSize left : Nat) : Prop :=
  headerLen tag ≤ tag.fsc ∧ tag.fsc ≤ bufSize ∨ headerLen tag + left ≤ bufSize

/-- An ATS whose size code is in the map, whose interface bytes are there and whose historical bytes are
at most 15. -/
def AtsSound (data : Memory) (len : Nat) : Prop :=
  2 ≤ len → ¬ badAts data len → (data.getD 1 0 &&& 0x0F).toNat < fsdValueMapLen ∧
    atsEnd (data.getD 1 0) ≤ len ∧ len - atsEnd (data.getD 1 0) ≤ histMaxLen

def WtxSound (data : Memory) (len : Nat) : Prop :=
  data.getD 0 0 &&& sBlockIndicator ≠ 0 → data.getD 0 0 &&& sBlockWtxMask = sBlockWtxMask →
    T4tIsodep.headerEnd (data.getD 0 0) < len

namespace T4tIsodep

variable (s : T4tIsodep)

def ChunkFits : Prop := s.tag.FitsBuffer s.txData.bufSize (s.transmitLen - s.transmittedLen)

def BlockSound (data : Memory) (len : Nat) : Prop :=
  data.getD 0 0 &&& blockFixedBit ≠ 0 → WtxSound data len ∧
    (data.getD 0 0 &&& sBlockIndicator = 0 → data.getD 0 0 &&& rBlockIndicator ≠ 0 →
      s.asksForChunk data len → s.ChunkFits)

end T4tIsodep

def Call.Sound (s : T4tIsodep) : Call → Prop
  | .transmit data len now => data.isSome → 1 ≤ len → s.state = .selected → ¬ s.waits now →
      s.tag.FitsBuffer s.txData.bufSize len
  | .dataReceived data len err _ => data.isSome → 1 ≤ len → err = false →
      if s.atsExpected then AtsSound (data.getD []) len else s.BlockSound (data.getD []) len
  | .delayHandler => s.ChunkFits
  | _ => True

theorem drop_write_zero {bytes : List UInt8} {k : Nat} (h : bytes.length ≤ k) (mem : Memory) :
    (mem.write 0 bytes).drop k = mem.drop k := by
  simp [Memory.write, List.drop_append, h]

namespace T4tIsodep

variable {env : Env} {s : T4tIsodep} {data : Memory} {len k : Nat}

theorem length_chunkFrame_le (s : T4tIsodep) :
    s.chunkFrame.length ≤ headerLen s.tag + s.chunkLen := by
  simp [chunkFrame, Memory.slice]

theorem chunkSend_behind (h : AllInside len k s.chunkAccesses) (env : Env) :
    (s.chunkSend env).1.txData.data.drop k = s.txData.data.drop k := by
  have hlen := s.length_chunkFrame_le
  simp [chunkAccesses] at h
  exact drop_write_zero (by omega) _

theorem rFrameSend_behind (h : AllInside len k s.rFrameAccesses) (env : Env) (ack : Bool) :
    (s.rFrameSend env ack).1.txData.data.drop k = s.txData.data.drop k := by
  simp [rFrameAccesses] at h
  apply drop_write_zero
  simp [rFrame]
  omega

theorem errorHandle_behind (h : AllInside len k (s.errorAccesses env)) (timeout : Bool) :
    (s.errorHandle env timeout).1.txData.data.drop k = s.txData.data.drop k := by
  unfold errorHandle
  unfold errorAccesses at h
  dsimp only
  split
  · rfl
  next hretry =>
    rw [not_or, Nat.not_lt] at hretry
    unfold recoverySend
    split
    case h_2 hlast =>
      rw [if_pos ⟨hretry.2, Or.inl hlast⟩] at h
      exact rFrameSend_behind h env false
    case h_3 hlast =>
      rw [if_pos ⟨hretry.2, Or.inr hlast⟩] at h
      exact rFrameSend_behind h env true
    all_goals rfl

theorem sFrameHandle_behind (h : AllInside len k (s.sFrameAccesses data len)) :
    (s.sFrameHandle env data len).state.txData.data.drop k = s.txData.data.drop k := by
  unfold sFrameHandle
  unfold sFrameAccesses at h
  dsimp only at h ⊢
  by_cases hwtx : data.getD 0 0 &&& sBlockWtxMask = sBlockWtxMask
  · rw [if_neg (not_not.mpr hwtx)]
    split
    · rfl
    next hlong =>
      rw [if_neg (by simp [-List.getD_eq_getElem?_getD, hwtx, hlong])] at h
      split
      · rfl
      next hwtxm =>
        rw [if_neg hwtxm] at h
        simp at h
        apply drop_write_zero
        simp [wtxFrame]
        omega
  · rw [if_pos hwtx]
    split
    · split <;> rfl
    · rfl

theorem rFrameHandle_behind (h : AllInside len k (s.rFrameHandleAccesses data len)) :
    (s.rFrameHandle env data len).state.txData.data.drop k = s.txData.data.drop k := by
  unfold rFrameHandle
  unfold rFrameHandleAccesses asksForChunk at h
  dsimp only
  split
  · rfl
  next hlong =>
    split
    · rfl
    next hack =>
      split
      · rfl
      next hchaining =>
        split
        next hnum =>
          rw [if_pos (by simpa [-List.getD_eq_getElem?_getD] using
            ⟨Nat.le_of_not_lt hlong, not_not.mp hack, not_not.mp hchaining, hnum⟩)] at h
          exact chunkSend_behind (s := s.blockNumToggle) (AllInside.cons.mp h).2 env
        · unfold retransmit
          split
          · rfl
          · split <;> rfl

theorem iFrameHandle_behind (h : AllInside len k (s.iFrameAccesses data len)) :
    (s.iFrameHandle env data len).state.txData.data.drop k = s.txData.data.drop k := by
  unfold iFrameHandle
  unfold iFrameAccesses at h
  dsimp only at h ⊢
  split
  · rfl
  next hshort =>
    split
    · rfl
    next hroom =>
      rw [if_neg (not_or.mpr ⟨hshort, hroom⟩)] at h
      by_cases hchains : data.getD 0 0 &&& iBlockChainingBit = 0
      · rw [if_neg (not_not.mpr hchains)]
        split <;> rfl
      · rw [if_pos hchains] at h ⊢
        have hr := (AllInside.cons.mp (AllInside.cons.mp h).2).2
        split <;> exact (rFrameSend_behind (by exact hr) env true).trans rfl

theorem atsParse_behind (env : Env) (s : T4tIsodep) (data : Memory) (len : Nat) (now : Int) :
    (s.atsParse env data len now).state.txData.data = s.txData.data := by
  unfold atsParse
  dsimp only
  split
  · rfl
  · split <;> rfl

theorem reportErr_behind (env : Env) (o : Outcome) :
    (reportErr env o).state.txData.data = o.state.txData.data := by
  unfold reportErr
  split <;> rfl

theorem frameHandle_behind (h : AllInside len k (s.frameAccesses data len)) :
    (s.frameHandle env data len).state.txData.data.drop k = s.txData.data.drop k := by
  unfold frameHandle
  unfold frameAccesses at h
  dsimp only
  by_cases hfixed : data.getD 0 0 &&& blockFixedBit = 0
  · rw [if_neg (not_not.mpr hfixed)]
  · rw [if_pos hfixed] at h ⊢
    have h := (AllInside.cons.mp h).2
    split at h
    next hs =>
      rw [if_pos hs]
      exact sFrameHandle_behind h
    next hs =>
      rw [if_neg hs]
      split at h
      next hr =>
        rw [if_pos hr]
        exact rFrameHandle_behind h
      next hr =>
        rw [if_neg hr]
        exact iFrameHandle_behind h

theorem transmit_behind {data : Option Memory} {now : Int}
    (h : AllInside 0 k ((Call.transmit data len now).accesses env s)) :
    (s.transmit env data len now).state.txData.data.drop k = s.txData.data.drop k := by
  unfold transmit
  simp only [Call.accesses] at h
  cases data with
  | none => rfl
  | some bytes =>
    dsimp only
    split
    · rfl
    next hlen =>
      split
      next hsel =>
        split
        · rfl
        next hnow =>
          have hwaits : s.waits now = false := decide_eq_false hnow
          rw [if_pos ⟨rfl, Nat.le_of_not_lt hlen, hsel, by simp [hwaits]⟩] at h
          exact (chunkSend_behind (by exact h) env).trans rfl
      · rfl

theorem dataReceived_behind {data : Option Memory} {err : Bool} {now : Int}
    (h : AllInside len k ((Call.dataReceived data len err now).accesses env s)) :
    (s.dataReceived env data len err now).state.txData.data.drop k = s.txData.data.drop k := by
  unfold dataReceived
  simp only [Call.accesses] at h
  cases data with
  | none => rfl
  | some bytes =>
    dsimp only
    split
    · rfl
    next hlen =>
      rw [if_pos ⟨rfl, Nat.le_of_not_lt hlen⟩] at h
      split at h
      next herr =>
        rw [if_pos herr]
        exact errorHandle_behind h false
      next herr =>
        rw [if_neg herr]
        split at h
        next hats => rw [if_pos hats, reportErr_behind, atsParse_behind]
        next hats =>
          rw [if_neg hats, reportErr_behind]
          exact frameHandle_behind h

end T4tIsodep

/-- When the writes of a call lie below an index, the Tx buffer stays as it is from there on. -/
theorem run_behind {env : Env} {s : T4tIsodep} {c : Call} {k : Nat}
    (h : AllInside c.receivedLen k (c.accesses env s)) :
    (c.run env s).state.txData.data.drop k = s.txData.data.drop k := by
  cases c with
  | ratsSend fsd did =>
    simp only [Call.run, T4tIsodep.ratsSend]
    simp only [Call.accesses] at h
    split
    next hstate =>
      split
      · rfl
      next hdid =>
        split
        · rfl
        next hfsd =>
          rw [if_pos ⟨hstate, UInt8.not_lt.mp hdid, Nat.le_of_not_lt hfsd⟩] at h
          simp at h
          exact drop_write_zero h _
    · rfl
  | tagDeselect =>
    simp only [Call.run, T4tIsodep.tagDeselect]
    simp only [Call.accesses] at h
    split
    next hsel =>
      rw [if_pos hsel] at h
      simp at h
      apply drop_write_zero
      simp
      omega
    · rfl
  | transmit data len now => exact T4tIsodep.transmit_behind h
  | dataReceived data len err now => exact T4tIsodep.dataReceived_behind h
  | onTimeout => exact T4tIsodep.errorHandle_behind h true
  | delayHandler => exact (T4tIsodep.chunkSend_behind (by exact h) env).trans rfl

/-- What every run keeps: the sizes that initialisation has accepted, a 16-bit frame size, and a
position inside the data of the transfer. -/
structure Sized (s : T4tIsodep) : Prop where
  bufSize_ge : 16 ≤ s.txData.bufSize
  bufSize_lt : s.txData.bufSize < 2 ^ 32
  fsc_lt : s.tag.fsc < 2 ^ 16
  transmitted_le : s.transmittedLen ≤ s.transmitLen
  transmit_lt : s.transmitLen < 2 ^ 32

namespace Sized

variable {env : Env} {s s' : T4tIsodep}

theorem headerLen_pos (tag : Tag) : 1 ≤ headerLen tag ∧ headerLen tag ≤ 2 := by
  unfold headerLen
  split <;> simp

/-- A state with the Tx buffer, the tag and the transfer of `s`. -/
theorem of_eq (h : Sized s) (htx : s'.txData.bufSize = s.txData.bufSize) (htag : s'.tag = s.tag)
    (hlen : s'.transmitLen = s.transmitLen) (hpos : s'.transmittedLen = s.transmittedLen) :
    Sized s' := by
  constructor <;> simp only [htx, htag, hlen, hpos]
  exacts [h.bufSize_ge, h.bufSize_lt, h.fsc_lt, h.transmitted_le, h.transmit_lt]

theorem left_eq (h : Sized s) :
    subU32 s.transmitLen s.transmittedLen = s.transmitLen - s.transmittedLen :=
  subU32_of_le h.transmitted_le h.transmit_lt

theorem chunkLen_le (h : Sized s) : s.chunkLen ≤ s.transmitLen - s.transmittedLen := by
  have hleft := h.left_eq
  unfold T4tIsodep.chunkLen T4tIsodep.chunkChains
  split
  next hchains =>
    have hchains := of_decide_eq_true hchains
    omega
  · omega

theorem chunk_fits (h : Sized s) :
    headerLen s.tag + s.chunkLen ≤ s.txData.bufSize ↔ s.ChunkFits := by
  obtain ⟨hge, hlt, hfsc, hpos, hlen⟩ := h
  obtain ⟨hheader, hheader'⟩ := headerLen_pos s.tag
  unfold T4tIsodep.ChunkFits Tag.FitsBuffer T4tIsodep.chunkLen T4tIsodep.chunkChains subU32
  split
  next hchains =>
    have hchains := of_decide_eq_true hchains
    omega
  next hchains =>
    have hchains := of_decide_eq_false (eq_false_of_ne_true hchains)
    omega

theorem cleared (h : Sized s) : Sized s.transmissionClear :=
  ⟨h.bufSize_ge, h.bufSize_lt, h.fsc_lt, le_refl 0, by simp [T4tIsodep.transmissionClear]⟩

theorem startTransfer (h : Sized s) {len : Nat} (hlen : len < 2 ^ 32) (data : Memory) :
    Sized (s.startTransfer data len) :=
  ⟨h.bufSize_ge, h.bufSize_lt, h.fsc_lt, Nat.zero_le len, hlen⟩

theorem chunkSend (h : Sized s) (env : Env) : Sized (s.chunkSend env).1 := by
  have hchunk := h.chunkLen_le
  have hpos := h.transmitted_le
  refine ⟨h.bufSize_ge, h.bufSize_lt, h.fsc_lt, ?_, h.transmit_lt⟩
  simp only [T4tIsodep.chunkSend]
  omega

theorem errorHandle (h : Sized s) (timeout : Bool) : Sized (s.errorHandle env timeout).1 := by
  unfold T4tIsodep.errorHandle
  dsimp only
  split
  · have hinitialized := h.cleared
    exact hinitialized.of_eq rfl rfl rfl rfl
  · unfold T4tIsodep.recoverySend
    split <;> exact h.of_eq rfl rfl rfl rfl

theorem reportErr {o : Outcome} (h : Sized o.state) : Sized (T4tIsodep.reportErr env o).state := by
  unfold T4tIsodep.reportErr
  split
  · exact h
  · exact h.cleared

theorem atsParse (h : Sized s) (data : Memory) (len : Nat) (now : Int) :
    Sized (s.atsParse env data len now).state := by
  unfold T4tIsodep.atsParse
  dsimp only
  split
  · exact h.of_eq rfl rfl rfl rfl
  · split
    · exact h.of_eq rfl rfl rfl rfl
    · exact ⟨h.bufSize_ge, h.bufSize_lt, Nat.mod_lt _ (by decide), h.transmitted_le, h.transmit_lt⟩

theorem received (h : Sized s) (toggle : Bool) (inf : List UInt8) : Sized (s.received toggle inf) := by
  cases toggle <;> exact h.of_eq rfl rfl rfl rfl

theorem frameHandle (h : Sized s) (data : Memory) (len : Nat) :
    Sized (s.frameHandle env data len).state := by
  have hhandled := T4tIsodep.frameHandle_handled env s data len
  generalize s.frameHandle env data len = o at hhandled
  cases hhandled with
  | nextChunk =>
    have htoggled : Sized s.blockNumToggle := h.of_eq rfl rfl rfl rfl
    exact htoggled.chunkSend env
  | chained toggle inf => exact (h.received toggle inf).of_eq rfl rfl rfl rfl
  | completed toggle inf => exact (h.received toggle inf).of_eq rfl rfl rfl rfl
  | _ => exact h.of_eq rfl rfl rfl rfl

theorem run (h : Sized s) {c : Call} (hc : c.Typed) : Sized (c.run env s).state := by
  cases c with
  | ratsSend fsd did =>
    simp only [Call.run, T4tIsodep.ratsSend]
    split
    · split
      · exact h.of_eq rfl rfl rfl rfl
      · split
        · exact h.of_eq rfl rfl rfl rfl
        · exact ⟨h.bufSize_ge, h.bufSize_lt, h.fsc_lt, h.transmitted_le, h.transmit_lt⟩
    · exact h
  | tagDeselect =>
    simp only [Call.run, T4tIsodep.tagDeselect]
    split
    · exact h.of_eq rfl rfl rfl rfl
    · exact h
  | transmit data len now =>
    have htransmitted := s.transmit_transmitted env data len now
    simp only [Call.run]
    generalize s.transmit env data len now = o at htransmitted
    cases htransmitted with
    | refused => exact h
    | delayed bytes => exact (h.startTransfer hc bytes).of_eq rfl rfl rfl rfl
    | sent bytes time =>
      have hstarted : Sized { s.startTransfer bytes len with atsReceivedTime := time } :=
        (h.startTransfer hc bytes).of_eq rfl rfl rfl rfl
      exact hstarted.chunkSend env
  | dataReceived data len err now =>
    simp only [Call.run, T4tIsodep.dataReceived]
    cases data with
    | none => exact h
    | some data =>
      dsimp only
      split
      · exact h
      · split
        · exact h.errorHandle false
        · split
          · have hwithout : Sized { s with atsExpected := false } := h.of_eq rfl rfl rfl rfl
            exact (hwithout.atsParse data len now).reportErr
          · exact (h.frameHandle data len).reportErr
  | onTimeout => exact h.errorHandle true
  | delayHandler =>
    have hstarted : Sized { s with workPending := false } := h.of_eq rfl rfl rfl rfl
    exact hstarted.chunkSend env

end Sized

theorem allInside_atsReads (data : Memory) {len bufSize : Nat} :
    AllInside len bufSize (atsReads data len) ∧
        AllInside fsdValueMapLen histMaxLen (atsTagAccesses data len) ↔ AtsSound data len := by
  unfold AtsSound atsReads atsTagAccesses
  by_cases hlen : 2 ≤ len
  · by_cases hbad : badAts data len = true
    · simp [hlen, hbad, Nat.not_lt.mpr hlen]
      omega
    · simp only [Nat.not_lt.mpr hlen, hbad, or_false, if_false, hlen, Bool.false_eq_true, true_implies,
        not_false_eq_true]
      unfold atsEnd atsTc atsTb fsdValueMapLen histMaxLen
      split_ifs <;> simp <;> omega
  · simp [hlen, Nat.lt_of_not_le hlen]

namespace Sized

variable {env : Env} {s : T4tIsodep} {data : Memory} {len : Nat}

theorem rFrame_inside (h : Sized s) : AllInside len s.txData.bufSize s.rFrameAccesses := by
  have hge := h.bufSize_ge
  have hheader := (headerLen_pos s.tag).2
  simp [T4tIsodep.rFrameAccesses]
  omega

theorem error_inside (h : Sized s) : AllInside len s.txData.bufSize (s.errorAccesses env) := by
  unfold T4tIsodep.errorAccesses
  split
  · exact h.rFrame_inside
  · exact AllInside.nil

theorem chunk_inside (h : Sized s) :
    AllInside len s.txData.bufSize s.chunkAccesses ↔ s.ChunkFits := by
  have hheader := (headerLen_pos s.tag).1
  rw [← h.chunk_fits]
  simp [T4tIsodep.chunkAccesses]
  omega

theorem sFrame_inside (h : Sized s) (hlen : 1 ≤ len)
    (hs : data.getD 0 0 &&& sBlockIndicator ≠ 0) :
    AllInside len s.txData.bufSize (s.sFrameAccesses data len) ↔ WtxSound data len := by
  have hge := h.bufSize_ge
  have hheader := (headerLen_pos s.tag).2
  unfold T4tIsodep.sFrameAccesses WtxSound
  by_cases hwtx : data.getD 0 0 &&& sBlockWtxMask = sBlockWtxMask
  · simp only [hwtx, hs, ne_eq, not_true_eq_false, not_false_eq_true, false_or, true_implies]
    split_ifs <;> simp [-List.getD_eq_getElem?_getD] <;> omega
  · simp [-List.getD_eq_getElem?_getD, hwtx, hlen]

theorem iFrame_inside (h : Sized s) (hlen : 1 ≤ len) :
    AllInside len s.txData.bufSize (s.iFrameAccesses data len) := by
  have hr : AllInside len s.txData.bufSize s.rFrameAccesses := h.rFrame_inside
  unfold T4tIsodep.iFrameAccesses
  dsimp only
  split_ifs <;> simp [hr] <;> omega

theorem frame_inside (h : Sized s) (hlen : 1 ≤ len) :
    AllInside len s.txData.bufSize (s.frameAccesses data len) ↔ s.BlockSound data len := by
  unfold T4tIsodep.frameAccesses T4tIsodep.BlockSound
  by_cases hfixed : data.getD 0 0 &&& blockFixedBit = 0
  · simp [-List.getD_eq_getElem?_getD, hfixed, hlen]
  · by_cases hs : data.getD 0 0 &&& sBlockIndicator = 0
    · have hwtx : WtxSound data len := fun hs' => absurd hs hs'
      by_cases hr : data.getD 0 0 &&& rBlockIndicator = 0
      · simp [-List.getD_eq_getElem?_getD, hfixed, hs, hr, hlen, h.iFrame_inside hlen, hwtx]
      · simp only [hfixed, hs, hr, ne_eq, not_true_eq_false, not_false_eq_true, if_true, if_false,
          AllInside.cons, T4tIsodep.rFrameHandleAccesses, true_implies, hwtx, true_and]
        split_ifs with hack <;> simp [hlen, hack, h.chunk_inside]
    · simp [-List.getD_eq_getElem?_getD, hfixed, hs, hlen, h.sFrame_inside hlen hs]

theorem deselect_inside (h : Sized s) :
    AllInside len s.txData.bufSize (Call.tagDeselect.accesses env s) := by
  simp only [Call.accesses]
  split
  · exact h.rFrame_inside
  · exact AllInside.nil

theorem ratsSend_inBounds (h : Sized s) {fsd : Nat} (hfsd : fsd < fsdValueMapLen) (did : UInt8) :
    (Call.ratsSend fsd did).InBounds env s := by
  have hge := h.bufSize_ge
  simp only [Call.InBounds, Call.accesses, Call.tagAccesses]
  constructor <;> split_ifs <;> simp <;> omega

theorem transmit_inBounds (h : Sized s) (hlen : len < 2 ^ 32) (data : Option Memory) (now : Int) :
    (Call.transmit data len now).InBounds env s ↔ (Call.transmit data len now).Sound s := by
  have hchunk : AllInside 0 s.txData.bufSize (s.startTransfer (data.getD []) len).chunkAccesses ↔
      s.tag.FitsBuffer s.txData.bufSize len := (h.startTransfer hlen (data.getD [])).chunk_inside
  simp only [Call.InBounds, Call.accesses, Call.tagAccesses, Call.Sound, Call.receivedLen,
    AllInside.nil, and_true]
  split_ifs with hstart
  · rw [hchunk]
    exact ⟨fun hfits _ _ _ _ => hfits, fun hsound => hsound hstart.1 hstart.2.1 hstart.2.2.1
      hstart.2.2.2⟩
  · exact ⟨fun _ hdata hpos hsel hnow => absurd ⟨hdata, hpos, hsel, hnow⟩ hstart,
      fun _ => AllInside.nil⟩

theorem dataReceived_inBounds (h : Sized s) (data : Option Memory) (err : Bool) (now : Int) :
    (Call.dataReceived data len err now).InBounds env s ↔
      (Call.dataReceived data len err now).Sound s := by
  simp only [Call.InBounds, Call.accesses, Call.tagAccesses, Call.Sound, Call.receivedLen]
  by_cases hdata : data.isSome = true ∧ 1 ≤ len
  · cases err with
    | true => simp [hdata, h.error_inside]
    | false =>
      cases hats : s.atsExpected with
      | true => simp [hdata, allInside_atsReads]
      | false => simp [hdata, h.frame_inside hdata.2]
  · have hnone : ¬ (data.isSome = true ∧ 1 ≤ len ∧ err = false ∧ s.atsExpected = true) :=
      fun hall => hdata ⟨hall.1, hall.2.1⟩
    rw [if_neg hdata, if_neg hnone]
    exact ⟨fun _ hsome hpos => absurd ⟨hsome, hpos⟩ hdata, fun _ => ⟨AllInside.nil, AllInside.nil⟩⟩

theorem inBounds_iff (h : Sized s) {c : Call} (hc : c.Typed) : c.InBounds env s ↔ c.Sound s := by
  cases c with
  | ratsSend fsd did => exact iff_of_true (h.ratsSend_inBounds hc did) trivial
  | tagDeselect => exact iff_of_true ⟨h.deselect_inside, AllInside.nil⟩ trivial
  | transmit data len now => exact h.transmit_inBounds hc data now
  | dataReceived data len err now => exact h.dataReceived_inBounds data err now
  | onTimeout => exact iff_of_true ⟨h.error_inside, AllInside.nil⟩ trivial
  | delayHandler => exact (and_iff_left AllInside.nil).trans h.chunk_inside

end Sized

theorem sized_init {txBuf rxBuf : Memory} {sizeTx sizeRx : Nat} (hsize : sizeTx < 2 ^ 32)
    (hinit : (T4tIsodep.reset.init txBuf sizeTx rxBuf sizeRx).err = none) :
    Sized (T4tIsodep.reset.init txBuf sizeTx rxBuf sizeRx).state := by
  unfold T4tIsodep.init at hinit ⊢
  split_ifs at hinit ⊢ with htx hrx hstate
  exact ⟨Nat.le_of_not_lt htx, hsize, Nat.two_pow_pos 16, le_refl 0, Nat.two_pow_pos 32⟩

def Call.Possible (s : T4tIsodep) (c : Call) : Prop := c.Typed ∧ c.Enabled s

def nextState (env : Env) (s : T4tIsodep) (c : Call) : T4tIsodep := (c.run env s).state

/-- In every run of calls that meet the condition, the next call stays inside its buffers exactly when it
meets the condition as well. -/
theorem frames_inBounds_iff (env : Env) {txBuf rxBuf : Memory} {sizeTx sizeRx : Nat}
    (hsize : sizeTx < 2 ^ 32) (hinit : (T4tIsodep.reset.init txBuf sizeTx rxBuf sizeRx).err = none)
    {s : T4tIsodep} (hs : Reached (nextState env) (fun s c => c.Possible s ∧ c.Sound s)
      (T4tIsodep.reset.init txBuf sizeTx rxBuf sizeRx).state s)
    {c : Call} (hc : c.Possible s) : c.InBounds env s ↔ c.Sound s := by
  have hsized : Sized s := hs.invariant (sized_init hsize hinit)
    (fun _ _ hsized hguard => hsized.run hguard.1.1)
  exact hsized.inBounds_iff hc.1

instance (env : Env) (s : T4tIsodep) (c : Call) : Decidable (c.InBounds env s) :=
  inferInstanceAs (Decidable (_ ∧ _))

instance (c : Call) : Decidable c.Typed := by
  cases c with
  | ratsSend fsd did => exact inferInstanceAs (Decidable (fsd < _))
  | transmit data len now => exact inferInstanceAs (Decidable (len < _))
  | dataReceived data len err now => exact inferInstanceAs (Decidable (len < _))
  | _ => exact inferInstanceAs (Decidable True)

instance (s : T4tIsodep) (c : Call) : Decidable (c.Enabled s) := by
  cases c with
  | delayHandler => exact inferInstanceAs (Decidable (s.workPending = true))
  | _ => exact inferInstanceAs (Decidable True)

instance (s : T4tIsodep) (c : Call) : Decidable (c.Possible s) :=
  inferInstanceAs (Decidable (_ ∧ _))

instance (tag : Tag) (bufSize left : Nat) : Decidable (tag.FitsBuffer bufSize left) :=
  inferInstanceAs (Decidable (_ ∨ _))

instance (s : T4tIsodep) : Decidable s.ChunkFits :=
  inferInstanceAs (Decidable (s.tag.FitsBuffer _ _))

instance (data : Memory) (len : Nat) : Decidable (AtsSound data len) :=
  inferInstanceAs (Decidable (_ → _ → _ ∧ _ ∧ _))

instance (data : Memory) (len : Nat) : Decidable (WtxSound data len) :=
  inferInstanceAs (Decidable (_ → _ → _))

instance (s : T4tIsodep) (data : Memory) (len : Nat) : Decidable (s.BlockSound data len) :=
  inferInstanceAs (Decidable (_ → _ ∧ (_ → _ → _ → _)))

instance (s : T4tIsodep) (c : Call) : Decidable (c.Sound s) := by
  cases c with
  | dataReceived data len err now =>
    exact inferInstanceAs (Decidable (_ → _ → _ → if s.atsExpected then AtsSound (data.getD []) len
      else s.BlockSound (data.getD []) len))
  | transmit data len now => exact inferInstanceAs (Decidable (_ → _ → _ → _ → _))
  | delayHandler => exact inferInstanceAs (Decidable s.ChunkFits)
  | _ => exact inferInstanceAs (Decidable True)

/-- The state after initialisation with a Tx buffer of `size` bytes. -/
def startedWith (size : Nat) : T4tIsodep :=
  (T4tIsodep.reset.init (List.replicate size 0) size (List.replicate 16 0) 16).state

def activation : List Call :=
  [.ratsSend 0 1, .dataReceived (some [0x06, 0x75, 0x80, 0x40, 0x02, 0xAA]) 6 false 0]

theorem activation_inBounds :
    (Call.transmit (some (List.replicate 100 0x55)) 100 1000).InBounds defaultEnv
      (activation.foldl (nextState defaultEnv) (startedWith 64)) := by
  have hguarded : Reached.Guarded (nextState defaultEnv) (fun s c => c.Possible s ∧ c.Sound s)
      (startedWith 64) activation := by decide
  exact (frames_inBounds_iff defaultEnv (by decide) (by decide) (Reached.run .start hguarded)
    (by decide)).mpr (by decide)

/-- An ATS with a size code behind the map, one without its TA and one with 18 historical bytes; then,
with an FSC of 254 bytes and a Tx buffer of 16, an S(WTX) without a multiplier and 100 bytes to send. -/
theorem frames_out_of_bounds :
    (∃ s, Reached (nextState defaultEnv) (fun s c => c.Possible s) (startedWith 16) s ∧
      ∀ c ∈ [Call.dataReceived (some [0x02, 0x0F]) 2 false 0,
        .dataReceived (some [0x02, 0x10]) 2 false 0,
        .dataReceived (some (0x14 :: List.replicate 19 0)) 20 false 0],
        c.Possible s ∧ ¬ c.InBounds defaultEnv s) ∧
    ∃ s, Reached (nextState defaultEnv) (fun s c => c.Possible s) (startedWith 16) s ∧
      ∀ c ∈ [Call.dataReceived (some [0xF2]) 1 false 0,
        .transmit (some (List.replicate 100 0x55)) 100 1000],
        c.Possible s ∧ ¬ c.InBounds defaultEnv s := by
  have hrats : Reached.Guarded (nextState defaultEnv) (fun s c => c.Possible s) (startedWith 16)
      [.ratsSend 0 0] := by decide
  have hats : Reached.Guarded (nextState defaultEnv) (fun s c => c.Possible s) (startedWith 16)
      [.ratsSend 0 0, .dataReceived (some [0x02, 0x08]) 2 false 0] := by decide
  exact ⟨⟨_, Reached.run .start hrats, by decide⟩, _, Reached.run .start hats,
    by decide⟩

end SdkNrf.Isodep
