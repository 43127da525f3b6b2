import SdkNrf.Framework.Bytes
import SdkNrf.Framework.Slip

/-!
# Ethernet over RTT

Frames are sent with their CRC as SLIP frames over an RTT channel.
-/

namespace SdkNrf.EthRtt

open Slip

section Send

-- `crc16_ccitt` takes the bytes one by one.

variable (crcStep : UInt16 → UInt8 → UInt16)

def crc16 (crc : UInt16) (data : List UInt8) : UInt16 := data.foldl crcStep crc

/-- `end_stuffed` and `esc_stuffed`. -/
def stuffed (b : UInt8) : List UInt8 := if b = endByte then [esc, escEnd] else [esc, escEsc]

/-- The loop of `rtt_send_fragment`, with the bytes from `plain_begin` to `ptr`: the bytes that are
written from here on. -/
def sendLoop (plain : List UInt8) : List UInt8 → List UInt8
  | [] => plain
  | b :: rest =>
    if b = endByte ∨ b = esc then plain ++ stuffed b ++ sendLoop [] rest
    else sendLoop (plain ++ [b]) rest

/-- `rtt_send_fragment`: the CRC and the bytes that are written. -/
def sendFragment (crc : UInt16) (data : List UInt8) : UInt16 × List UInt8 :=
  (crc16 crcStep crc data, sendLoop [] data)

/-- `rtt_send_fragment` for each fragment of a frame. -/
def sendFragments (crc : UInt16) : List (List UInt8) → UInt16 × List UInt8
  | [] => (crc, [])
  | fragment :: fragments =>
    let (crc, bytes) := sendFragment crcStep crc fragment
    ((sendFragments crc fragments).1, bytes ++ (sendFragments crc fragments).2)

/-- `crc_buffer`. -/
def crcBytes (crc : UInt16) : List UInt8 := [(crc >>> 8).toUInt8, (crc &&& 0xFF).toUInt8]

/-- `eth_send`: `rtt_send_begin`, the fragments, and `rtt_send_end`. -/
def sendFrame (fragments : List (List UInt8)) : List UInt8 :=
  let (crc, bytes) := sendFragments crcStep 0xFFFF fragments
  [endByte] ++ bytes ++ sendLoop [] (crcBytes crc) ++ [endByte]

/-- The receiving half of `struct eth_rtt_context`. -/
structure Context where
  rxBuffer : Memory
  rxBufferLength : Nat

/-- `recv_frame`: the frame that is passed on. -/
def recvFrame (data : List UInt8) : Option (List UInt8) :=
  if data.length ≤ 2 then none
  else
    let frame := data.take (data.length - 2)
    if data.drop (data.length - 2) = crcBytes (crc16 crcStep 0xFFFF frame) then some frame else none

/-- The variables of `decode_new_slip_data`, and the data that `recv_frame` has got. -/
structure Decoder where
  mem : Memory
  src : Nat
  dst : Nat
  start : Nat
  lastByte : UInt8
  received : List (List UInt8)

def putByte (mem : Memory) (pos : Nat) (b : UInt8) : Option Memory :=
  if pos < mem.length then some (mem.write pos [b]) else none

/-- `dst[-1] = b`, where `dst` is an index. -/
def putBefore (mem : Memory) (pos : Nat) (b : UInt8) : Option Memory :=
  if pos = 0 then none else putByte mem (pos - 1) b

def getRange (mem : Memory) (pos len : Nat) : Option (List UInt8) :=
  if pos + len ≤ mem.length then some (mem.slice pos len) else none

/-- One turn of the loop of `decode_new_slip_data`. -/
def decodeTurn (d : Decoder) : Option Decoder := do
  let byte ← d.mem[d.src]?
  let mem ← putByte d.mem d.dst byte
  let src := d.src + 1
  let dst := d.dst + 1
  if byte = endByte then
    let data ← getRange mem d.start (dst - d.start - 1)
    return ⟨mem, src, dst, dst, byte, d.received ++ [data]⟩
  else if d.lastByte = esc then
    if byte = escEnd then
      let mem ← putBefore mem (dst - 1) endByte
      return ⟨mem, src, dst - 1, d.start, byte, d.received⟩
    else if byte = escEsc then
      let mem ← putBefore mem (dst - 1) esc
      return ⟨mem, src, dst - 1, d.start, byte, d.received⟩
    else return ⟨mem, src, dst, d.start, byte, d.received⟩
  else return ⟨mem, src, dst, d.start, byte, d.received⟩

/-- The loop, for the bytes from `src` to `end`. -/
def decodeLoop : Nat → Decoder → Option Decoder
  | 0, d => some d
  | n + 1, d => decodeTurn d >>= decodeLoop n

/-- The initial value of `last_byte`. -/
def firstLastByte (ctx : Context) : Option UInt8 :=
  if ctx.rxBufferLength > 0 then ctx.rxBuffer[ctx.rxBufferLength - 1]? else some 0

def decodeNewSlipData (ctx : Context) (newDataSize : Nat) :
    Option (Context × List (List UInt8)) := do
  let lastByte ← firstLastByte ctx
  let d ← decodeLoop newDataSize
    ⟨ctx.rxBuffer, ctx.rxBufferLength, ctx.rxBufferLength, 0, lastByte, []⟩
  let length := d.dst - d.start
  if length > 0 ∧ d.start ≠ 0 then
    let left ← getRange d.mem d.start length
    return (⟨d.mem.write 0 left, length⟩, d.received)
  else return (⟨d.mem, length⟩, d.received)

/-- The check for an overflow in `poll_work_handler`. -/
def discardOverflow (ctx : Context) : Context :=
  if ctx.rxBufferLength ≥ ctx.rxBuffer.length then { ctx with rxBufferLength := 0 } else ctx

/-- A turn of `poll_work_handler` in which `SEGGER_RTT_Read` reads these bytes: what `recv_frame` passes
on. -/
def pollTurn (ctx : Context) (bytes : List UInt8) : Option (Context × List (List UInt8)) := do
  let ctx := discardOverflow ctx
  let (ctx, received) ← decodeNewSlipData
    { ctx with rxBuffer := ctx.rxBuffer.write ctx.rxBufferLength bytes } bytes.length
  return (ctx, received.filterMap (recvFrame crcStep))

end Send

/-- The buffer holds what is done, the decoded part of the frame, bytes that are free again, and the bytes
that are left. -/
structure View (d : Decoder) (st : State) (pre gap raw post : List UInt8) : Prop where
  mem : d.mem = pre ++ (st.body ++ (gap ++ (raw ++ post)))
  start : d.start = pre.length
  dst : d.dst = pre.length + st.body.length
  src : d.src = pre.length + st.body.length + gap.length
  lastByte : d.lastByte = st.last
  tail : st.last = esc → st.body.getLast? = some esc

section View

variable {d : Decoder} {st : State} {pre gap raw post : List UInt8}

theorem write_byte {front rest : List UInt8} {old x : UInt8} {pos : Nat} (hpos : pos = front.length) :
    Memory.write (front ++ ([old] ++ rest)) pos [x] = front ++ ([x] ++ rest) :=
  Memory.write_field hpos rfl

theorem View.put {b : UInt8} (h : View d st pre gap (b :: raw) post) :
    d.mem[d.src]? = some b ∧ ∃ gap', gap'.length = gap.length ∧
      putByte d.mem d.dst b = some (pre ++ (st.body ++ ([b] ++ (gap' ++ (raw ++ post))))) := by
  constructor
  · have hmem : d.mem = (pre ++ st.body ++ gap) ++ (b :: (raw ++ post)) := by
      rw [h.mem]
      simp only [List.append_assoc, List.cons_append]
    have hsrc : d.src = (pre ++ st.body ++ gap).length := by
      rw [h.src, List.length_append, List.length_append]
    rw [hmem, hsrc, List.getElem?_append_right (le_refl _), Nat.sub_self]
    rfl
  · cases hgap : gap ++ [b] with
    | nil => simp at hgap
    | cons g gap' =>
      have hlength := congrArg List.length hgap
      simp only [List.length_append, List.length_cons, List.length_nil] at hlength
      refine ⟨gap', by omega, ?_⟩
      have hmem : d.mem = (pre ++ st.body) ++ ([g] ++ (gap' ++ (raw ++ post))) := by
        have hjoin : gap ++ (b :: raw ++ post) = [g] ++ (gap' ++ (raw ++ post)) := by
          rw [List.cons_append, List.append_cons, hgap]
          simp
        rw [h.mem, hjoin, List.append_assoc]
      have hroom : d.dst < d.mem.length := by
        rw [hmem, h.dst]
        simp
      unfold putByte
      rw [if_pos hroom, hmem, write_byte (by rw [h.dst, List.length_append]), List.append_assoc]

theorem putBefore_last {body rest : List UInt8} (hbody : body ≠ []) (x : UInt8) :
    putBefore (pre ++ (body ++ rest)) (pre.length + body.length) x =
      some (pre ++ ((body.dropLast ++ [x]) ++ rest)) := by
  have hpos := List.length_pos_iff.mpr hbody
  have hmem : pre ++ (body ++ rest) = (pre ++ body.dropLast) ++ ([body.getLast hbody] ++ rest) := by
    conv_lhs => rw [← List.dropLast_append_getLast hbody]
    simp
  unfold putBefore putByte
  rw [if_neg (by omega), if_pos (by simp; omega), hmem, write_byte (by simp; omega)]
  simp

theorem getRange_field {body rest : List UInt8} {pos len : Nat} (hpos : pos = pre.length)
    (hlen : len = body.length) : getRange (pre ++ (body ++ rest)) pos len = some body := by
  unfold getRange
  rw [if_pos (by simp; omega), Memory.slice_field hpos hlen]

theorem View.turn {b : UInt8} (h : View d st pre gap (b :: raw) post) :
    ∃ d' pre' gap', decodeTurn d = some d' ∧ View d' (st.step b) pre' gap' raw post ∧
      d'.received = d.received ++ st.finished b ∧ d'.mem.length = d.mem.length := by
  obtain ⟨hread, gap', hgap, hput⟩ := h.put
  have hstart := h.start
  have hdst := h.dst
  have hsrc := h.src
  have htail := tail_step st b
  have hlength : (pre ++ (st.body ++ ([b] ++ (gap' ++ (raw ++ post))))).length = d.mem.length := by
    rw [h.mem]
    simp [hgap]
    omega
  have hne : st.last = esc → st.body ≠ [] := by
    intro hlast hnil
    have hbody := h.tail hlast
    rw [hnil] at hbody
    cases hbody
  -- A byte that is put back into the free bytes, behind the replaced one.
  have hreplace (hlast : st.last = esc) (x : UInt8) :
      putBefore (pre ++ (st.body ++ ([b] ++ (gap' ++ (raw ++ post))))) (d.dst + 1 - 1) x =
        some (pre ++ ((st.body.dropLast ++ [x]) ++ ((b :: gap') ++ (raw ++ post)))) ∧
      (st.body.dropLast ++ [x]).length = st.body.length ∧
      (pre ++ ((st.body.dropLast ++ [x]) ++ ((b :: gap') ++ (raw ++ post)))).length =
        d.mem.length := by
    have hpos := List.length_pos_iff.mpr (hne hlast)
    refine ⟨?_, ?_, ?_⟩
    · rw [Nat.add_sub_cancel, hdst]
      exact putBefore_last (hne hlast) x
    · rw [List.length_append, List.length_dropLast, List.length_singleton]
      omega
    · rw [← hlength]
      simp
      omega
  unfold decodeTurn
  simp only [hread, hput, Option.bind_eq_bind, Option.bind_some, h.lastByte]
  by_cases hend : b = endByte
  · subst hend
    rw [if_pos rfl, getRange_field hstart (by omega), step_endByte, State.finished, if_pos rfl]
    rw [step_endByte] at htail
    refine ⟨_, pre ++ (st.body ++ [endByte]), gap', rfl, ⟨?_, ?_, ?_, ?_, rfl, htail⟩, rfl, hlength⟩
    · simp
    · simp; omega
    · simp; omega
    · simp; omega
  · rw [if_neg hend, State.finished, if_neg hend, List.append_nil]
    by_cases hsecond : st.last = esc ∧ (b = escEnd ∨ b = escEsc)
    · obtain ⟨hlast, rfl | rfl⟩ := hsecond
      · obtain ⟨hbefore, hbody, hsame⟩ := hreplace hlast endByte
        rw [step_escEnd hlast] at htail ⊢
        rw [if_pos hlast, if_pos rfl, hbefore]
        refine ⟨_, pre, escEnd :: gap', rfl, ⟨rfl, hstart, ?_, ?_, rfl, htail⟩, rfl, hsame⟩
        · rw [hbody]
          exact hdst
        · rw [hbody, List.length_cons, hgap, hsrc, Nat.add_assoc]
      · obtain ⟨hbefore, hbody, hsame⟩ := hreplace hlast esc
        rw [step_escEsc hlast] at htail ⊢
        rw [if_pos hlast, if_neg (by decide), if_pos rfl, hbefore]
        refine ⟨_, pre, escEsc :: gap', rfl, ⟨rfl, hstart, ?_, ?_, rfl, htail⟩, rfl, hsame⟩
        · rw [hbody]
          exact hdst
        · rw [hbody, List.length_cons, hgap, hsrc, Nat.add_assoc]
    · rw [step_plain hend hsecond] at htail ⊢
      have hview : View ⟨pre ++ (st.body ++ ([b] ++ (gap' ++ (raw ++ post)))), d.src + 1, d.dst + 1,
          d.start, b, d.received⟩ ⟨st.body ++ [b], b⟩ pre gap' raw post := by
        refine ⟨?_, hstart, ?_, ?_, rfl, htail⟩
        · simp
        · simp; omega
        · simp; omega
      by_cases hlast : st.last = esc
      · rw [if_pos hlast, if_neg (fun hb => hsecond ⟨hlast, Or.inl hb⟩),
          if_neg (fun hb => hsecond ⟨hlast, Or.inr hb⟩)]
        exact ⟨_, pre, gap', rfl, hview, rfl, hlength⟩
      · rw [if_neg hlast]
        exact ⟨_, pre, gap', rfl, hview, rfl, hlength⟩

theorem View.loop (h : View d st pre gap raw post) :
    ∃ d' pre' gap', decodeLoop raw.length d = some d' ∧ View d' (st.run raw).1 pre' gap' [] post ∧
      d'.received = d.received ++ (st.run raw).2 ∧ d'.mem.length = d.mem.length := by
  induction raw generalizing d st pre gap with
  | nil => exact ⟨d, pre, gap, rfl, h, by simp [State.run], rfl⟩
  | cons b raw ih =>
    obtain ⟨d₁, pre₁, gap₁, hturn, hview₁, hreceived₁, hlength₁⟩ := h.turn
    obtain ⟨d₂, pre₂, gap₂, hloop, hview₂, hreceived₂, hlength₂⟩ := ih hview₁
    refine ⟨d₂, pre₂, gap₂, ?_, hview₂, ?_, hlength₂.trans hlength₁⟩
    · rw [List.length_cons, decodeLoop, hturn]
      exact hloop
    · rw [hreceived₂, hreceived₁, State.run, List.append_assoc]

end View

/-- The buffer holds this part of a frame, and has `size` bytes. -/
structure Holds (ctx : Context) (body : List UInt8) (size : Nat) : Prop where
  length : ctx.rxBufferLength = body.length
  size : ctx.rxBuffer.length = size
  buffer : ∃ rest, ctx.rxBuffer = body ++ rest

section Poll

variable {ctx : Context} {body bytes : List UInt8} {size : Nat}

theorem Holds.le (h : Holds ctx body size) : body.length ≤ size := by
  obtain ⟨rest, hrest⟩ := h.buffer
  rw [← h.size, hrest, List.length_append]
  omega

theorem firstLastByte_eq (hlength : ctx.rxBufferLength = body.length) {rest : List UInt8}
    (hbuffer : ctx.rxBuffer = body ++ rest) : firstLastByte ctx = some (resume body).last := by
  rw [firstLastByte, hlength, hbuffer]
  by_cases hpos : body.length > 0
  · have hlast := List.getLast?_eq_getElem? (l := body)
    rw [if_pos hpos, List.getElem?_append_left (by omega), ← hlast]
    simp only [resume]
    cases hbody : body.getLast? with
    | none =>
      rw [List.getLast?_eq_none_iff.mp hbody] at hpos
      cases hpos
    | some last => rfl
  · have hnil : body = [] := List.length_eq_zero_iff.mp (by omega)
    rw [if_neg hpos, hnil]
    rfl

theorem decodeNewSlipData_eq {post : List UInt8} (hlength : ctx.rxBufferLength = body.length)
    (hbuffer : ctx.rxBuffer = body ++ (bytes ++ post)) (hsize : ctx.rxBuffer.length = size) :
    ∃ ctx', decodeNewSlipData ctx bytes.length = some (ctx', ((resume body).run bytes).2) ∧
      Holds ctx' ((resume body).run bytes).1.body size := by
  have hview : View ⟨ctx.rxBuffer, ctx.rxBufferLength, ctx.rxBufferLength, 0, (resume body).last, []⟩
      (resume body) [] [] bytes post :=
    ⟨hbuffer, rfl, by simp [hlength, resume], by simp [hlength, resume], rfl,
      getLast?_of_getD (by decide)⟩
  obtain ⟨d, pre, gap, hloop, hd, hreceived, hdlength⟩ := hview.loop
  have hleft : d.dst - d.start = ((resume body).run bytes).1.body.length := by
    rw [hd.dst, hd.start]
    omega
  have hmem := hd.mem
  have hdsize : d.mem.length = size := by
    rw [hdlength]
    exact hsize
  unfold decodeNewSlipData
  simp only [firstLastByte_eq hlength hbuffer, hloop, Option.bind_eq_bind, Option.bind_some, hleft,
    List.nil_append] at hreceived ⊢
  rw [hreceived]
  generalize ((resume body).run bytes).1.body = left at hmem hleft ⊢
  split_ifs with hmove
  · rw [hmem, getRange_field hd.start rfl]
    refine ⟨_, rfl, rfl, ?_, ?_⟩
    · rw [← hdsize, hmem]
      simp [Memory.write]
      omega
    · exact ⟨_, by rw [Memory.write, List.take_zero, List.nil_append]⟩
  · refine ⟨_, rfl, rfl, hdsize, ?_⟩
    by_cases hnil : left = []
    · exact ⟨d.mem, by rw [hnil, List.nil_append]⟩
    · have hstart : d.start = 0 := by
        by_contra hne
        exact hmove ⟨List.length_pos_iff.mpr hnil, hne⟩
      have hpre : pre = [] := List.length_eq_zero_iff.mp (by rw [← hd.start, hstart])
      rw [hmem, hpre]
      exact ⟨_, rfl⟩

end Poll

theorem pollTurn_eq (crcStep : UInt16 → UInt8 → UInt16) {ctx : Context} {body bytes : List UInt8}
    {size : Nat} (h : Holds ctx body size) (hroom : body.length < size)
    (hfit : body.length + bytes.length ≤ size) :
    ∃ ctx', pollTurn crcStep ctx bytes =
        some (ctx', ((resume body).run bytes).2.filterMap (recvFrame crcStep)) ∧
      Holds ctx' ((resume body).run bytes).1.body size := by
  obtain ⟨hlength, hsize, rest, hrest⟩ := h
  have hkeep : discardOverflow ctx = ctx := by
    unfold discardOverflow
    rw [if_neg (by omega)]
  have hrestLength : bytes.length ≤ rest.length := by
    rw [hrest, List.length_append] at hsize
    omega
  obtain ⟨field, post, hfield, hfieldLength⟩ := Memory.exists_field rest bytes.length hrestLength
  have hwrite : ctx.rxBuffer.write ctx.rxBufferLength bytes = body ++ (bytes ++ post) := by
    rw [hrest, hfield]
    exact Memory.write_field hlength hfieldLength.symm
  have hwriteSize : (ctx.rxBuffer.write ctx.rxBufferLength bytes).length = size := by
    rw [hwrite, ← hsize, hrest, hfield]
    simp [hfieldLength]
  obtain ⟨ctx', hdecode, hholds⟩ : ∃ ctx', decodeNewSlipData
      { ctx with rxBuffer := ctx.rxBuffer.write ctx.rxBufferLength bytes } bytes.length =
        some (ctx', ((resume body).run bytes).2) ∧
      Holds ctx' ((resume body).run bytes).1.body size :=
    decodeNewSlipData_eq hlength hwrite hwriteSize
  refine ⟨ctx', ?_, hholds⟩
  unfold pollTurn
  rw [hkeep]
  simp only [Option.bind_eq_bind, hdecode, Option.bind_some]
  rfl

end SdkNrf.EthRtt
