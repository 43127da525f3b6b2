import SdkNrf.Type4Tag.HlProcedure

/-!
# The NDEF update against a tag

The reader clears NLEN, sends the image chunk by chunk and sets NLEN last.
-/

namespace SdkNrf.Type4Tag

abbrev TagFile := Nat → UInt8

namespace TagFile

def write (file : TagFile) (off : Nat) (data : List UInt8) : TagFile := fun i =>
  if off ≤ i ∧ i < off + data.length then data.getD (i - off) 0 else file i

/-- The first `len` bytes. -/
def start (file : TagFile) (len : Nat) : List UInt8 := (List.range len).map file

theorem write_of_lt {file : TagFile} {off i : Nat} {data : List UInt8} (h : i < off) :
    file.write off data i = file i :=
  if_neg (by omega)

theorem write_of_le {file : TagFile} {off i : Nat} {data : List UInt8}
    (h : off + data.length ≤ i) : file.write off data i = file i :=
  if_neg (by omega)

theorem write_of_mem {file : TagFile} {off i : Nat} {data : List UInt8} (hle : off ≤ i)
    (hlt : i < off + data.length) : file.write off data i = data.getD (i - off) 0 :=
  if_pos ⟨hle, hlt⟩

end TagFile

def decodeUpdate : List UInt8 → Option (Nat × List UInt8)
  | cla :: ins :: p1 :: p2 :: lc :: data =>
    if cla = 0 ∧ ins = 0xD6 ∧ lc.toNat = data.length then some (be16Value p1 p2, data) else none
  | _ => none

/-- Reader and tag; `pending` is the command that the tag has not answered and `log` is what the
reader has handed on. -/
structure Exchange where
  reader : HlProcedure
  file : TagFile
  pending : Option (List UInt8)
  log : List Output

def Output.command? : Output → Option (List UInt8)
  | .transmit apdu => some apdu
  | _ => none

def Outcome.sent (o : Outcome) : Option (List UInt8) :=
  if o.err.isSome then none else o.outputs.findSome? Output.command?

def Exchange.start (file : TagFile) (o : Outcome) : Exchange := ⟨o.state, file, o.sent, o.outputs⟩

def Exchange.respond (e : Exchange) (file : TagFile) (o : Outcome) : Exchange :=
  ⟨o.state, file, o.sent, e.log ++ o.outputs⟩

def cmdCompleted : List UInt8 := [0x90, 0x00]

/-- The tag applies the pending command and answers that it is completed. -/
def Exchange.step (env : Env) (e : Exchange) : Exchange :=
  match e.pending.bind decodeUpdate with
  | none => { e with pending := none }
  | some (off, data) =>
    e.respond (e.file.write off data) (onDataReceived env e.reader cmdCompleted)

/-- The exchange has `n` commands, NLEN is zero from the first command until the last one, the file
then starts with the image, and the last thing that happens is the only call of `ndef_updated`. -/
structure UpdatedAfter (env : Env) (image : Memory) (fileId : Nat) (e : Exchange) (n : Nat) :
    Prop where
  pending : ∀ k < n, ((Exchange.step env)^[k] e).pending ≠ none
  ended : ((Exchange.step env)^[n] e).pending = none
  nlen_zero : ∀ k, 1 ≤ k → k < n → ((Exchange.step env)^[k] e).file.start 2 = [0, 0]
  file : ((Exchange.step env)^[n] e).file.start image.length = image
  log : ∃ commands : List (List UInt8), commands.length = n ∧
    ((Exchange.step env)^[n] e).log = commands.map .transmit ++ [.ndefUpdated fileId]

structure ShortUpdate (off : Nat) (data : List UInt8) : Prop where
  off_lt : off < 2 ^ 16
  pos : 0 < data.length
  le : data.length ≤ 255

section Command

variable {off : Nat} {data : List UInt8}

theorem bytes_updateComm (h : ShortUpdate off data) :
    (updateComm off data).bytes = [0, 0xD6] ++ be16 off ++ [UInt8.ofNat data.length] ++ data := by
  have hle := h.le
  have hlc : ¬ lcLongFormatThr < data.length := by
    unfold lcLongFormatThr
    omega
  simp [ApduComm.bytes, updateComm, ApduComm.clear, ApduData.of, ApduData.bytes, respLenBytes,
    ApduCommIns.code, hlc]

theorem decodeUpdate_bytes (h : ShortUpdate off data) :
    decodeUpdate (updateComm off data).bytes = some (off, data) := by
  have hle := h.le
  have hlc : (UInt8.ofNat data.length).toNat = data.length := by
    rw [UInt8.toNat_ofNat']
    omega
  rw [bytes_updateComm h]
  simp only [be16, List.cons_append, List.nil_append, decodeUpdate, hlc, and_self, if_true]
  rw [be16Value_be16 h.off_lt]

theorem apduCommSizeCalc_updateComm (h : ShortUpdate off data) :
    apduCommSizeCalc (updateComm off data) = 5 + data.length := by
  have hle := h.le
  have hlc : ¬ lcLongFormatThr < data.length := by
    unfold lcLongFormatThr
    omega
  simp [apduCommSizeCalc, updateComm, ApduComm.clear, ApduData.of, hlc]
  omega

theorem dataExchange_updateComm (env : Env) (s : HlProcedure) (h : ShortUpdate off data)
    (hfits : 5 + data.length ≤ s.apduBuff.length) :
    ∃ buff : Memory, buff.length = s.apduBuff.length ∧
      dataExchange env s (updateComm off data) = ⟨{ s with apduBuff := buff },
        [.transmit (updateComm off data).bytes],
        env.isodepTransmit (updateComm off data).bytes⟩ := by
  have hpos := h.pos
  have hlen : (updateComm off data).bytes.length = 5 + data.length := by
    rw [bytes_updateComm h]
    simp [be16]
    omega
  refine ⟨s.apduBuff.write 0 (updateComm off data).bytes, ?_, ?_⟩
  · simp only [Memory.write, List.take_zero, List.nil_append, List.length_append, List.length_drop]
    omega
  · have hok : apduCommEncode (updateComm off data) s.apduBuff s.apduBuff.length =
        .ok (s.apduBuff.write 0 (updateComm off data).bytes, 5 + data.length) := by
      unfold apduCommEncode
      rw [if_neg (fun hzero => absurd hzero.2 (Nat.ne_of_gt hpos)), apduCommSizeCalc_updateComm h,
        if_neg (by omega)]
    have htake : (s.apduBuff.write 0 (updateComm off data).bytes).take (5 + data.length) =
        (updateComm off data).bytes := by
      rw [Memory.write, List.take_zero, List.nil_append, ← hlen, List.take_left]
    unfold dataExchange
    rw [hok]
    simp only [htake]

theorem dataExchange_updateComm_of_lt (env : Env) (s : HlProcedure) (h : ShortUpdate off data)
    (hshort : s.apduBuff.length < 5 + data.length) :
    dataExchange env s (updateComm off data) = ⟨s, [], some .ENOMEM⟩ := by
  have hpos := h.pos
  have herror : apduCommEncode (updateComm off data) s.apduBuff s.apduBuff.length =
      .error .ENOMEM := by
    unfold apduCommEncode
    rw [if_neg (fun hzero => absurd hzero.2 (Nat.ne_of_gt hpos)), apduCommSizeCalc_updateComm h,
      if_pos hshort]
  unfold dataExchange
  rw [herror]

end Command

section Phases

variable (env : Env) (image : Memory) (ndef : HlNdef) (size : Nat)

/-- NLEN is zero and the image stands in the file up to `o`. -/
structure Holds (file : TagFile) (o : Nat) : Prop where
  nlen_zero : file.start 2 = [0, 0]
  chunks : ∀ i, 2 ≤ i → i < o → file i = image.getD i 0

def firstChunk : Nat := min (image.length - 2) (min apduLeMap2MaxValue ndef.cc.maxCapduSize)

/-- The reader's data during the update: a buffer of `size` bytes for commands. -/
structure Updating (s : HlProcedure) : Prop where
  ndef_eq : s.ndef = ndef
  size_eq : s.apduBuff.length = size

/-- The reader has sent the image up to `o`, and what it has sent last is pending. -/
structure Sending (e : Exchange) (o : Nat) (commands : List (List UInt8)) : Prop where
  updating : Updating ndef size e.reader
  type : e.reader.transactionType = .ndefNlenClear ∨ e.reader.transactionType = .ndefUpdate
  offset : e.reader.fileOffset = o
  two_le : 2 ≤ o
  le_length : o ≤ image.length
  pending : ∃ off data, ShortUpdate off data ∧
    e.pending = some (updateComm off data).bytes ∧ Holds image (e.file.write off data) o
  log : e.log = commands.map .transmit

structure Closing (e : Exchange) (commands : List (List UInt8)) : Prop where
  updating : Updating ndef size e.reader
  type : e.reader.transactionType = .ndefNlenUpdate
  pending : e.pending = some (updateComm 0 (be16 ndef.nlen)).bytes
  holds : Holds image e.file image.length
  log : e.log = commands.map .transmit

/-- What the caller of the update gives: an image with its own length in front, a tag that takes at
least a byte at a time, and an ISO-DEP layer that takes every command. -/
structure Setting : Prop where
  buff : ndef.buff = image
  buffSize : ndef.buffSize = image.length
  nlen : be16 ndef.nlen = image.take 2
  two_le : 2 ≤ image.length
  lt : image.length < 2 ^ 16
  capdu : 1 ≤ ndef.cc.maxCapduSize
  size : 7 ≤ size
  transmit : ∀ apdu, env.isodepTransmit apdu = none
  cb : env.cb.ndefUpdated = true

end Phases

section Steps

variable {env : Env} {image : Memory} {ndef : HlNdef} {size : Nat} {e : Exchange} {o : Nat}
  {commands : List (List UInt8)}

theorem onDataReceived_cmdCompleted (env : Env) (s : HlProcedure) :
    onDataReceived env s cmdCompleted = onRapduSucces env s [] := by
  simp [onDataReceived, apduRespDecode, cmdCompleted, be16Value, statusCmdCompleted]

theorem step_of_pending {off : Nat} {data : List UInt8} (h : ShortUpdate off data)
    (hpending : e.pending = some (updateComm off data).bytes) :
    e.step env = e.respond (e.file.write off data) (onRapduSucces env e.reader []) := by
  unfold Exchange.step
  rw [hpending, Option.bind_some, decodeUpdate_bytes h, ← onDataReceived_cmdCompleted]

theorem respond_of_fits (hset : Setting env image ndef size) {s : HlProcedure}
    (hup : Updating ndef size s) (file : TagFile) {off : Nat} {data : List UInt8}
    (h : ShortUpdate off data) (hfits : 5 + data.length ≤ size) :
    ∃ buff : Memory, buff.length = size ∧
      e.respond file (dataExchange env s (updateComm off data)) =
        ⟨{ s with apduBuff := buff }, file, some (updateComm off data).bytes,
          e.log ++ [.transmit (updateComm off data).bytes]⟩ := by
  obtain ⟨buff, hbuff, hexchange⟩ := dataExchange_updateComm env s h (hup.size_eq ▸ hfits)
  refine ⟨buff, hbuff.trans hup.size_eq, ?_⟩
  rw [hexchange, hset.transmit]
  rfl

theorem slice_length (hset : Setting env image ndef size) (len : Nat) (hle : o + len ≤ image.length) :
    (ndef.buff.slice o len).length = len := by
  rw [Memory.slice, List.length_take, List.length_drop, hset.buff]
  omega

/-- The chunk behind `o`. -/
def chunkAt (image : Memory) (ndef : HlNdef) (o : Nat) : Nat :=
  min (image.length - o) (min apduLeMap2MaxValue ndef.cc.maxCapduSize)

variable (image ndef) in

theorem chunkAt_le_firstChunk (h : 2 ≤ o) : chunkAt image ndef o ≤ firstChunk image ndef := by
  unfold chunkAt firstChunk
  omega

theorem chunkAt_pos (hset : Setting env image ndef size) (h : o < image.length) :
    0 < chunkAt image ndef o := by
  have := hset.capdu
  unfold chunkAt apduLeMap2MaxValue
  omega

theorem chunkAt_shortUpdate (hset : Setting env image ndef size) (h : o < image.length) :
    ShortUpdate o (ndef.buff.slice o (chunkAt image ndef o)) := by
  have hlt := hset.lt
  have hpos := chunkAt_pos hset h
  have hle : chunkAt image ndef o ≤ 255 ∧ chunkAt image ndef o ≤ image.length - o := by
    unfold chunkAt apduLeMap2MaxValue
    omega
  have hlen := slice_length (o := o) hset (chunkAt image ndef o) (by omega)
  constructor <;> omega

/-- Writing a chunk of the image behind `o`. -/
theorem Holds.write_chunk {file : TagFile} (h : Holds image file o) (htwo : 2 ≤ o) {data : List UInt8}
    (hdata : data = image.slice o data.length) :
    Holds image (file.write o data) (o + data.length) := by
  constructor
  case nlen_zero =>
    rw [← h.nlen_zero]
    simp only [TagFile.start, List.range_succ, List.range_zero, List.nil_append, List.cons_append,
      List.map_cons, List.map_nil]
    rw [TagFile.write_of_lt (by omega), TagFile.write_of_lt (by omega)]
  case chunks =>
    intro i hi hlt
    by_cases hio : i < o
    · rw [TagFile.write_of_lt hio]
      exact h.chunks i hi hio
    · rw [TagFile.write_of_mem (by omega) hlt, hdata, Memory.slice]
      simp only [List.getD_eq_getElem?_getD, List.getElem?_take, List.getElem?_drop]
      rw [if_pos (by omega), Nat.add_sub_cancel' (by omega)]

theorem Sending.onRapduSucces_eq (hs : Sending image ndef size e o commands) :
    onRapduSucces env e.reader [] = ndefFileChunkUpdate env e.reader := by
  rcases hs.type with h | h <;> simp only [onRapduSucces, h]

/-- The command that the reader builds behind `o`. -/
theorem Sending.onRapduSucces_chunk (hset : Setting env image ndef size)
    (hs : Sending image ndef size e o commands) (ho : o < image.length) :
    onRapduSucces env e.reader [] = dataExchange env
      { e.reader with fileOffset := o + chunkAt image ndef o, transactionType := .ndefUpdate }
      (updateComm o (ndef.buff.slice o (chunkAt image ndef o))) := by
  have hup := hs.updating
  have hlt := hset.lt
  have hle : chunkAt image ndef o ≤ image.length - o := by
    unfold chunkAt
    omega
  have hchunkLen : chunkLen e.reader = chunkAt image ndef o := by
    rw [chunkLen, hup.ndef_eq, hs.offset, hset.buffSize]
    rfl
  have hmod : (o + chunkAt image ndef o) % 2 ^ 16 = o + chunkAt image ndef o :=
    Nat.mod_eq_of_lt (by omega)
  rw [hs.onRapduSucces_eq, ndefFileChunkUpdate, hchunkLen, hs.offset, hmod]
  simp only [hup.ndef_eq, hset.buffSize, if_pos ho]

theorem Sending.step_chunk (hset : Setting env image ndef size) (hs : Sending image ndef size e o
    commands) (ho : o < image.length) (hfits : 5 + chunkAt image ndef o ≤ size) :
    ∃ command, Sending image ndef size (e.step env) (o + chunkAt image ndef o)
        (commands ++ [command]) ∧
      (e.step env).file.start 2 = [0, 0] := by
  obtain ⟨off, data, hshort, hpending, hholds⟩ := hs.pending
  have hup := hs.updating
  have hnext := chunkAt_shortUpdate hset ho
  have hle : chunkAt image ndef o ≤ image.length - o := by
    unfold chunkAt
    omega
  have hlen := slice_length (o := o) hset (chunkAt image ndef o) (by omega)
  have hlt := hset.lt
  have htwo := hs.two_le
  obtain ⟨buff, hbuff, hrespond⟩ := respond_of_fits (e := e) hset
    (s := { e.reader with fileOffset := o + chunkAt image ndef o, transactionType := .ndefUpdate })
    ⟨hup.ndef_eq, hup.size_eq⟩ (e.file.write off data) hnext (by omega)
  rw [step_of_pending hshort hpending, hs.onRapduSucces_chunk hset ho, hrespond]
  refine ⟨(updateComm o (ndef.buff.slice o (chunkAt image ndef o))).bytes, ?_, hholds.nlen_zero⟩
  constructor
  case updating => exact ⟨hup.ndef_eq, hbuff⟩
  case type => exact Or.inr rfl
  case offset => rfl
  case two_le => omega
  case le_length => omega
  case pending =>
    have hslice : ndef.buff.slice o (chunkAt image ndef o) =
        image.slice o (ndef.buff.slice o (chunkAt image ndef o)).length := by
      rw [hlen, hset.buff]
    have hwritten := hholds.write_chunk htwo hslice
    rw [hlen] at hwritten
    exact ⟨o, _, hnext, rfl, hwritten⟩
  case log => rw [hs.log, List.map_append, List.map_singleton]

theorem Sending.step_stuck (hset : Setting env image ndef size) (hs : Sending image ndef size e o
    commands) (ho : o < image.length) (hfits : size < 5 + chunkAt image ndef o) :
    (e.step env).pending = none ∧ (e.step env).log = commands.map .transmit := by
  obtain ⟨off, data, hshort, hpending, hholds⟩ := hs.pending
  have hle : chunkAt image ndef o ≤ image.length - o := by
    unfold chunkAt
    omega
  have hlen := slice_length (o := o) hset (chunkAt image ndef o) (by omega)
  rw [step_of_pending hshort hpending, hs.onRapduSucces_chunk hset ho,
    dataExchange_updateComm_of_lt env _ (chunkAt_shortUpdate hset ho)
      (by rw [hlen]; exact hs.updating.size_eq ▸ hfits)]
  exact ⟨rfl, by rw [Exchange.respond, List.append_nil, hs.log]⟩

theorem nlen_shortUpdate (v : Nat) : ShortUpdate 0 (be16 v) := by
  constructor <;> simp [be16]

theorem Sending.step_close (hset : Setting env image ndef size) (hs : Sending image ndef size e
    image.length commands) :
    ∃ command, Closing image ndef size (e.step env) (commands ++ [command]) := by
  obtain ⟨off, data, hshort, hpending, hholds⟩ := hs.pending
  have hup := hs.updating
  have hsuccess : onRapduSucces env e.reader [] = dataExchange env
      { e.reader with transactionType := .ndefNlenUpdate } (updateComm 0 (be16 ndef.nlen)) := by
    rw [hs.onRapduSucces_eq, ndefFileChunkUpdate,
      if_neg (by rw [hs.offset, hup.ndef_eq, hset.buffSize]; omega)]
    simp only [hup.ndef_eq]
  obtain ⟨buff, hbuff, hrespond⟩ := respond_of_fits (e := e) hset
    (s := { e.reader with transactionType := .ndefNlenUpdate }) ⟨hup.ndef_eq, hup.size_eq⟩
    (e.file.write off data) (nlen_shortUpdate ndef.nlen) hset.size
  rw [step_of_pending hshort hpending, hsuccess, hrespond]
  refine ⟨(updateComm 0 (be16 ndef.nlen)).bytes, ⟨hup.ndef_eq, hbuff⟩, rfl, rfl, hholds, ?_⟩
  rw [hs.log, List.map_append, List.map_singleton]

theorem Holds.write_nlen (hset : Setting env image ndef size) {file : TagFile}
    (h : Holds image file image.length) :
    (file.write 0 (be16 ndef.nlen)).start image.length = image := by
  have htwo := hset.two_le
  apply List.ext_getElem
  · rw [TagFile.start, List.length_map, List.length_range]
  intro i hi hi'
  simp only [TagFile.start, List.getElem_map, List.getElem_range]
  by_cases hlow : i < 2
  · rw [hset.nlen, TagFile.write_of_mem (by omega) (by rw [List.length_take]; omega), Nat.sub_zero,
      List.getD_eq_getElem?_getD, List.getElem?_take_of_lt hlow, List.getElem?_eq_getElem hi',
      Option.getD_some]
  · rw [TagFile.write_of_le (by simp [be16]; omega), h.chunks i (by omega) hi',
      List.getD_eq_getElem?_getD, List.getElem?_eq_getElem hi', Option.getD_some]

theorem Closing.step_done (hset : Setting env image ndef size)
    (hc : Closing image ndef size e commands) :
    (e.step env).pending = none ∧ (e.step env).file.start image.length = image ∧
      (e.step env).log = commands.map .transmit ++ [.ndefUpdated ndef.fileId] := by
  have hsuccess : onRapduSucces env e.reader [] =
      ⟨e.reader, [.ndefUpdated ndef.fileId], none⟩ := by
    simp only [onRapduSucces, hc.type, onNdefNlenUpdate, hset.cb, if_true, hc.updating.ndef_eq]
  rw [step_of_pending (nlen_shortUpdate ndef.nlen) hc.pending, hsuccess]
  exact ⟨rfl, hc.holds.write_nlen hset, by rw [Exchange.respond, hc.log]⟩

/-- The rest of an update, `n` commands long, of which the first one is the last of `commands`. -/
structure EndsAfter (env : Env) (image : Memory) (fileId : Nat) (commands : List (List UInt8))
    (e : Exchange) (n : Nat) : Prop where
  pending : ∀ k < n, ((Exchange.step env)^[k] e).pending ≠ none
  ended : ((Exchange.step env)^[n] e).pending = none
  nlen_zero : ∀ k, 1 ≤ k → k < n → ((Exchange.step env)^[k] e).file.start 2 = [0, 0]
  file : ((Exchange.step env)^[n] e).file.start image.length = image
  log : ∃ more : List (List UInt8), more.length + 1 = n ∧
    ((Exchange.step env)^[n] e).log = (commands ++ more).map .transmit ++ [.ndefUpdated fileId]

theorem EndsAfter.cons {n fileId : Nat} {command : List UInt8} (hpending : e.pending ≠ none)
    (hzero : (e.step env).file.start 2 = [0, 0])
    (h : EndsAfter env image fileId (commands ++ [command]) (e.step env) n) :
    EndsAfter env image fileId commands e (n + 1) := by
  constructor
  case pending =>
    intro k hk
    cases k with
    | zero => exact hpending
    | succ k => exact h.pending k (by omega)
  case ended => exact h.ended
  case nlen_zero =>
    intro k hk hlt
    match k with
    | 1 => exact hzero
    | k + 2 => exact h.nlen_zero (k + 1) (by omega) (by omega)
  case file => exact h.file
  case log =>
    obtain ⟨more, hmore, hlog⟩ := h.log
    refine ⟨command :: more, by rw [List.length_cons, hmore], ?_⟩
    rw [Function.iterate_succ_apply, hlog, List.append_assoc]
    rfl

theorem Closing.endsAfter (hset : Setting env image ndef size)
    (hc : Closing image ndef size e commands) :
    EndsAfter env image ndef.fileId commands e 1 := by
  obtain ⟨hended, hfile, hlog⟩ := hc.step_done hset
  constructor
  case pending =>
    intro k hk
    obtain rfl : k = 0 := by omega
    rw [Function.iterate_zero_apply, hc.pending]
    exact Option.some_ne_none _
  case ended => exact hended
  case nlen_zero => exact fun k hk hlt => absurd hk (by omega)
  case file => exact hfile
  case log => exact ⟨[], rfl, by rw [List.append_nil]; exact hlog⟩

theorem Sending.endsAfter (hset : Setting env image ndef size)
    (hfits : 5 + firstChunk image ndef ≤ size) (hs : Sending image ndef size e o commands) :
    ∃ n, EndsAfter env image ndef.fileId commands e n := by
  induction hm : image.length - o using Nat.strong_induction_on generalizing e o commands with
  | _ m ih =>
    have hpending : e.pending ≠ none := by
      obtain ⟨off, data, -, hp, -⟩ := hs.pending
      rw [hp]
      exact Option.some_ne_none _
    have hle := hs.le_length
    by_cases ho : o < image.length
    · have hchunk := chunkAt_le_firstChunk image ndef hs.two_le
      have hpos := chunkAt_pos hset ho
      obtain ⟨command, hnext, hzero⟩ := hs.step_chunk hset ho (by omega)
      obtain ⟨n, hn⟩ := ih _ (by omega) hnext rfl
      exact ⟨n + 1, hn.cons hpending hzero⟩
    · obtain rfl : o = image.length := by omega
      obtain ⟨command, hclosing⟩ := hs.step_close hset
      exact ⟨2, (hclosing.endsAfter hset).cons hpending hclosing.holds.nlen_zero⟩

end Steps

theorem ndefUpdate_of_accepted {env : Env} {s : HlProcedure} {cc : CcFile} {image : Memory}
    (haccept : (ndefUpdate env s cc image).err = none) :
    2 ≤ image.length ∧ ndefUpdate env s cc image =
      dataExchange env (s.startUpdate cc image) (updateComm 0 [0x00, 0x00]) := by
  unfold ndefUpdate at haccept ⊢
  dsimp only at haccept ⊢
  by_cases htwo : image.length < ndefFileNlenSize
  · rw [if_pos htwo] at haccept
    cases haccept
  rw [if_neg htwo] at haccept ⊢
  refine ⟨Nat.not_lt.mp htwo, ?_⟩
  cases hblock : ccFileContentGet cc s.ndef.fileId with
  | none =>
    rw [hblock] at haccept
    cases haccept
  | some tlvBlock =>
    rw [hblock] at haccept
    dsimp only at haccept ⊢
    split at haccept
    · cases haccept
    next hsize => rw [if_neg hsize]

private theorem clear_shortUpdate : ShortUpdate 0 [0x00, 0x00] :=
  ⟨by decide, by decide, by decide⟩

theorem ndefUpdate_sending {env : Env} {s : HlProcedure} {cc : CcFile} {image : Memory}
    (htransmit : ∀ apdu, env.isodepTransmit apdu = none) (hcb : env.cb.ndefUpdated = true)
    (hlt : image.length < 2 ^ 16) (hcapdu : 1 ≤ cc.maxCapduSize)
    (haccept : (ndefUpdate env s cc image).err = none) (file : TagFile) :
    Setting env image (s.startUpdate cc image).ndef s.apduBuff.length ∧
      Sending image (s.startUpdate cc image).ndef s.apduBuff.length
        (.start file (ndefUpdate env s cc image)) 2 [(updateComm 0 [0x00, 0x00]).bytes] := by
  obtain ⟨htwo, heq⟩ := ndefUpdate_of_accepted haccept
  have hroom : 7 ≤ s.apduBuff.length := by
    by_contra hshort
    have hfail := dataExchange_updateComm_of_lt env (s.startUpdate cc image) clear_shortUpdate
      (Nat.not_le.mp hshort)
    rw [heq, hfail] at haccept
    cases haccept
  obtain ⟨buff, hbuff, hexchange⟩ := dataExchange_updateComm env (s.startUpdate cc image)
    clear_shortUpdate hroom
  rw [heq, hexchange, htransmit]
  constructor
  · constructor
    case buff => rfl
    case buffSize => rfl
    case nlen =>
      match image, htwo with
      | b1 :: b0 :: rest, _ => exact be16_be16Value b1 b0
    case two_le => exact htwo
    case lt => exact hlt
    case capdu => exact hcapdu
    case size => exact hroom
    case transmit => exact htransmit
    case cb => exact hcb
  · constructor
    case updating => exact ⟨rfl, hbuff⟩
    case type => exact Or.inl rfl
    case offset => rfl
    case two_le => exact Nat.le_refl 2
    case le_length => exact htwo
    case pending =>
      refine ⟨0, _, clear_shortUpdate, rfl, rfl, ?_⟩
      intro i hi hilt
      omega
    case log => rfl

theorem Sending.not_updatedAfter {env : Env} {image : Memory} {ndef : HlNdef} {size fileId : Nat}
    {e : Exchange} {command : List UInt8} (hset : Setting env image ndef size)
    (hs : Sending image ndef size e 2 [command]) (hlt : 2 < image.length)
    (hshort : size < 5 + chunkAt image ndef 2) : ¬ ∃ n, UpdatedAfter env image fileId e n := by
  rintro ⟨n, hn⟩
  obtain ⟨hnone, hlog⟩ := hs.step_stuck hset hlt hshort
  obtain ⟨off, data, -, hpending, -⟩ := hs.pending
  match n with
  | 0 =>
    have hended := hn.ended
    rw [Function.iterate_zero_apply, hpending] at hended
    cases hended
  | 1 =>
    obtain ⟨commands, hlen, hcommands⟩ := hn.log
    rw [Function.iterate_one, hlog] at hcommands
    have := congrArg List.length hcommands
    simp [hlen] at this
  | n + 2 => exact hn.pending 1 (by omega) hnone

/-- An accepted update is crash safe and complete exactly when there is nothing to send but NLEN or
when the first chunk fits the buffer for commands. -/
theorem ndefUpdate_updatedAfter_iff {env : Env} (htransmit : ∀ apdu, env.isodepTransmit apdu = none)
    (hcb : env.cb.ndefUpdated = true) (s : HlProcedure) (cc : CcFile)
    (hcapdu : 1 ≤ cc.maxCapduSize) (image : Memory) (hlt : image.length < 2 ^ 16)
    (haccept : (ndefUpdate env s cc image).err = none) (file : TagFile) :
    (∃ n, UpdatedAfter env image s.ndef.fileId (.start file (ndefUpdate env s cc image)) n) ↔
      image.length = 2 ∨
        5 + min (image.length - 2) (min 255 cc.maxCapduSize) ≤ s.apduBuff.length := by
  obtain ⟨hset, hs⟩ := ndefUpdate_sending htransmit hcb hlt hcapdu haccept file
  have hcc : (s.startUpdate cc image).ndef.cc = cc := rfl
  constructor
  · intro hupdated
    by_contra hcond
    rw [not_or] at hcond
    have htwo := hset.two_le
    have hshort : s.apduBuff.length < 5 + chunkAt image (s.startUpdate cc image).ndef 2 := by
      unfold chunkAt apduLeMap2MaxValue
      rw [hcc]
      omega
    exact hs.not_updatedAfter hset (by omega) hshort hupdated
  · intro hcond
    have hfits : 5 + firstChunk image (s.startUpdate cc image).ndef ≤ s.apduBuff.length := by
      have hsize := hset.size
      unfold firstChunk apduLeMap2MaxValue
      rw [hcc]
      omega
    obtain ⟨n, hn⟩ := hs.endsAfter hset hfits
    obtain ⟨more, hmore, hlog⟩ := hn.log
    exact ⟨n, hn.pending, hn.ended, hn.nlen_zero, hn.file,
      [(updateComm 0 [0x00, 0x00]).bytes] ++ more, by simp [← hmore],
      hlog⟩

private def exampleEnv : Env := ⟨fun _ => none, fun cc _ _ => .ok cc, ⟨true, true, true, true⟩⟩

private def exampleCc : CcFile := ⟨[⟨0xE104, 1024, none⟩], 255, 255⟩

private def exampleReader : HlProcedure :=
  ⟨⟨exampleCc, 0, []⟩, ⟨exampleCc, [], 0, 0, 0xE104⟩, .select, .ndefFileSelect, 0,
    List.replicate 255 0⟩

/-- An image whose only record takes three bytes. -/
theorem emptyRecord_updatedAfter : ∃ n, UpdatedAfter exampleEnv [0x00, 0x03, 0xD0, 0x00, 0x00]
    0xE104 (.start (fun _ => 0) (ndefUpdate exampleEnv exampleReader exampleCc
      [0x00, 0x03, 0xD0, 0x00, 0x00])) n :=
  (ndefUpdate_updatedAfter_iff (fun _ => rfl) rfl exampleReader exampleCc (by decide) _ (by decide)
    (by decide +kernel) _).mpr (Or.inr (by decide +kernel))

private def longImage : Memory := 0x00 :: 0xFB :: List.replicate 251 0x00

theorem longImage_not_updatedAfter :
    (ndefUpdate exampleEnv exampleReader exampleCc longImage).err = none ∧
      ¬ ∃ n, UpdatedAfter exampleEnv longImage 0xE104
        (.start (fun _ => 0) (ndefUpdate exampleEnv exampleReader exampleCc longImage)) n := by
  have haccept : (ndefUpdate exampleEnv exampleReader exampleCc longImage).err = none := by
    decide +kernel
  obtain ⟨hset, hs⟩ := ndefUpdate_sending (fun _ => rfl) rfl (by decide +kernel) (by decide) haccept
    (fun _ => 0)
  exact ⟨haccept, hs.not_updatedAfter hset (by decide +kernel) (by decide +kernel)⟩

end SdkNrf.Type4Tag
