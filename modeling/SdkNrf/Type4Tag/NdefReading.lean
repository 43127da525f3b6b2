import SdkNrf.Type4Tag.NdefUpdate

/-!
# The NDEF read against a tag

The reader asks for NLEN and then for the message, chunk by chunk, and the tag may answer every command with
fewer bytes than it asks for.
-/

namespace SdkNrf.Type4Tag

/-- The `len` bytes of the file at `off`. -/
def TagFile.slice (file : TagFile) (off len : Nat) : List UInt8 :=
  (List.range len).map fun i => file (off + i)

def decodeRead : List UInt8 → Option (Nat × Nat)
  | [cla, ins, p1, p2, le] =>
    if cla = 0 ∧ ins = 0xB0 then
      some (be16Value p1 p2, if le = 0 then 256 else le.toNat)
    else none
  | _ => none

/-- The number of bytes in the answer of a tag that would like to send `wish` bytes: at least one and
at most what the command asks for. -/
def answerLength (wish le : Nat) : Nat := min (max 1 wish) le

/-- Reader and tag; `pending` is the command that the tag has not answered, `log` is what the reader has
handed on, and `err` is what its last call returned. -/
structure ReadExchange where
  reader : HlProcedure
  pending : Option (List UInt8)
  log : List Output
  err : Option Errno
  answers : Nat

def ReadExchange.start (o : Outcome) : ReadExchange := ⟨o.state, o.sent, o.outputs, o.err, 0⟩

def ReadExchange.respond (e : ReadExchange) (o : Outcome) : ReadExchange :=
  ⟨o.state, o.sent, e.log ++ o.outputs, o.err, e.answers + 1⟩

/-- The tag answers the pending command with as many bytes as it likes. -/
def ReadExchange.step (env : Env) (file : TagFile) (wish : Nat → Nat) (e : ReadExchange) :
    ReadExchange :=
  match e.pending.bind decodeRead with
  | none => { e with pending := none }
  | some (off, le) =>
    e.respond (onDataReceived env e.reader
      (file.slice off (answerLength (wish e.answers) le) ++ cmdCompleted))

/-- The exchange after `n` answers. -/
def ReadExchange.run (env : Env) (file : TagFile) (wish : Nat → Nat) (e : ReadExchange) (n : Nat) :
    ReadExchange := (ReadExchange.step env file wish)^[n] e

def TagFile.nlen (file : TagFile) : Nat := be16Value (file 0) (file 1)

inductive ReadEnd
  | read (data : List UInt8)
  | failed (err : Errno)
  deriving DecidableEq

/-- The exchange has ended so: the last thing handed on is the only call of `ndef_read`, or there is
none and the last call returned an error. -/
def ReadEnd.Reached (fileId : Nat) (commands : List (List UInt8)) (e : ReadExchange) : ReadEnd → Prop
  | read data => e.err = none ∧ e.log = commands.map .transmit ++ [.ndefRead fileId data]
  | failed err => e.err = some err ∧ e.log = commands.map .transmit

section Command

variable {off le : Nat}

theorem bytes_readComm (hle : 0 < le) (hlt : le < 256) :
    (readComm off le).bytes = [0, 0xB0] ++ be16 off ++ [UInt8.ofNat le] := by
  have hlong : ¬ leLongFormatThr < le := by
    unfold leLongFormatThr
    omega
  have hthr : ¬ le = leLongFormatThr := by
    unfold leLongFormatThr
    omega
  simp [ApduComm.bytes, readComm, ApduComm.clear, ApduData.bytes, respLenBytes, ApduCommIns.code,
    hlong, hthr, Nat.ne_of_gt hle]

theorem decodeRead_bytes (hoff : off < 2 ^ 16) (hle : 0 < le) (hlt : le < 256) :
    decodeRead (readComm off le).bytes = some (off, le) := by
  have htoNat : (UInt8.ofNat le).toNat = le := by
    rw [UInt8.toNat_ofNat']
    omega
  have hne : UInt8.ofNat le ≠ 0 := by
    intro hzero
    rw [hzero] at htoNat
    exact absurd htoNat hle.ne
  rw [bytes_readComm hle hlt]
  simp only [be16, List.cons_append, List.nil_append, decodeRead, and_self, if_true, if_neg hne,
    htoNat, be16Value_be16 hoff]

theorem dataExchange_readComm (env : Env) (off : Nat) (s : HlProcedure) (hle : 0 < le) (hlt : le < 256)
    (hfits : 5 ≤ s.apduBuff.length) :
    ∃ buff : Memory, buff.length = s.apduBuff.length ∧
      dataExchange env s (readComm off le) = ⟨{ s with apduBuff := buff },
        [.transmit (readComm off le).bytes], env.isodepTransmit (readComm off le).bytes⟩ := by
  have hlen : (readComm off le).bytes.length = 5 := by
    rw [bytes_readComm hle hlt]
    rfl
  have hlong : ¬ leLongFormatThr < le := by
    unfold leLongFormatThr
    omega
  have hsize : apduCommSizeCalc (readComm off le) = 5 := by
    simp [apduCommSizeCalc, readComm, ApduComm.clear, hlong, Nat.ne_of_gt hle]
  refine ⟨s.apduBuff.write 0 (readComm off le).bytes, ?_, ?_⟩
  · simp only [Memory.write, List.take_zero, List.nil_append, List.length_append, List.length_drop]
    omega
  · have hok : apduCommEncode (readComm off le) s.apduBuff s.apduBuff.length =
        .ok (s.apduBuff.write 0 (readComm off le).bytes, 5) := by
      unfold apduCommEncode
      rw [if_neg (fun h => absurd h.1 Bool.false_ne_true), hsize, if_neg (by omega)]
    have htake : (s.apduBuff.write 0 (readComm off le).bytes).take 5 = (readComm off le).bytes := by
      rw [Memory.write, List.take_zero, List.nil_append, ← hlen, List.take_left]
    unfold dataExchange
    rw [hok]
    simp only [htake]

theorem onDataReceived_answer (env : Env) (s : HlProcedure) (data : List UInt8) :
    onDataReceived env s (data ++ cmdCompleted) = onRapduSucces env s data := by
  have hlen : (data ++ cmdCompleted).length = data.length + 2 := by
    rw [List.length_append]
    rfl
  have hhigh : (data ++ cmdCompleted).getD data.length 0 = 0x90 := by
    simp [cmdCompleted]
  have hlow : (data ++ cmdCompleted).getD (data.length + 1) 0 = 0x00 := by
    simp [cmdCompleted]
  have hstatus : be16Value 0x90 0x00 = statusCmdCompleted := rfl
  have hdata (resp : ApduData) (h : resp.len = data.length) :
      (data ++ cmdCompleted).take resp.len = data := by
    rw [h, List.take_left]
  unfold onDataReceived apduRespDecode
  rw [hlen, if_neg (by omega), if_neg (by omega), Nat.add_sub_cancel]
  dsimp only
  rw [hhigh, hlow, hstatus]
  rw [if_pos rfl]
  split_ifs with hpos
  · rw [hdata _ rfl]
  · rw [hdata _ (by dsimp only; omega)]

end Command

theorem TagFile.length_slice (file : TagFile) (off len : Nat) : (file.slice off len).length = len := by
  rw [slice, List.length_map, List.length_range]

theorem TagFile.start_add (file : TagFile) (m n : Nat) :
    file.start (m + n) = file.start m ++ file.slice m n := by
  simp [start, slice, List.range_add, Function.comp_def]

theorem answerLength_le (wish le : Nat) : answerLength wish le ≤ le := Nat.min_le_right _ _

theorem answerLength_pos {wish le : Nat} (h : 0 < le) : 0 < answerLength wish le :=
  Nat.lt_min.mpr ⟨lt_max_of_lt_left Nat.one_pos, h⟩

section Chunk

variable (env : Env) (file : TagFile) (cc : CcFile) (fileId size : Nat)

/-- What the caller of the read gives: an ISO-DEP layer that takes every command, a callback, and a
capability container with a positive size for answers; and what the reader keeps: its room for commands
and the buffer for the file. -/
structure ReadSetting : Prop where
  transmit : ∀ apdu, env.isodepTransmit apdu = none
  cb : env.cb.ndefRead = true
  rapdu : 1 ≤ cc.maxRapduSize
  size_lt : size < 2 ^ 16

/-- The reader has the first `o` bytes of the file. -/
structure HasRead (s : HlProcedure) (o : Nat) : Prop where
  cc_eq : s.ndef.cc = cc
  fileId_eq : s.ndef.fileId = fileId
  buffSize : s.ndef.buffSize = size
  length : s.ndef.buff.length = size
  le : o ≤ size
  offset : s.fileOffset = o
  start : s.ndef.buff.take o = file.start o
  room : 5 ≤ s.apduBuff.length

/-- What the reader asks for behind `o`. -/
def nextLe (nlen : Nat) (cc : CcFile) (o : Nat) : Nat :=
  min (nlen - (o - ndefFileNlenSize)) (min apduLeMap2MaxValue cc.maxRapduSize)

end Chunk

section Chunks

variable {env : Env} {file : TagFile} {cc : CcFile} {fileId size : Nat} {s : HlProcedure} {o n : Nat}

theorem nextLe_bounds (hset : ReadSetting env cc size) (hge : 2 ≤ o)
    (hlt : o < n + ndefFileNlenSize) :
    0 < nextLe n cc o ∧ nextLe n cc o < 256 ∧ o + nextLe n cc o ≤ n + ndefFileNlenSize := by
  have hrapdu := hset.rapdu
  unfold nextLe apduLeMap2MaxValue ndefFileNlenSize at *
  omega

/-- The bytes behind `o` are stored where they belong. -/
theorem take_write_slice {buff : Memory} (h : buff.take o = file.start o) (ho : o ≤ buff.length)
    (data : List UInt8) (hdata : data = file.slice o data.length) :
    (buff.write o data).take (o + data.length) = file.start (o + data.length) := by
  have hlen : (file.start o ++ data).length = o + data.length := by
    rw [← h, List.length_append, List.length_take_of_le ho]
  rw [Memory.write, h, ← hlen, List.take_left, hlen, TagFile.start_add, ← hdata]

theorem length_write {buff data : Memory} (h : o + data.length ≤ buff.length) :
    (buff.write o data).length = buff.length := by
  simp only [Memory.write, List.length_append, List.length_take, List.length_drop]
  omega

theorem HasRead.chunk_of_lt (h : HasRead file cc fileId size s o) {data : List UInt8}
    (hlt : size < o + data.length) : ndefFileChunkRead env s data = ⟨s, [], some .ENOMEM⟩ := by
  rw [ndefFileChunkRead, h.buffSize, h.offset, if_pos hlt]

def HlProcedure.stored (s : HlProcedure) (o : Nat) (data : List UInt8) : HlProcedure :=
  { s with ndef.buff := s.ndef.buff.write o data, fileOffset := o + data.length }

theorem HasRead.stored (h : HasRead file cc fileId size s o) {data : List UInt8}
    (hdata : data = file.slice o data.length) (hfits : o + data.length ≤ size) :
    HasRead file cc fileId size (s.stored o data) (o + data.length) := by
  have hlen := h.length
  constructor
  case cc_eq => exact h.cc_eq
  case fileId_eq => exact h.fileId_eq
  case buffSize => exact h.buffSize
  case length => exact (length_write (by omega)).trans hlen
  case le => exact hfits
  case offset => rfl
  case start => exact take_write_slice h.start (h.le.trans_eq hlen.symm) data hdata
  case room => exact h.room

theorem HasRead.chunk (hset : ReadSetting env cc size) (h : HasRead file cc fileId size s o)
    {data : List UInt8} (hfits : o + data.length ≤ size) :
    ndefFileChunkRead env s data =
      if o + data.length < s.ndef.nlen + ndefFileNlenSize then
        dataExchange env { s.stored o data with transactionType := .ndefRead }
          (readComm (o + data.length) (nextLe s.ndef.nlen s.ndef.cc (o + data.length)))
      else
        match ccFileContentSet s.ndef.cc ((s.stored o data).ndef.buff.take (o + data.length))
          s.ndef.fileId with
        | .error e => ⟨s.stored o data, [], some e⟩
        | .ok cc' => ⟨{ s.stored o data with ndef.cc := cc' },
            [.ndefRead s.ndef.fileId
              ((s.stored o data).ndef.buff.take (s.ndef.nlen + ndefFileNlenSize))], none⟩ := by
  have hlt := hset.size_lt
  have hmod : (o + data.length) % 2 ^ 16 = o + data.length := Nat.mod_eq_of_lt (by omega)
  have hroom : ¬ s.ndef.buffSize < o + data.length := by
    rw [h.buffSize]
    omega
  rw [ndefFileChunkRead, h.offset, if_neg hroom]
  simp only [hmod, hset.cb, if_true]
  rfl

def endOfChunks (file : TagFile) (cc : CcFile) (fileId size : Nat) : ReadEnd :=
  if size < file.nlen + ndefFileNlenSize then .failed .ENOMEM
  else if (ccFileContentGet cc fileId).isSome then
    .read (file.start (file.nlen + ndefFileNlenSize))
  else .failed .EACCES

/-- The reader has asked for what follows the first `o` bytes. -/
structure Fetching (env : Env) (file : TagFile) (cc : CcFile) (fileId size : Nat)
    (commands : List (List UInt8)) (out : Outcome) (o : Nat) : Prop where
  reader : HasRead file cc fileId size out.state o
  nlen : out.state.ndef.nlen = file.nlen
  type : out.state.transactionType = .ndefRead
  ge : 2 ≤ o
  lt : o < file.nlen + ndefFileNlenSize
  sent : out.sent = some (readComm o (nextLe file.nlen cc o)).bytes
  outputs : out.outputs = commands.map .transmit
  err : out.err = none

structure Ended (size fileId : Nat) (out : Outcome) (e : ReadEnd) : Prop where
  length : out.state.ndef.buff.length = size
  sent : out.sent = none
  err : out.err = match e with | .read _ => none | .failed err => some err
  outputs : out.outputs = match e with | .read data => [.ndefRead fileId data] | .failed _ => []

theorem HasRead.next (hset : ReadSetting env cc size) (h : HasRead file cc fileId size s o)
    (hnlen : s.ndef.nlen = file.nlen) (hn : 2 ≤ o + n) (hle : o + n ≤ file.nlen + ndefFileNlenSize) :
    Ended size fileId (ndefFileChunkRead env s (file.slice o n)) (endOfChunks file cc fileId size) ∨
      ∃ command, Fetching env file cc fileId size [command]
        (ndefFileChunkRead env s (file.slice o n)) (o + n) := by
  have hlen := file.length_slice o n
  unfold endOfChunks
  by_cases hfits : o + n ≤ size
  swap
  · rw [h.chunk_of_lt (by omega), if_pos (by omega)]
    exact .inl ⟨h.length, rfl, rfl, rfl⟩
  have hstored := h.stored (by rw [hlen]) (by omega : o + (file.slice o n).length ≤ size)
  rw [hlen] at hstored
  rw [h.chunk hset (by omega), hlen, hnlen, h.cc_eq, h.fileId_eq]
  by_cases hmore : o + n < file.nlen + ndefFileNlenSize
  · obtain ⟨hpos, hlt, hbound⟩ := nextLe_bounds hset hn hmore
    rw [if_pos hmore]
    obtain ⟨buff, hbuff, hexchange⟩ := dataExchange_readComm env (o + n)
      { s.stored o (file.slice o n) with transactionType := .ndefRead } hpos hlt hstored.room
    rw [hexchange, hset.transmit]
    exact .inr ⟨_, ⟨hstored.cc_eq, hstored.fileId_eq, hstored.buffSize, hstored.length, hstored.le,
      hstored.offset, hstored.start, hbuff ▸ hstored.room⟩, hnlen, rfl, hn, hmore, rfl, rfl, rfl⟩
  · have hall : o + n = file.nlen + ndefFileNlenSize := by omega
    rw [if_neg hmore, if_neg (by omega), ccFileContentSet, hall]
    rw [hall] at hstored
    left
    split_ifs with hfile
    · refine ⟨hstored.length, rfl, rfl, ?_⟩
      rw [hstored.start]
    · exact ⟨hstored.length, rfl, rfl, rfl⟩

end Chunks

section Run

variable {env : Env} {file : TagFile} {wish : Nat → Nat} {cc : CcFile} {fileId size : Nat}
  {e : ReadExchange} {n : Nat} {end_ : ReadEnd}

/-- The exchange ends after `n` answers, and so; the buffer keeps its size on the way. -/
structure EndsSo (env : Env) (file : TagFile) (wish : Nat → Nat) (fileId size : Nat)
    (commands : List (List UInt8)) (e : ReadExchange) (n : Nat) (end_ : ReadEnd) : Prop where
  pending : ∀ k < n, (e.run env file wish k).pending ≠ none
  ended : (e.run env file wish n).pending = none
  inside : ∀ k ≤ n, (e.run env file wish k).reader.ndef.buff.length = size
  reached : ∃ more, end_.Reached fileId (commands ++ more) (e.run env file wish n)

theorem EndsSo.cons {commands : List (List UInt8)} {command : List UInt8} (hpending : e.pending ≠ none)
    (hinside : e.reader.ndef.buff.length = size)
    (h : EndsSo env file wish fileId size (commands ++ [command]) (e.step env file wish) n end_) :
    EndsSo env file wish fileId size commands e (n + 1) end_ := by
  constructor
  case pending =>
    intro k hk
    cases k with
    | zero => exact hpending
    | succ k => exact h.pending k (by omega)
  case ended => exact h.ended
  case inside =>
    intro k hk
    cases k with
    | zero => exact hinside
    | succ k => exact h.inside k (by omega)
  case reached =>
    obtain ⟨more, hmore⟩ := h.reached
    refine ⟨command :: more, ?_⟩
    rw [List.append_assoc] at hmore
    exact hmore

theorem Ended.endsSo {out : Outcome} {commands : List (List UInt8)} (h : Ended size fileId out end_)
    (hpending : e.pending ≠ none) (hinside : e.reader.ndef.buff.length = size)
    (hlog : e.log = commands.map .transmit) (hstep : e.step env file wish = e.respond out) :
    EndsSo env file wish fileId size commands e 1 end_ := by
  have hone : e.run env file wish 1 = e.respond out := hstep
  constructor
  case pending =>
    intro k hk
    obtain rfl : k = 0 := by omega
    exact hpending
  case ended =>
    rw [hone]
    exact h.sent
  case inside =>
    intro k hk
    rcases Nat.le_one_iff_eq_zero_or_eq_one.mp hk with rfl | rfl
    · exact hinside
    · rw [hone]
      exact h.length
  case reached =>
    refine ⟨[], ?_⟩
    have herr := h.err
    have houtputs := h.outputs
    rw [hone, List.append_nil]
    cases end_ with
    | read data => exact ⟨herr, by rw [ReadExchange.respond, hlog, houtputs]⟩
    | failed err => exact ⟨herr, by rw [ReadExchange.respond, hlog, houtputs, List.append_nil]⟩

theorem step_readComm {off le : Nat} (hoff : off < 2 ^ 16) (hpos : 0 < le) (hlt : le < 256)
    (hpending : e.pending = some (readComm off le).bytes) :
    e.step env file wish = e.respond (onRapduSucces env e.reader
      (file.slice off (answerLength (wish e.answers) le))) := by
  unfold ReadExchange.step
  rw [hpending, Option.bind_some, decodeRead_bytes hoff hpos hlt]
  dsimp only
  rw [onDataReceived_answer]

theorem Fetching.endsSo {commands commands' : List (List UInt8)} {out : Outcome} {o : Nat}
    (hset : ReadSetting env cc size) (h : Fetching env file cc fileId size commands' out o)
    (hreader : e.reader = out.state) (hpending : e.pending = out.sent)
    (hlog : e.log = commands.map .transmit) :
    ∃ n, EndsSo env file wish fileId size commands e n (endOfChunks file cc fileId size) := by
  induction hm : file.nlen + ndefFileNlenSize - o using Nat.strong_induction_on
    generalizing e commands commands' out o with
  | _ m ih =>
    have hge := h.ge
    have hlt := h.lt
    have hsize := hset.size_lt
    have hle := h.reader.le
    obtain ⟨hpos, hshort, hbound⟩ := nextLe_bounds hset hge hlt
    have hinside : e.reader.ndef.buff.length = size := hreader ▸ h.reader.length
    have hsome : e.pending ≠ none := by
      rw [hpending, h.sent]
      exact Option.some_ne_none _
    -- The answer has at least one byte and at most what is left.
    have hanswer : 0 < answerLength (wish e.answers) (nextLe file.nlen cc o) :=
      answerLength_pos hpos
    have hanswerLe := answerLength_le (wish e.answers) (nextLe file.nlen cc o)
    have hstep : e.step env file wish = e.respond (onRapduSucces env e.reader
        (file.slice o (answerLength (wish e.answers) (nextLe file.nlen cc o)))) :=
      step_readComm (by omega) hpos hshort (hpending.trans h.sent)
    have hchunk : onRapduSucces env e.reader = ndefFileChunkRead env out.state := by
      funext data
      rw [hreader]
      simp only [onRapduSucces, h.type]
    rw [hchunk] at hstep
    rcases h.reader.next hset h.nlen (n := answerLength (wish e.answers) (nextLe file.nlen cc o))
      (by omega) (by omega) with hended | ⟨command, hnext⟩
    · exact ⟨1, hended.endsSo hsome hinside hlog hstep⟩
    · have hrest : ∃ n, EndsSo env file wish fileId size (commands ++ [command])
          (e.step env file wish) n (endOfChunks file cc fileId size) := by
        apply ih _ _ hnext _ _ _ rfl
        · omega
        · rw [hstep]
          rfl
        · rw [hstep]
          rfl
        · rw [hstep, ReadExchange.respond, hlog, hnext.outputs, List.map_append]
      obtain ⟨n, hn⟩ := hrest
      exact ⟨n + 1, hn.cons hsome hinside⟩

def HlProcedure.startRead (s : HlProcedure) (cc : CcFile) (buff : Memory) (size : Nat) :
    HlProcedure :=
  { s with fileOffset := 0
           ndef := { s.ndef with buff, buffSize := size, cc }
           transactionType := .ndefNlenRead }

theorem ndefRead_start (hset : ReadSetting env cc size) (s : HlProcedure) {buff : Memory}
    (hbuff : buff.length = size) (hpos : size ≠ 0) (hroom : 5 ≤ s.apduBuff.length) :
    ∃ t : HlProcedure, HasRead file cc s.ndef.fileId size t 0 ∧ t.transactionType = .ndefNlenRead ∧
      ndefRead env s cc buff size =
        ⟨t, [.transmit (readComm 0 ndefFileNlenSize).bytes], none⟩ := by
  obtain ⟨apduBuff, hapdu, hexchange⟩ := dataExchange_readComm env 0 (s.startRead cc buff size)
    (by decide : 0 < ndefFileNlenSize) (by decide) hroom
  have hread : HasRead file cc s.ndef.fileId size
      { s.startRead cc buff size with apduBuff := apduBuff } 0 :=
    ⟨rfl, rfl, rfl, hbuff, Nat.zero_le _, rfl, rfl, hroom.trans_eq hapdu.symm⟩
  have hstart : ndefRead env s cc buff size =
      dataExchange env (s.startRead cc buff size) (readComm 0 ndefFileNlenSize) := if_neg hpos
  rw [hstart, hexchange, hset.transmit]
  exact ⟨_, hread, rfl, rfl⟩

theorem first_answer {t : HlProcedure} (htype : t.transactionType = .ndefNlenRead)
    (file : TagFile) {first : Nat} (hpos : 0 < first) (hle : first ≤ ndefFileNlenSize) :
    onRapduSucces env t (file.slice 0 first) =
      if first < ndefFileNlenSize then ⟨t, [], some .EINVAL⟩
      else ndefFileChunkRead env { t with ndef.nlen := file.nlen } (file.slice 0 2) := by
  have hlen := file.length_slice 0 first
  unfold ndefFileNlenSize at hle ⊢
  simp only [onRapduSucces, htype, onNdefNlenRead, hlen, ndefFileNlenSize]
  split_ifs with hne hlt
  · rfl
  · omega
  · omega
  · obtain rfl : first = 2 := by omega
    rfl

theorem HasRead.endsSo (hset : ReadSetting env cc size) (h : HasRead file cc fileId size e.reader 0)
    (htype : e.reader.transactionType = .ndefNlenRead)
    (hpending : e.pending = some (readComm 0 ndefFileNlenSize).bytes)
    (hlog : e.log = [(readComm 0 ndefFileNlenSize).bytes].map .transmit) :
    ∃ n, EndsSo env file wish fileId size [(readComm 0 ndefFileNlenSize).bytes] e n
      (if answerLength (wish e.answers) ndefFileNlenSize < ndefFileNlenSize then .failed .EINVAL
      else endOfChunks file cc fileId size) := by
  have hsome := Option.ne_none_iff_exists'.mpr ⟨_, hpending⟩
  have hanswer : 0 < answerLength (wish e.answers) ndefFileNlenSize := answerLength_pos (by decide)
  have hanswerLe := answerLength_le (wish e.answers) ndefFileNlenSize
  have hstep : e.step env file wish = e.respond (onRapduSucces env e.reader
      (file.slice 0 (answerLength (wish e.answers) ndefFileNlenSize))) :=
    step_readComm (by decide) (by decide) (by decide) hpending
  rw [first_answer htype file hanswer hanswerLe] at hstep
  by_cases hfirst : answerLength (wish e.answers) ndefFileNlenSize < ndefFileNlenSize
  · rw [if_pos hfirst] at hstep ⊢
    have hended : Ended size fileId ⟨e.reader, [], some .EINVAL⟩ (.failed .EINVAL) :=
      ⟨h.length, rfl, rfl, rfl⟩
    exact ⟨1, hended.endsSo hsome h.length hlog hstep⟩
  · rw [if_neg hfirst] at hstep ⊢
    have hnlen : HasRead file cc fileId size { e.reader with ndef.nlen := file.nlen } 0 :=
      ⟨h.cc_eq, h.fileId_eq, h.buffSize, h.length, h.le, h.offset, h.start, h.room⟩
    rcases hnlen.next (n := 2) hset rfl (by omega) (by unfold ndefFileNlenSize; omega) with
      hended | ⟨command, hnext⟩
    · exact ⟨1, hended.endsSo hsome h.length hlog hstep⟩
    · have hrest : ∃ n, EndsSo env file wish fileId size
          ([(readComm 0 ndefFileNlenSize).bytes] ++ [command]) (e.step env file wish) n
          (endOfChunks file cc fileId size) := by
        apply hnext.endsSo hset
        · rw [hstep]
          rfl
        · rw [hstep]
          rfl
        · rw [hstep, ReadExchange.respond, hlog, hnext.outputs, List.map_append]
      obtain ⟨n, hn⟩ := hrest
      exact ⟨n + 1, hn.cons hsome h.length⟩

end Run

/-- A read into a buffer of any size, against a tag that answers every command with at least one of the
bytes that it asks for, ends: with NLEN and the message if they fit and the capability container lists the
file, and with an error otherwise. Nothing is written outside the buffer. -/
theorem ndefRead_endsSo {env : Env} (htransmit : ∀ apdu, env.isodepTransmit apdu = none)
    (hcb : env.cb.ndefRead = true) (s : HlProcedure) (hroom : 5 ≤ s.apduBuff.length) (cc : CcFile)
    (hrapdu : 1 ≤ cc.maxRapduSize) (buff : Memory) (hlt : buff.length < 2 ^ 16) (file : TagFile)
    (wish : Nat → Nat) :
    if buff.length = 0 then (ndefRead env s cc buff buff.length).err = some .EINVAL
    else ∃ n, EndsSo env file wish s.ndef.fileId buff.length [(readComm 0 ndefFileNlenSize).bytes]
      (.start (ndefRead env s cc buff buff.length)) n
      (if answerLength (wish 0) ndefFileNlenSize < ndefFileNlenSize then .failed .EINVAL
      else endOfChunks file cc s.ndef.fileId buff.length) := by
  have hset : ReadSetting env cc buff.length := ⟨htransmit, hcb, hrapdu, hlt⟩
  by_cases hempty : buff.length = 0
  · rw [if_pos hempty, ndefRead, if_pos hempty]
  · rw [if_neg hempty]
    obtain ⟨t, hread, htype, hstart⟩ := ndefRead_start hset s rfl hempty hroom
    rw [hstart]
    exact HasRead.endsSo hset hread htype rfl rfl

private def readEnv : Env := ⟨fun _ => none, fun cc _ _ => .ok cc, ⟨true, true, true, true⟩⟩

private def readCc : CcFile := ⟨[⟨0xE104, 1024, none⟩], 2, 255⟩

/-- A reader of the file `fileId` with a buffer of `room` bytes for commands. -/
private def readerOf (fileId room : Nat) : HlProcedure :=
  ⟨⟨readCc, 0, []⟩, ⟨readCc, [], 0, 0, fileId⟩, .select, .ndefFileSelect, 0, List.replicate room 0⟩

private def threeByteFile : TagFile := fun i => [0x00, 0x03, 0xD0, 0x00, 0x00].getD i 0

theorem threeByteFile_endsSo : ∃ n, EndsSo readEnv threeByteFile (fun _ => 2) 0xE104 8
    [(readComm 0 2).bytes]
    (.start (ndefRead readEnv (readerOf 0xE104 5) readCc (List.replicate 8 0) 8)) n
    (.read [0x00, 0x03, 0xD0, 0x00, 0x00]) := by
  have htransmit (apdu : List UInt8) : readEnv.isodepTransmit apdu = none := rfl
  have h := ndefRead_endsSo htransmit rfl (readerOf 0xE104 5) (by decide) readCc (by decide)
    (List.replicate 8 0) (by decide) threeByteFile (fun _ => 2)
  have hread : endOfChunks threeByteFile readCc 0xE104 8 =
      .read [0x00, 0x03, 0xD0, 0x00, 0x00] := by
    decide
  have hsize : (List.replicate 8 (0 : UInt8)).length = 8 := List.length_replicate
  have hid : (readerOf 0xE104 5).ndef.fileId = 0xE104 := rfl
  rw [hsize, if_neg (by decide), if_neg (by decide), hid, hread] at h
  exact h

/-- A message that fits is not read when the tag's first answer has one byte, when the capability
container does not list the file, or when a command does not fit; a buffer of no size is refused. -/
theorem threeByteFile_failures :
    ((ReadExchange.start (ndefRead readEnv (readerOf 0xE104 5) readCc (List.replicate 8 0) 8)).run
      readEnv threeByteFile (fun _ => 1) 1).err = some .EINVAL ∧
    ((ReadExchange.start (ndefRead readEnv (readerOf 0xE105 5) readCc (List.replicate 8 0) 8)).run
      readEnv threeByteFile (fun _ => 2) 3).err = some .EACCES ∧
    (ndefRead readEnv (readerOf 0xE104 4) readCc (List.replicate 8 0) 8).err = some .ENOMEM ∧
    (ndefRead readEnv (readerOf 0xE104 5) readCc [] 0).err = some .EINVAL := by
  decide

end SdkNrf.Type4Tag
