import SdkNrf.Type4Tag.Apdu

/-!
# What a command looks like in bytes

The encoder gives Lc and Le a short and a long form each.
-/

namespace SdkNrf.Type4Tag

def ApduData.payload (data : ApduData) : List UInt8 := (data.buff.getD []).take data.len

/-- A descriptor with values of its types and a buffer that is as long as it says. -/
structure ApduComm.Typed (cmd : ApduComm) : Prop where
  parameter_lt : cmd.parameter < 2 ^ 16
  len_lt : cmd.data.len < 2 ^ 16
  respLen_lt : cmd.respLen < 2 ^ 16
  readable : ∀ buff, cmd.data.buff = some buff → cmd.data.len ≤ buff.length

/-- `buff` is there if and only if there is data. -/
def ApduData.Matching (data : ApduData) : Prop := data.buff.isSome ↔ 0 < data.len

structure SameRequest (x y : ApduComm) : Prop where
  classByte : x.classByte = y.classByte
  instruction : x.instruction = y.instruction
  parameter : x.parameter = y.parameter
  len : x.data.len = y.data.len
  payload : x.data.payload = y.data.payload
  respLen : x.respLen = y.respLen

/-- `x` has no data and a long Le that starts with a 1, and `y` has one byte of data, the low byte of
this Le, and no Le. -/
structure TakenForData (x y : ApduComm) : Prop where
  classByte : x.classByte = y.classByte
  instruction : x.instruction = y.instruction
  parameter : x.parameter = y.parameter
  empty : x.data.len = 0
  long : 256 < x.respLen
  short : x.respLen < 512
  absent : y.respLen = 0
  payload : y.data.payload = [UInt8.ofNat x.respLen]

def respLenOf : List UInt8 → Nat
  | [] => 0
  | [b] => if b = 0 then leLongFormatThr else b.toNat
  | b1 :: b0 :: _ => be16Value b1 b0

theorem respLenOf_respLenBytes {respLen : Nat} (h : respLen < 2 ^ 16) :
    respLenOf (respLenBytes respLen) = respLen := by
  unfold respLenBytes
  split_ifs with habsent hlong hthr
  · exact habsent.symm
  · exact be16Value_be16 h
  · exact hthr.symm
  · have hlow : (UInt8.ofNat respLen).toNat = respLen := by
      unfold leLongFormatThr at hlong hthr
      rw [UInt8.toNat_ofNat']
      omega
    have hne : UInt8.ofNat respLen ≠ 0 := by
      intro hzero
      rw [hzero] at hlow
      exact habsent hlow.symm
    simp only [respLenOf, if_neg hne, hlow]

theorem respLenBytes_inj {v w : Nat} (hv : v < 2 ^ 16) (hw : w < 2 ^ 16)
    (h : respLenBytes v = respLenBytes w) : v = w := by
  rw [← respLenOf_respLenBytes hv, h, respLenOf_respLenBytes hw]

theorem be16_inj {v w : Nat} (hv : v < 2 ^ 16) (hw : w < 2 ^ 16) (h : be16 v = be16 w) : v = w := by
  simp only [be16, List.cons.injEq, and_true] at h
  rw [← be16Value_be16 hv, ← be16Value_be16 hw, h.1, h.2]

theorem length_respLenBytes (respLen : Nat) :
    (respLenBytes respLen).length =
      if respLen = 0 then 0 else if leLongFormatThr < respLen then 2 else 1 := by
  unfold respLenBytes
  split_ifs <;> rfl

section Data

variable {data : ApduData}

theorem payload_of_none (h : data.buff = none) : data.payload = [] := by
  rw [ApduData.payload, h, Option.getD_none, List.take_nil]

theorem bytes_of_none (h : data.buff = none) : data.bytes = [] := by
  rw [ApduData.bytes, h]

def lcBytes (len : Nat) : List UInt8 :=
  if lcLongFormatThr < len then 0 :: be16 len else [UInt8.ofNat len]

theorem bytes_of_some {buff : Memory} (h : data.buff = some buff) :
    data.bytes = lcBytes data.len ++ data.payload := by
  simp [ApduData.bytes, ApduData.payload, lcBytes, h]

theorem length_payload {buff : Memory} (h : data.buff = some buff) (hle : data.len ≤ buff.length) :
    data.payload.length = data.len := by
  rw [ApduData.payload, h, Option.getD_some, List.length_take_of_le hle]

theorem length_lcBytes (len : Nat) :
    (lcBytes len).length = if lcLongFormatThr < len then 3 else 1 := by
  unfold lcBytes
  split_ifs <;> rfl

end Data

def lcOf : List UInt8 → Nat
  | b :: rest =>
    if b = 0 then be16Value (rest.getD 0 0) (rest.getD 1 0) else b.toNat
  | [] => 0

theorem lcOf_lcBytes {len : Nat} (hpos : 0 < len) (hlt : len < 2 ^ 16) (rest : List UInt8) :
    lcOf (lcBytes len ++ rest) = len := by
  unfold lcBytes
  split_ifs with hlong
  · exact be16Value_be16 hlt
  · have hlow : (UInt8.ofNat len).toNat = len := by
      unfold lcLongFormatThr at hlong
      rw [UInt8.toNat_ofNat']
      omega
    have hne : UInt8.ofNat len ≠ 0 := by
      intro hzero
      rw [hzero] at hlow
      exact absurd hlow hpos.ne
    simp only [List.singleton_append, lcOf, if_neg hne, hlow]

theorem lcBytes_append_inj {m n : Nat} {d e s t : List UInt8} (hm : 0 < m) (hmlt : m < 2 ^ 16)
    (hn : 0 < n) (hnlt : n < 2 ^ 16) (hd : d.length = m) (he : e.length = n)
    (h : lcBytes m ++ (d ++ s) = lcBytes n ++ (e ++ t)) : m = n ∧ d = e ∧ s = t := by
  have hlen : m = n := by
    rw [← lcOf_lcBytes hm hmlt (d ++ s), h, lcOf_lcBytes hn hnlt]
  subst hlen
  have hrest := List.append_cancel_left h
  exact ⟨rfl, List.append_inj hrest (hd.trans he.symm)⟩

theorem respLenBytes_eq_lcBytes {v w n : Nat} {d : List UInt8} (hv : v < 2 ^ 16)
    (hw : w < 2 ^ 16) (hn : 0 < n) (hd : d.length = n)
    (h : respLenBytes v = lcBytes n ++ (d ++ respLenBytes w)) :
    256 < v ∧ v < 512 ∧ w = 0 ∧ d = [UInt8.ofNat v] := by
  have hlen := congrArg List.length h
  rw [List.length_append, List.length_append, length_respLenBytes, length_respLenBytes,
    length_lcBytes, hd] at hlen
  have hlong : leLongFormatThr < v := by
    by_contra hshort
    split_ifs at hlen <;> omega
  have hone : n = 1 ∧ w = 0 := by
    unfold lcLongFormatThr at hlen
    split_ifs at hlen <;> omega
  obtain ⟨rfl, rfl⟩ := hone
  have hbytes : be16 v = 1 :: d := by
    have hshort : ¬ lcLongFormatThr < 1 := by decide
    rw [respLenBytes, if_neg (Nat.ne_of_gt (Nat.zero_lt_of_lt hlong)), if_pos hlong] at h
    simpa [lcBytes, hshort, respLenBytes] using h
  simp only [be16, List.cons.injEq] at hbytes
  have hhigh := congrArg UInt8.toNat hbytes.1
  rw [UInt8.toNat_ofNat'] at hhigh
  unfold leLongFormatThr at hlong
  refine ⟨hlong, ?_, rfl, hbytes.2.symm⟩
  simp at hhigh
  omega

section Commands

variable {x y : ApduComm}

theorem ApduData.Matching.cases (h : x.data.Matching) (ht : x.Typed) :
    (x.data.len = 0 ∧ x.data.payload = [] ∧ x.data.bytes = []) ∨
      (0 < x.data.len ∧ x.data.payload.length = x.data.len ∧
        x.data.bytes = lcBytes x.data.len ++ x.data.payload) := by
  cases hbuff : x.data.buff with
  | none =>
    have hzero : ¬ 0 < x.data.len := by
      intro hpos
      have hsome := h.mpr hpos
      rw [hbuff] at hsome
      cases hsome
    exact .inl ⟨by omega, payload_of_none hbuff, bytes_of_none hbuff⟩
  | some buff =>
    have hpos : 0 < x.data.len := h.mp (by rw [hbuff]; rfl)
    exact .inr ⟨hpos, length_payload hbuff (ht.readable buff hbuff), bytes_of_some hbuff⟩

theorem header_of_bytes_eq (hx : x.Typed) (hy : y.Typed) (h : x.bytes = y.bytes) :
    x.classByte = y.classByte ∧ x.instruction = y.instruction ∧ x.parameter = y.parameter ∧
      x.data.bytes ++ respLenBytes x.respLen = y.data.bytes ++ respLenBytes y.respLen := by
  simp only [ApduComm.bytes, List.append_assoc, List.cons_append, List.nil_append,
    List.cons.injEq] at h
  obtain ⟨hclass, hins, hrest⟩ := h
  obtain ⟨hparameter, htail⟩ := List.append_inj hrest rfl
  refine ⟨hclass, ?_, be16_inj hx.parameter_lt hy.parameter_lt hparameter, htail⟩
  revert hins
  cases x.instruction <;> cases y.instruction <;> decide

theorem TakenForData.not_sameRequest (h : TakenForData x y) : ¬ SameRequest x y := by
  intro hsame
  have hlong := h.long
  have hresp := hsame.respLen
  rw [h.absent] at hresp
  omega

theorem SameRequest.symm (h : SameRequest x y) : SameRequest y x :=
  ⟨h.classByte.symm, h.instruction.symm, h.parameter.symm, h.len.symm, h.payload.symm,
    h.respLen.symm⟩

theorem TakenForData.bytes_eq (h : TakenForData x y) (hx : x.Typed) (hy : y.Typed)
    (hxm : x.data.Matching) (hym : y.data.Matching) : x.bytes = y.bytes := by
  have hlong := h.long
  have hshort := h.short
  have hxdata : x.data.bytes = [] := by
    rcases hxm.cases hx with ⟨-, -, hbytes⟩ | ⟨hpos, -, -⟩
    · exact hbytes
    · exact absurd h.empty hpos.ne'
  have hydata : y.data.bytes = [1, UInt8.ofNat x.respLen] := by
    rcases hym.cases hy with ⟨-, hpayload, -⟩ | ⟨-, hlen, hbytes⟩
    · rw [h.payload] at hpayload
      cases hpayload
    · rw [h.payload, List.length_singleton] at hlen
      rw [hbytes, h.payload, ← hlen]
      rfl
  have hhigh : UInt8.ofNat (x.respLen / 2 ^ 8) = 1 := by
    apply UInt8.toNat.inj
    rw [UInt8.toNat_ofNat']
    simp
    omega
  have hxle : respLenBytes x.respLen = [1, UInt8.ofNat x.respLen] := by
    rw [respLenBytes, if_neg (by omega), if_pos (by exact hlong), be16, hhigh]
  rw [ApduComm.bytes, ApduComm.bytes, h.classByte, h.instruction, h.parameter, h.absent, hxdata,
    hydata, hxle]
  rfl

theorem sameRequest_or_takenForData (hx : x.Typed) (hy : y.Typed) (hxm : x.data.Matching)
    (hym : y.data.Matching) (h : x.bytes = y.bytes) :
    SameRequest x y ∨ TakenForData x y ∨ TakenForData y x := by
  obtain ⟨hclass, hins, hparameter, htail⟩ := header_of_bytes_eq hx hy h
  rcases hxm.cases hx with ⟨hxlen, hxpay, hxbytes⟩ | ⟨hxpos, hxlen, hxbytes⟩ <;>
    rcases hym.cases hy with ⟨hylen, hypay, hybytes⟩ | ⟨hypos, hylen, hybytes⟩ <;>
      rw [hxbytes, hybytes] at htail
  · have hresp := respLenBytes_inj hx.respLen_lt hy.respLen_lt htail
    exact .inl ⟨hclass, hins, hparameter, hxlen.trans hylen.symm, hxpay.trans hypay.symm, hresp⟩
  · rw [List.nil_append, List.append_assoc] at htail
    obtain ⟨hlong, hshort, habsent, hpayload⟩ :=
      respLenBytes_eq_lcBytes hx.respLen_lt hy.respLen_lt hypos hylen htail
    exact .inr (.inl ⟨hclass, hins, hparameter, hxlen, hlong, hshort, habsent, hpayload⟩)
  · rw [List.nil_append, List.append_assoc] at htail
    obtain ⟨hlong, hshort, habsent, hpayload⟩ :=
      respLenBytes_eq_lcBytes hy.respLen_lt hx.respLen_lt hxpos hxlen htail.symm
    exact .inr (.inr ⟨hclass.symm, hins.symm, hparameter.symm, hylen, hlong, hshort, habsent,
      hpayload⟩)
  · rw [List.append_assoc, List.append_assoc] at htail
    obtain ⟨hlen, hpayload, hle⟩ := lcBytes_append_inj hxpos hx.len_lt hypos hy.len_lt
      hxlen hylen htail
    have hresp := respLenBytes_inj hx.respLen_lt hy.respLen_lt hle
    exact .inl ⟨hclass, hins, hparameter, hlen, hpayload, hresp⟩

theorem take_of_encode {raw out : Memory} {len reported : Nat}
    (h : apduCommEncode x raw len = .ok (out, reported)) : out.take x.bytes.length = x.bytes := by
  unfold apduCommEncode at h
  split_ifs at h
  obtain ⟨rfl, -⟩ : raw.write 0 x.bytes = out ∧ apduCommSizeCalc x = reported := by
    simpa using h
  rw [Memory.write, List.take_zero, List.nil_append, List.take_left]

end Commands

/-- Two commands that the encoder takes are told apart by the bytes that it writes for them, except
where a long Le without data reads as a byte of data. -/
theorem written_unambiguous_iff {x y : ApduComm} (hx : x.Typed) (hy : y.Typed)
    (hxm : x.data.Matching) (hym : y.data.Matching) {rawX rawY outX outY : Memory}
    {lenX lenY reportedX reportedY : Nat}
    (hencodeX : apduCommEncode x rawX lenX = .ok (outX, reportedX))
    (hencodeY : apduCommEncode y rawY lenY = .ok (outY, reportedY)) :
    (outX.take x.bytes.length = outY.take y.bytes.length → SameRequest x y) ↔
      ¬ (TakenForData x y ∨ TakenForData y x) := by
  rw [take_of_encode hencodeX, take_of_encode hencodeY]
  constructor
  · rintro h (htaken | htaken)
    · exact htaken.not_sameRequest (h (htaken.bytes_eq hx hy hxm hym))
    · exact htaken.not_sameRequest (h (htaken.bytes_eq hy hx hym hxm).symm).symm
  · intro h hbytes
    exact (sameRequest_or_takenForData hx hy hxm hym hbytes).resolve_right h

/-- A SELECT by name that expects `respLen` bytes. -/
private def selectAny (respLen : Nat) : ApduComm := ⟨0, .select, 0x0400, ⟨0, none⟩, respLen⟩

private theorem selectAny_typed {respLen : Nat} (h : respLen < 2 ^ 16) : (selectAny respLen).Typed :=
  ⟨(by decide : 0x0400 < 2 ^ 16), Nat.two_pow_pos 16, h, fun _ hbuff => nomatch hbuff⟩

private theorem selectAny_matching (respLen : Nat) : (selectAny respLen).data.Matching :=
  ⟨fun h => absurd h Bool.false_ne_true, fun h => absurd h (Nat.lt_irrefl 0)⟩

/-- A SELECT by name with the name `[1]`. -/
private def selectOne : ApduComm := ⟨0, .select, 0x0400, .of [1], 0⟩

/-- A long Le that starts with a 1, and a name with a short Le behind it. -/
theorem respLen_told_apart :
    ¬ SameRequest (selectAny 257) { selectOne with respLen := 256 } ∧
      ([0x00, 0xA4, 0x04, 0x00, 0x01, 0x01, 0x00] : Memory).take (selectAny 257).bytes.length ≠
        ([0x00, 0xA4, 0x04, 0x00, 0x01, 0x01, 0x00] : Memory).take
          { selectOne with respLen := 256 }.bytes.length := by
  have hencode : apduCommEncode (selectAny 257) (List.replicate 7 0) 7 =
      .ok ([0x00, 0xA4, 0x04, 0x00, 0x01, 0x01, 0x00], 6) := by decide
  have hencode' : apduCommEncode { selectOne with respLen := 256 } (List.replicate 7 0) 7 =
      .ok ([0x00, 0xA4, 0x04, 0x00, 0x01, 0x01, 0x00], 7) := by decide
  have hother : ¬ SameRequest (selectAny 257) { selectOne with respLen := 256 } :=
    fun h => absurd h.respLen (by decide)
  refine ⟨hother, mt ((written_unambiguous_iff (selectAny_typed (by decide))
    ⟨by decide, by decide, by decide, ?_⟩ (selectAny_matching 257)
    (by unfold ApduData.Matching; decide) hencode hencode').mpr ?_) hother⟩
  · rintro buff hbuff
    cases hbuff
    exact Nat.le_refl 1
  · rintro (htaken | htaken)
    · exact absurd htaken.absent (by decide)
    · exact absurd htaken.empty (by decide)

/-- An Le of 257 bytes reads as the data `[1]`. -/
theorem longLe_read_as_data :
    apduCommEncode (selectAny 257) (List.replicate 6 0) 6 =
        .ok ([0x00, 0xA4, 0x04, 0x00, 0x01, 0x01], 6) ∧
      apduCommEncode selectOne (List.replicate 6 0) 6 =
        .ok ([0x00, 0xA4, 0x04, 0x00, 0x01, 0x01], 6) ∧
      (selectAny 257).bytes.length = 6 ∧ selectOne.bytes.length = 6 ∧
      (selectAny 257).Typed ∧ selectOne.Typed ∧ (selectAny 257).data.Matching ∧
      selectOne.data.Matching ∧ ¬ SameRequest (selectAny 257) selectOne := by
  refine ⟨by decide, by decide, by decide, by decide,
    selectAny_typed (by decide), ⟨by decide, by decide, by decide, ?_⟩, selectAny_matching 257,
    by unfold ApduData.Matching; decide, fun h => absurd h.respLen (by decide)⟩
  rintro buff hbuff
  cases hbuff
  exact Nat.le_refl 1

def neededSize (cmd : ApduComm) : Nat :=
  4 + (if cmd.data.buff.isSome then (if lcLongFormatThr < cmd.data.len then 3 else 1) else 0) +
    cmd.data.len +
    (if cmd.respLen = 0 then 0 else if leLongFormatThr < cmd.respLen then 2 else 1)

/-- A command that is taken is written inside the capacity, and its size is reported. -/
def ReportsSize (cmd : ApduComm) (raw : Memory) (len : Nat) : Prop :=
  ∀ out reported, apduCommEncode cmd raw len = .ok (out, reported) →
    cmd.bytes.length ≤ len ∧ reported = cmd.bytes.length

section Size

variable {cmd : ApduComm}

theorem length_bytes_of_some (h : cmd.Typed) {buff : Memory} (hbuff : cmd.data.buff = some buff) :
    cmd.bytes.length = neededSize cmd := by
  have hpayload := length_payload hbuff (h.readable buff hbuff)
  simp only [ApduComm.bytes, bytes_of_some hbuff, neededSize, hbuff, be16, List.length_append,
    List.length_cons, List.length_nil, length_lcBytes, length_respLenBytes, hpayload,
    Option.isSome_some, if_true]
  omega

theorem length_bytes_of_none (hbuff : cmd.data.buff = none) :
    cmd.bytes.length + cmd.data.len = neededSize cmd := by
  simp only [ApduComm.bytes, bytes_of_none hbuff, neededSize, hbuff, be16, List.length_append,
    List.length_cons, List.length_nil, length_respLenBytes, Option.isSome_none,
    Bool.false_eq_true, if_false]
  omega

theorem apduCommSizeCalc_eq (cmd : ApduComm) : apduCommSizeCalc cmd = neededSize cmd % 2 ^ 16 := rfl

theorem apduCommEncode_eq_ok_iff {raw out : Memory} {len reported : Nat} :
    apduCommEncode cmd raw len = .ok (out, reported) ↔
      ¬ (cmd.data.buff.isSome ∧ cmd.data.len = 0) ∧ neededSize cmd % 2 ^ 16 ≤ len ∧
        raw.write 0 cmd.bytes = out ∧ neededSize cmd % 2 ^ 16 = reported := by
  unfold apduCommEncode
  rw [apduCommSizeCalc_eq]
  split_ifs with hempty hshort
  · exact iff_of_false (by simp) (fun h => h.1 hempty)
  · exact iff_of_false (by simp) (fun h => by omega)
  · simp only [Except.ok.injEq, Prod.mk.injEq]
    exact ⟨fun h => ⟨hempty, by omega, h⟩, fun h => h.2.2⟩

end Size

/-- The encoder reports what it writes exactly for the commands that it refuses and for those whose
fields take less than `2 ^ 16` bytes, all of which are written. -/
theorem reportsSize_iff {cmd : ApduComm} (h : cmd.Typed) (raw : Memory) (len : Nat) :
    ReportsSize cmd raw len ↔
      (cmd.data.buff.isSome ∧ cmd.data.len = 0) ∨ len < neededSize cmd % 2 ^ 16 ∨
        neededSize cmd < 2 ^ 16 ∧ (cmd.data.buff = none → cmd.data.len = 0) := by
  have hlen := h.len_lt
  have htaken : ReportsSize cmd raw len ↔
      ¬ (cmd.data.buff.isSome ∧ cmd.data.len = 0) → neededSize cmd % 2 ^ 16 ≤ len →
        cmd.bytes.length ≤ len ∧ neededSize cmd % 2 ^ 16 = cmd.bytes.length := by
    constructor
    · intro hreports hdata hfits
      exact hreports _ _ (apduCommEncode_eq_ok_iff.mpr ⟨hdata, hfits, rfl, rfl⟩)
    · intro hreports out reported hencode
      obtain ⟨hdata, hfits, -, rfl⟩ := apduCommEncode_eq_ok_iff.mp hencode
      exact hreports hdata hfits
  rw [htaken]
  cases hbuff : cmd.data.buff with
  | none =>
    have hsize := length_bytes_of_none hbuff
    have hle : cmd.bytes.length ≤ 6 := by
      simp only [ApduComm.bytes, bytes_of_none hbuff, be16, List.length_append, List.length_cons,
        List.length_nil, length_respLenBytes]
      split_ifs <;> omega
    simp only [Option.isSome_none, Bool.false_eq_true, false_and, not_false_eq_true, forall_const,
      false_or]
    omega
  | some buff =>
    have hsize := length_bytes_of_some h hbuff
    simp only [Option.isSome_some, true_and, reduceCtorEq, false_implies, and_true]
    omega

private def fullUpdate : ApduComm := ⟨0, .update, 0, ⟨65535, some (List.replicate 65535 0)⟩, 0⟩

private theorem fullUpdate_typed : fullUpdate.Typed := by
  refine ⟨by decide, by decide, by decide, ?_⟩
  rintro buff hbuff
  cases hbuff
  exact Nat.le_of_eq List.length_replicate.symm

theorem selectAny_reportsSize : ReportsSize (selectAny 257) (List.replicate 6 0) 6 :=
  (reportsSize_iff (selectAny_typed (by decide)) _ _).mpr (.inr (.inr (by decide)))

/-- A command with 65535 bytes of data is written to a buffer of eight bytes. -/
theorem fullUpdate_overruns : fullUpdate.Typed ∧
    apduCommEncode fullUpdate (List.replicate 8 0) 8 =
      .ok (Memory.write (List.replicate 8 0) 0 fullUpdate.bytes, 6) ∧
    fullUpdate.bytes.length = 65542 ∧ ¬ ReportsSize fullUpdate (List.replicate 8 0) 8 := by
  have hsize : neededSize fullUpdate = 65542 := rfl
  have hlen : fullUpdate.bytes.length = 65542 := by
    rw [length_bytes_of_some fullUpdate_typed rfl, hsize]
  have hencode : apduCommEncode fullUpdate (List.replicate 8 0) 8 =
      .ok (Memory.write (List.replicate 8 0) 0 fullUpdate.bytes, 6) := by
    rw [apduCommEncode_eq_ok_iff, hsize]
    exact ⟨fun h => absurd h.2 (by decide), by decide, rfl, rfl⟩
  refine ⟨fullUpdate_typed, hencode, hlen, fun hreports => ?_⟩
  have hfits := (hreports _ _ hencode).1
  omega

end SdkNrf.Type4Tag
