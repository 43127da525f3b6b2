import SdkNrf.Framework.Arena
import SdkNrf.Framework.ExceptRun
import SdkNrf.Ndef.Handover

/-!
# Parsing Connection Handover records

The parsers of `subsys/nfc/ndef/ch_rec_parser.c` for the Handover Carrier, Alternative Carrier and Collision
Resolution records, and when they read back what `ch.c` has encoded.
-/

namespace SdkNrf.Ndef

/-- What the compiler and the platform fix: the sizes of the structures, the width of an enumeration
and the width of the size that `struct net_buf_simple` keeps. -/
structure Abi where
  hcRecSize : Nat
  acRecSize : Nat
  acRecRefSize : Nat
  enumBits : Nat
  netBufBits : Nat

/-- Why a parser stops: with an error code, or because it stores through `NULL`. -/
inductive ParseStop
  | EINVAL
  | ENOMEM
  | ENOTSUP
  | nullStore
  deriving DecidableEq, Repr

/-- `struct nfc_ndef_bin_payload_desc`, with the address of the payload. -/
structure BinPayload where
  address : Nat
  bytes : List UInt8

/-- `struct nfc_ndef_record_desc` as the parsers read it. The payload descriptor is of use only when
the payload constructor is `nfc_ndef_bin_payload_memcopy`. -/
structure BinRecordDesc where
  tnf : Tnf
  type : List UInt8
  payload : Option BinPayload

def hcRecTypeField : List UInt8 := [0x48, 0x63]

def acRecTypeField : List UInt8 := [0x61, 0x63]

def crRecTypeField : List UInt8 := [0x63, 0x72]

def recTypeCheck (recDesc : BinRecordDesc) (type : List UInt8) : Bool :=
  recDesc.tnf = .wellKnown ∧ recDesc.type = type

def recPayload (recDesc? : Option BinRecordDesc) (type : List UInt8) :
    Except ParseStop BinPayload :=
  match recDesc? with
  | none => .error .EINVAL
  | some recDesc =>
    if ¬ recTypeCheck recDesc type then .error .EINVAL
    else
      match recDesc.payload with
      | none => .error .ENOTSUP
      | some payload => .ok payload

/-- `net_buf_simple_init_with_data` and `net_buf_simple_reset`. -/
def netBufInit (abi : Abi) (resultBuf : Memory) : Arena :=
  ⟨resultBuf, 0, resultBuf.length % 2 ^ abi.netBufBits⟩

def orNoMem {α : Type} : Option α → Except ParseStop α
  | none => .error .ENOMEM
  | some a => .ok a

def nextByte : List UInt8 → Except ParseStop (UInt8 × List UInt8)
  | [] => .error .EINVAL
  | b :: rest => .ok (b, rest)

/-- `struct nfc_ndef_ch_hc_rec` in the result buffer. -/
structure ParsedHc where
  ctf : UInt32
  typeLen : Nat
  type : Nat
  dataLen : Nat
  data : Option Nat

/-- `hc_rec_payload_parse`. The pointer to the payload, and not the byte behind it, is converted to
the carrier type format. -/
def hcRecPayloadParse (abi : Abi) (payloadDesc : BinPayload) (resultBuf : Memory) :
    Except ParseStop (ParsedHc × Memory × Nat) := do
  let bufSize := resultBuf.length
  let (_, buf) ← orNoMem ((netBufInit abi resultBuf).alloc abi.hcRecSize)
  let (_, payload) ← nextByte payloadDesc.bytes
  let ctf := UInt32.ofNat (payloadDesc.address % 2 ^ abi.enumBits)
  let (typeLen, payload) ← nextByte payload
  if payload.length < typeLen.toNat then throw .EINVAL
  let (type, buf) ← orNoMem (buf.store (payload.take typeLen.toNat))
  let payload := payload.drop typeLen.toNat
  if payload.length < 1 then
    return (⟨ctf, typeLen.toNat, type, 0, none⟩, buf.mem, subU32 bufSize buf.tailroom)
  let dataLen := payload.length % 2 ^ 8
  let (data, buf) ← orNoMem (buf.store (payload.take dataLen))
  return (⟨ctf, typeLen.toNat, type, dataLen, some data⟩, buf.mem, subU32 bufSize buf.tailroom)

def chHcRecParse (abi : Abi) (recDesc? : Option BinRecordDesc) (resultBuf? : Option Memory) :
    Except ParseStop (ParsedHc × Memory × Nat) :=
  match resultBuf? with
  | none => .error .EINVAL
  | some resultBuf => do
    let payload ← recPayload recDesc? hcRecTypeField
    hcRecPayloadParse abi payload resultBuf

/-- `struct nfc_ndef_ch_ac_rec_ref` in the result buffer. -/
structure ParsedRef where
  length : Nat
  data : Nat

/-- `ac_reference_parse`, into the reference at `acRec`. -/
def acReferenceParse (acRec : Option Nat) (buf : Arena) (payload : List UInt8) :
    Except ParseStop (ParsedRef × Arena × List UInt8) := do
  let (length, payload) ← nextByte payload
  if acRec = none then throw .nullStore
  if payload.length < length.toNat then throw .EINVAL
  let (data, buf) ← orNoMem (buf.store (payload.take length.toNat))
  return (⟨length.toNat, data⟩, buf, payload.drop length.toNat)

/-- `struct nfc_ndef_ch_ac_rec` in the result buffer. -/
structure ParsedAc where
  cps : UInt32
  carrierDataRef : ParsedRef
  auxDataRef : List ParsedRef

/-- The loop over the auxiliary data references, into the array at `auxDataRef`. -/
def acReferencesParse (auxDataRef : Option Nat) :
    Nat → Arena → List UInt8 → Except ParseStop (List ParsedRef × Arena)
  | 0, buf, _ => .ok ([], buf)
  | n + 1, buf, payload => do
    let (ref, buf, payload) ← acReferenceParse auxDataRef buf payload
    let (refs, buf) ← acReferencesParse auxDataRef n buf payload
    return (ref :: refs, buf)

/-- `ac_rec_payload_parse`. Without auxiliary data references the length in `result_buf_len` is left
as it is. With them, an array that has been allocated is taken for a failure. -/
def acRecPayloadParse (abi : Abi) (payloadDesc : BinPayload) (resultBuf : Memory) :
    Except ParseStop (ParsedAc × Memory × Nat) := do
  let bufSize := resultBuf.length
  let (acRec, buf) ← orNoMem ((netBufInit abi resultBuf).alloc abi.acRecSize)
  let (cps, payload) ← nextByte payloadDesc.bytes
  let (carrierDataRef, buf, payload) ← acReferenceParse (some acRec) buf payload
  let (auxDataRefCnt, payload) ← nextByte payload
  if auxDataRefCnt = 0 then
    return (⟨cps.toUInt32, carrierDataRef, []⟩, buf.mem, bufSize)
  if (buf.alloc (auxDataRefCnt.toNat * abi.acRecRefSize)).isSome then throw .ENOMEM
  let (auxDataRef, buf) ← acReferencesParse none auxDataRefCnt.toNat buf payload
  return (⟨cps.toUInt32, carrierDataRef, auxDataRef⟩, buf.mem, subU32 bufSize buf.tailroom)

def chAcRecParse (abi : Abi) (recDesc? : Option BinRecordDesc) (resultBuf? : Option Memory) :
    Except ParseStop (ParsedAc × Memory × Nat) :=
  match resultBuf? with
  | none => .error .EINVAL
  | some resultBuf => do
    let payload ← recPayload recDesc? acRecTypeField
    acRecPayloadParse abi payload resultBuf

def chCrRecParse (recDesc? : Option BinRecordDesc) : Except ParseStop CrRec := do
  let payload ← recPayload recDesc? crRecTypeField
  if payload.bytes.length < 2 then throw .EINVAL
  return ⟨UInt16.ofNat (be16Value (payload.bytes.getD 0 0) (payload.bytes.getD 1 0))⟩

inductive HandoverRec
  | hc (hcRec : HcRec)
  | ac (acRec : AcRec)
  | cr (crRec : CrRec)

namespace HandoverRec

def payloadEncode : HandoverRec → PayloadConstructor
  | hc hcRec => chHcRecPayloadEncode hcRec
  | ac acRec => chAcRecPayloadEncode acRec
  | cr crRec => chCrRecPayloadEncode crRec

def payload : HandoverRec → List UInt8
  | hc hcRec => hcRec.payload
  | ac acRec => acRec.payload
  | cr crRec => crRec.payload

def typeField : HandoverRec → List UInt8
  | hc _ => hcRecTypeField
  | ac _ => acRecTypeField
  | cr _ => crRecTypeField

/-- The carrier type format and the carrier power state are valid. -/
def Accepted : HandoverRec → Prop
  | hc hcRec => 1 ≤ hcRec.ctf ∧ hcRec.ctf ≤ 4
  | ac acRec => acRec.cps &&& ~~~cpsMask = 0
  | cr _ => True

def bytesUsed (abi : Abi) : HandoverRec → Nat
  | hc hcRec => abi.hcRecSize + hcRec.type.val.length + hcRec.data.val.length
  | ac acRec => abi.acRecSize + acRec.carrierDataRef.val.length +
      (acRec.auxDataRef.map fun ref => abi.acRecRefSize + ref.val.length).sum
  | cr _ => 0

end HandoverRec

def ParsedHc.Denotes (p : ParsedHc) (mem : Memory) (hcRec : HcRec) : Prop :=
  p.ctf = hcRec.ctf ∧ mem.slice p.type p.typeLen = hcRec.type.val ∧
    (p.data.map (mem.slice · p.dataLen)).getD [] = hcRec.data.val

def ParsedRef.bytes (ref : ParsedRef) (mem : Memory) : List UInt8 := mem.slice ref.data ref.length

def ParsedAc.Denotes (p : ParsedAc) (mem : Memory) (acRec : AcRec) : Prop :=
  p.cps = acRec.cps ∧ p.carrierDataRef.bytes mem = acRec.carrierDataRef.val ∧
    p.auxDataRef.map (·.bytes mem) = acRec.auxDataRef.map (·.val)

def HandoverRec.ParsesBack (abi : Abi) (recDesc : BinRecordDesc) (resultBuf : Memory) :
    HandoverRec → Prop
  | hc hcRec => ∃ p mem, chHcRecParse abi (some recDesc) (some resultBuf) =
      .ok (p, mem, (hc hcRec).bytesUsed abi) ∧ p.Denotes mem hcRec
  | ac acRec => ∃ p mem, chAcRecParse abi (some recDesc) (some resultBuf) =
      .ok (p, mem, (ac acRec).bytesUsed abi) ∧ p.Denotes mem acRec
  | cr crRec => chCrRecParse (some recDesc) = .ok crRec

/-- The record is encoded into `buf`, and the bytes, placed at `address`, are parsed back. -/
def HandoverRec.RoundTrips (abi : Abi) (buf : Memory) (address : Nat) (resultBuf : Memory)
    (r : HandoverRec) : Prop :=
  ∃ mem n, r.payloadEncode (some buf) buf.length = ⟨some mem, .ok n⟩ ∧
    r.ParsesBack abi ⟨.wellKnown, r.typeField, some ⟨address, mem.take n⟩⟩ resultBuf

/-- A carrier record survives when the address of its payload happens to give its carrier type format,
and an alternative carrier record without auxiliary data references when the result buffer is filled
exactly. The size of the result buffer has to fit in `struct net_buf_simple`. -/
def HandoverRec.Survives (abi : Abi) (address size : Nat) : HandoverRec → Prop
  | hc hcRec => UInt32.ofNat (address % 2 ^ abi.enumBits) = hcRec.ctf ∧ size < 2 ^ abi.netBufBits
  | ac acRec => acRec.auxDataRef = [] ∧ size = abi.acRecSize + acRec.carrierDataRef.val.length ∧
      size < 2 ^ abi.netBufBits
  | cr _ => True

theorem HandoverRec.payloadEncode_accepted {r : HandoverRec} (hr : r.Accepted) {buf : Memory}
    (hbuf : r.payload.length ≤ buf.length) :
    r.payloadEncode (some buf) buf.length = ⟨some (buf.write 0 r.payload), .ok r.payload.length⟩ := by
  cases r with
  | hc hcRec =>
    have hlen := hcRec.length_payload
    simp only [payload] at hbuf ⊢
    simp only [payloadEncode, chHcRecPayloadEncode]
    have hctf : 1 ≤ hcRec.ctf ∧ hcRec.ctf ≤ 4 := hr
    rw [if_neg (by omega),
      if_neg (not_or.mpr ⟨UInt32.not_lt.mpr hctf.1, UInt32.not_lt.mpr hctf.2⟩), hlen]
  | ac acRec =>
    have hlen := acRec.length_payload
    simp only [payload] at hbuf ⊢
    simp only [payloadEncode, chAcRecPayloadEncode]
    have hcps : acRec.cps &&& ~~~cpsMask = 0 := hr
    rw [if_neg (by omega), if_neg (not_not.mpr hcps), hlen]
  | cr crRec =>
    have hlen := crRec.length_payload
    simp only [payload] at hbuf ⊢
    simp only [payloadEncode, chCrRecPayloadEncode]
    rw [if_neg (by omega), hlen]

theorem HandoverRec.roundTrips_iff_parsesBack {abi : Abi} {r : HandoverRec} (hr : r.Accepted)
    {buf : Memory} (hbuf : r.payload.length ≤ buf.length) (address : Nat) (resultBuf : Memory) :
    r.RoundTrips abi buf address resultBuf ↔
      r.ParsesBack abi ⟨.wellKnown, r.typeField, some ⟨address, r.payload⟩⟩ resultBuf := by
  unfold RoundTrips
  rw [payloadEncode_accepted hr hbuf]
  constructor
  · rintro ⟨mem, n, h, hparse⟩
    cases h
    rwa [Memory.take_write_zero] at hparse
  · intro hparse
    refine ⟨_, _, rfl, ?_⟩
    rwa [Memory.take_write_zero]

@[simp] theorem orNoMem_some {α : Type} (a : α) : orNoMem (some a) = .ok a := rfl

@[simp] theorem orNoMem_none {α : Type} : orNoMem (none : Option α) = .error .ENOMEM := rfl

@[simp] theorem nextByte_cons (b : UInt8) (rest : List UInt8) :
    nextByte (b :: rest) = .ok (b, rest) := rfl

theorem recPayload_wellKnown (type : List UInt8) (payload : BinPayload) :
    recPayload (some ⟨.wellKnown, type, some payload⟩) type = .ok payload := by
  simp [recPayload, recTypeCheck]

section HandoverCarrier

variable {abi : Abi} (hcRec : HcRec) (address : Nat) (resultBuf : Memory)

theorem hcRecPayloadParse_fits
    (h : (HandoverRec.hc hcRec).bytesUsed abi ≤ resultBuf.length % 2 ^ abi.netBufBits) :
    ∃ p mem, hcRecPayloadParse abi ⟨address, hcRec.payload⟩ resultBuf =
        .ok (p, mem, subU32 resultBuf.length (resultBuf.length % 2 ^ abi.netBufBits -
          (HandoverRec.hc hcRec).bytesUsed abi)) ∧
      p.ctf = UInt32.ofNat (address % 2 ^ abi.enumBits) ∧
      mem.slice p.type p.typeLen = hcRec.type.val ∧
      (p.data.map (mem.slice · p.dataLen)).getD [] = hcRec.data.val := by
  have hsize := Nat.mod_le resultBuf.length (2 ^ abi.netBufBits)
  have hdataLen := Nat.mod_eq_of_lt hcRec.data.property
  have hlen : ¬ (hcRec.type.val ++ hcRec.data.val).length < hcRec.type.val.length := by
    rw [List.length_append]
    omega
  simp only [HandoverRec.bytesUsed] at h ⊢
  unfold hcRecPayloadParse HcRec.payload ShortBytes.field
  simp only [List.cons_append, nextByte_cons, bind, Except.bind, ShortBytes.toNat_lengthByte,
    List.take_left, List.drop_left, if_neg hlen, hdataLen, List.take_length]
  rw [Arena.alloc_of_le (by simp only [netBufInit]; omega)]
  simp only [orNoMem_some, netBufInit, Nat.zero_add]
  rw [Arena.store_of_le (by dsimp only; omega)]
  simp only [orNoMem_some]
  have htype : (resultBuf.write abi.hcRecSize hcRec.type.val).slice abi.hcRecSize
      hcRec.type.val.length = hcRec.type.val := Memory.slice_write _ (by omega)
  by_cases hdata : hcRec.data.val.length < 1
  · have hnil : hcRec.data.val = [] := List.length_eq_zero_iff.mp (by omega)
    rw [if_pos hdata, hnil]
    exact ⟨_, _, rfl, rfl, htype, rfl⟩
  · have hwrite : (resultBuf.write abi.hcRecSize hcRec.type.val).length = resultBuf.length :=
      Memory.length_write (by omega)
    rw [if_neg hdata, Arena.store_of_le (by dsimp only; omega)]
    refine ⟨_, _, rfl, rfl, ?_, ?_⟩
    · dsimp only
      rw [Memory.slice_write_of_le _ (le_refl _) (by omega)]
      exact htype
    · exact Memory.slice_write _ (by dsimp only; omega)

theorem hcRecPayloadParse_noMem
    (h : resultBuf.length % 2 ^ abi.netBufBits < (HandoverRec.hc hcRec).bytesUsed abi) :
    hcRecPayloadParse abi ⟨address, hcRec.payload⟩ resultBuf = .error .ENOMEM := by
  have hdataLen := Nat.mod_eq_of_lt hcRec.data.property
  have hlen : ¬ (hcRec.type.val ++ hcRec.data.val).length < hcRec.type.val.length := by
    rw [List.length_append]
    omega
  simp only [HandoverRec.bytesUsed] at h
  unfold hcRecPayloadParse HcRec.payload ShortBytes.field
  simp only [List.cons_append, nextByte_cons, bind, Except.bind, ShortBytes.toNat_lengthByte,
    List.take_left, List.drop_left, if_neg hlen, hdataLen, List.take_length]
  rcases Nat.lt_or_ge (resultBuf.length % 2 ^ abi.netBufBits) abi.hcRecSize with hrec | hrec
  · rw [Arena.alloc_of_lt (Nat.zero_le _) (by simp only [netBufInit]; omega)]
    rfl
  rw [Arena.alloc_of_le (by simp only [netBufInit]; omega)]
  simp only [orNoMem_some, netBufInit, Nat.zero_add]
  rcases Nat.lt_or_ge (resultBuf.length % 2 ^ abi.netBufBits)
    (abi.hcRecSize + hcRec.type.val.length) with htype | htype
  · rw [Arena.store_of_lt hrec htype]
    rfl
  rw [Arena.store_of_le htype]
  simp only [orNoMem_some]
  rw [if_neg (by omega), Arena.store_of_lt htype h]
  rfl

theorem hc_parsesBack_iff (hlt : resultBuf.length < 2 ^ 32)
    (hused : (HandoverRec.hc hcRec).bytesUsed abi ≤ resultBuf.length) :
    (HandoverRec.hc hcRec).ParsesBack abi
        ⟨.wellKnown, hcRecTypeField, some ⟨address, hcRec.payload⟩⟩ resultBuf ↔
      (HandoverRec.hc hcRec).Survives abi address resultBuf.length := by
  have hsize := Nat.mod_le resultBuf.length (2 ^ abi.netBufBits)
  have hparse : chHcRecParse abi (some ⟨.wellKnown, hcRecTypeField, some ⟨address, hcRec.payload⟩⟩)
      (some resultBuf) = hcRecPayloadParse abi ⟨address, hcRec.payload⟩ resultBuf := by
    simp only [chHcRecParse, recPayload_wellKnown, bind, Except.bind]
  simp only [HandoverRec.ParsesBack, hparse, HandoverRec.Survives]
  rcases Nat.lt_or_ge (resultBuf.length % 2 ^ abi.netBufBits)
    ((HandoverRec.hc hcRec).bytesUsed abi) with hmem | hmem
  · rw [hcRecPayloadParse_noMem hcRec address resultBuf hmem]
    constructor
    · rintro ⟨p, mem, h, -⟩
      cases h
    · rintro ⟨-, hfits⟩
      rw [Nat.mod_eq_of_lt hfits] at hmem
      omega
  · obtain ⟨p, mem, hok, hctf, htype, hdata⟩ := hcRecPayloadParse_fits hcRec address resultBuf hmem
    rw [hok]
    constructor
    · rintro ⟨p', mem', h, hdenotes⟩
      simp only [Except.ok.injEq, Prod.mk.injEq] at h
      obtain ⟨rfl, rfl, hused'⟩ := h
      rw [subU32_of_le (by omega) hlt] at hused'
      refine ⟨hctf.symm.trans hdenotes.1, ?_⟩
      have hmod : resultBuf.length % 2 ^ abi.netBufBits = resultBuf.length := by omega
      rw [← hmod]
      exact Nat.mod_lt _ (Nat.two_pow_pos _)
    · rintro ⟨haddress, hfits⟩
      refine ⟨p, mem, ?_, hctf.trans haddress, htype, hdata⟩
      rw [Nat.mod_eq_of_lt hfits, subU32_of_le (by omega) hlt]
      congr
      omega

end HandoverCarrier

section AlternativeCarrier

variable {abi : Abi} (acRec : AcRec) (address : Nat) (resultBuf : Memory)

theorem acReferenceParse_field (dest : Nat) {buf : Arena} (ref : ShortBytes) (payload : List UInt8)
    (h : buf.len + ref.val.length ≤ buf.size) :
    acReferenceParse (some dest) buf (ref.field ++ payload) =
      .ok (⟨ref.val.length, buf.len⟩,
        ⟨buf.mem.write buf.len ref.val, buf.len + ref.val.length, buf.size⟩, payload) := by
  have hlen : ¬ (ref.val ++ payload).length < ref.val.length := by
    rw [List.length_append]
    omega
  unfold acReferenceParse ShortBytes.field
  simp only [List.cons_append, nextByte_cons, bind, Except.bind, ShortBytes.toNat_lengthByte,
    List.take_left, List.drop_left, if_neg hlen, reduceCtorEq, if_false, Arena.store_of_le h,
    orNoMem_some, pure, Except.pure]

theorem acReferenceParse_noMem (dest : Nat) {buf : Arena} (ref : ShortBytes) (payload : List UInt8)
    (hle : buf.len ≤ buf.size) (h : buf.size < buf.len + ref.val.length) :
    acReferenceParse (some dest) buf (ref.field ++ payload) = .error .ENOMEM := by
  have hlen : ¬ (ref.val ++ payload).length < ref.val.length := by
    rw [List.length_append]
    omega
  unfold acReferenceParse ShortBytes.field
  simp only [List.cons_append, nextByte_cons, bind, Except.bind, ShortBytes.toNat_lengthByte,
    List.take_left, if_neg hlen, reduceCtorEq, if_false, Arena.store_of_lt hle h, orNoMem_none]

/-- References are stored through `NULL`, so that none is ever parsed. -/
theorem acReferencesParse_null (n : Nat) (buf : Arena) (payload : List UInt8)
    (r : List ParsedRef × Arena) : acReferencesParse none (n + 1) buf payload ≠ .ok r := by
  intro h
  rw [acReferencesParse, bind_eq_ok] at h
  obtain ⟨a, h, -⟩ := h
  unfold acReferenceParse at h
  rw [bind_eq_ok] at h
  obtain ⟨b, -, h⟩ := h
  cases h

private theorem and_eq_left_of_and_not {a m : UInt32} (h : a &&& ~~~m = 0) : a &&& m = a := by
  have hor : a &&& m ||| a &&& ~~~m = a := by
    apply UInt32.toBitVec_inj.mp
    rw [UInt32.toBitVec_or, UInt32.toBitVec_and, UInt32.toBitVec_and, ← BitVec.and_or_distrib_left,
      UInt32.toBitVec_not, BitVec.or_not_self, BitVec.and_allOnes]
  rwa [h, UInt32.or_zero] at hor

theorem cps_toUInt8 {cps : UInt32} (h : cps &&& ~~~cpsMask = 0) : cps.toUInt8.toUInt32 = cps := by
  have hle : cps.toNat ≤ 3 := by
    rw [← and_eq_left_of_and_not h, UInt32.toNat_and]
    exact Nat.and_le_right
  apply UInt32.toNat.inj
  simp only [UInt8.toNat_toUInt32, UInt32.toNat_toUInt8]
  omega

theorem acRecPayloadParse_noMem (h : resultBuf.length % 2 ^ abi.netBufBits <
      abi.acRecSize + acRec.carrierDataRef.val.length) :
    acRecPayloadParse abi ⟨address, acRec.payload⟩ resultBuf = .error .ENOMEM := by
  unfold acRecPayloadParse AcRec.payload
  simp only [nextByte_cons, bind, Except.bind]
  rcases Nat.lt_or_ge (resultBuf.length % 2 ^ abi.netBufBits) abi.acRecSize with hrec | hrec
  · rw [Arena.alloc_of_lt (Nat.zero_le _) (by simp only [netBufInit]; omega)]
    rfl
  rw [Arena.alloc_of_le (by simp only [netBufInit]; omega)]
  simp only [orNoMem_some, netBufInit, Nat.zero_add]
  rw [acReferenceParse_noMem _ _ _ hrec h]

theorem acRecPayloadParse_noAux (hcps : acRec.cps &&& ~~~cpsMask = 0) (haux : acRec.auxDataRef = [])
    (h : abi.acRecSize + acRec.carrierDataRef.val.length ≤
      resultBuf.length % 2 ^ abi.netBufBits) :
    ∃ p mem, acRecPayloadParse abi ⟨address, acRec.payload⟩ resultBuf =
      .ok (p, mem, resultBuf.length) ∧ p.Denotes mem acRec := by
  have hsize := Nat.mod_le resultBuf.length (2 ^ abi.netBufBits)
  unfold acRecPayloadParse AcRec.payload
  simp only [nextByte_cons, bind, Except.bind]
  rw [Arena.alloc_of_le (by simp only [netBufInit]; omega)]
  simp only [orNoMem_some, netBufInit, Nat.zero_add]
  rw [acReferenceParse_field _ _ _ h]
  simp only [nextByte_cons, haux, List.length_nil]
  refine ⟨_, _, rfl, cps_toUInt8 hcps, ?_, ?_⟩
  · exact Memory.slice_write _ (by omega)
  · rw [haux]
    rfl

theorem acRecPayloadParse_aux (haux : acRec.auxDataRef ≠ [])
    (h : abi.acRecSize + acRec.carrierDataRef.val.length ≤
      resultBuf.length % 2 ^ abi.netBufBits) (r : ParsedAc × Memory × Nat) :
    acRecPayloadParse abi ⟨address, acRec.payload⟩ resultBuf ≠ .ok r := by
  intro hok
  have hpos := List.length_pos_iff.mpr haux
  have hcnt : (UInt8.ofNat acRec.auxDataRef.length).toNat = acRec.auxDataRef.length := by
    rw [UInt8.toNat_ofNat', Nat.mod_eq_of_lt acRec.auxDataRef_lt]
  have hne : UInt8.ofNat acRec.auxDataRef.length ≠ 0 := by
    intro hzero
    rw [hzero] at hcnt
    exact absurd hcnt.symm (Nat.ne_of_gt hpos)
  unfold acRecPayloadParse AcRec.payload at hok
  simp only [nextByte_cons, bind, Except.bind] at hok
  rw [Arena.alloc_of_le (by simp only [netBufInit]; omega)] at hok
  simp only [orNoMem_some, netBufInit, Nat.zero_add] at hok
  rw [acReferenceParse_field _ _ _ h] at hok
  simp only [nextByte_cons, if_neg hne, hcnt] at hok
  split at hok
  · cases hok
  · obtain ⟨n, hn⟩ := Nat.exists_eq_succ_of_ne_zero (Nat.ne_of_gt hpos)
    rw [hn] at hok
    split at hok
    · cases hok
    next refs hrefs => exact acReferencesParse_null n _ _ _ hrefs

theorem ac_parsesBack_iff (hcps : acRec.cps &&& ~~~cpsMask = 0)
    (hused : (HandoverRec.ac acRec).bytesUsed abi ≤ resultBuf.length) :
    (HandoverRec.ac acRec).ParsesBack abi
        ⟨.wellKnown, acRecTypeField, some ⟨address, acRec.payload⟩⟩ resultBuf ↔
      (HandoverRec.ac acRec).Survives abi address resultBuf.length := by
  have hparse : chAcRecParse abi (some ⟨.wellKnown, acRecTypeField, some ⟨address, acRec.payload⟩⟩)
      (some resultBuf) = acRecPayloadParse abi ⟨address, acRec.payload⟩ resultBuf := by
    simp only [chAcRecParse, recPayload_wellKnown, bind, Except.bind]
  simp only [HandoverRec.ParsesBack, hparse, HandoverRec.Survives, HandoverRec.bytesUsed] at hused ⊢
  rcases Nat.lt_or_ge (resultBuf.length % 2 ^ abi.netBufBits)
    (abi.acRecSize + acRec.carrierDataRef.val.length) with hmem | hmem
  · rw [acRecPayloadParse_noMem acRec address resultBuf hmem]
    constructor
    · rintro ⟨p, mem, h, -⟩
      cases h
    · rintro ⟨-, -, hfits⟩
      rw [Nat.mod_eq_of_lt hfits] at hmem
      omega
  by_cases haux : acRec.auxDataRef = []
  · obtain ⟨p, mem, hok, hdenotes⟩ := acRecPayloadParse_noAux acRec address resultBuf hcps haux hmem
    have hsize := Nat.mod_le resultBuf.length (2 ^ abi.netBufBits)
    rw [hok, haux, List.map_nil, List.sum_nil, Nat.add_zero]
    constructor
    · rintro ⟨p', mem', h, -⟩
      simp only [Except.ok.injEq, Prod.mk.injEq] at h
      have hmod : resultBuf.length % 2 ^ abi.netBufBits = resultBuf.length := by omega
      refine ⟨rfl, h.2.2, ?_⟩
      rw [← hmod]
      exact Nat.mod_lt _ (Nat.two_pow_pos _)
    · rintro ⟨-, hlen, -⟩
      exact ⟨p, mem, by rw [hlen], hdenotes⟩
  · constructor
    · rintro ⟨p, mem, h, -⟩
      exact absurd h (acRecPayloadParse_aux acRec address resultBuf haux hmem _)
    · rintro ⟨hnil, -⟩
      exact absurd hnil haux

end AlternativeCarrier

theorem cr_parsesBack (abi : Abi) (crRec : CrRec) (address : Nat) (resultBuf : Memory) :
    (HandoverRec.cr crRec).ParsesBack abi
      ⟨.wellKnown, crRecTypeField, some ⟨address, crRec.payload⟩⟩ resultBuf := by
  simp only [HandoverRec.ParsesBack, chCrRecParse, recPayload_wellKnown, bind, Except.bind,
    CrRec.payload, be16]
  have hrandom := be16Value_be16 crRec.random.toNat_lt
  simp only [List.length_cons, List.length_nil, Nat.zero_add, Nat.reduceAdd, lt_irrefl, if_false,
    List.getD_cons_zero, List.getD_cons_succ, hrandom, UInt16.ofNat_toNat, pure,
    Except.pure]

/-- An accepted record that is encoded into a large enough buffer and parsed into a large enough
result buffer comes back exactly when it survives. -/
theorem HandoverRec.handover_roundTrips_iff (abi : Abi) {r : HandoverRec} (hr : r.Accepted) {buf : Memory}
    (hbuf : r.payload.length ≤ buf.length) (address : Nat) {resultBuf : Memory}
    (hlt : resultBuf.length < 2 ^ 32) (hused : r.bytesUsed abi ≤ resultBuf.length) :
    r.RoundTrips abi buf address resultBuf ↔ r.Survives abi address resultBuf.length := by
  rw [roundTrips_iff_parsesBack hr hbuf]
  cases r with
  | hc hcRec => exact hc_parsesBack_iff hcRec address resultBuf hlt hused
  | ac acRec => exact ac_parsesBack_iff acRec address resultBuf hr hused
  | cr crRec => exact iff_of_true (cr_parsesBack abi crRec address resultBuf) trivial

def armAbi : Abi := ⟨20, 20, 8, 8, 16⟩

/-- A carrier with the media type `a/c` and two bytes of data. -/
def mediaCarrier : HandoverRec := .hc ⟨2, ⟨[0x61, 0x2F, 0x63], by decide⟩, ⟨[0x01, 0x02], by decide⟩⟩

theorem mediaCarrier_accepted : mediaCarrier.Accepted := ⟨by decide, by decide⟩

theorem mediaCarrier_roundTrips :
    mediaCarrier.RoundTrips armAbi (List.replicate 16 0) 0x20000002 (List.replicate 64 0) :=
  (HandoverRec.handover_roundTrips_iff armAbi mediaCarrier_accepted (by decide) 0x20000002
    (by decide) (by decide)).mpr ⟨by decide, by decide⟩

/-- The same carrier does not come back when its payload lies at another address. -/
theorem mediaCarrier_not_roundTrips : mediaCarrier.Accepted ∧
    mediaCarrier.payload.length ≤ (List.replicate 16 (0 : UInt8)).length ∧
    mediaCarrier.bytesUsed armAbi ≤ (List.replicate 64 (0 : UInt8)).length ∧
    ¬ mediaCarrier.RoundTrips armAbi (List.replicate 16 0) 0x20001000 (List.replicate 64 0) := by
  refine ⟨mediaCarrier_accepted, by decide, by decide, ?_⟩
  rw [HandoverRec.roundTrips_iff_parsesBack mediaCarrier_accepted (by decide), mediaCarrier,
    HandoverRec.payload, HandoverRec.typeField, hc_parsesBack_iff _ _ _ (by decide) (by decide)]
  exact fun h => absurd h.1 (by decide)

end SdkNrf.Ndef
