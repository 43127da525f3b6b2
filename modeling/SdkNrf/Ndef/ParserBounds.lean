import SdkNrf.Framework.ExceptRun
import SdkNrf.Ndef.Message

/-!
# The NDEF parser and the bounds of its input

`nfc_ndef_record_parse` adds up the size of a record in `uint32_t` and compares the sum with the
bytes that are left.
-/

namespace SdkNrf.Ndef

open Relation

def byteAt (data : Memory) (off : Nat) : UInt8 := data.getD off 0

def lengthFieldSize (flags : UInt8) : Nat :=
  if flags &&& srMask ≠ 0 then payloadLenShortSize else payloadLenLongSize

def idFieldSize (flags : UInt8) : Nat := if flags &&& ilMask ≠ 0 then idLenSize else 0

/-- The payload length in the field at `off`. -/
def payloadLengthAt (flags : UInt8) (data : Memory) (off : Nat) : Nat :=
  if flags &&& srMask ≠ 0 then (byteAt data off).toNat
  else be32Value (byteAt data off) (byteAt data (off + 1)) (byteAt data (off + 2))
    (byteAt data (off + 3))

/-- The ID length in the field at `off`. -/
def idLengthAt (flags : UInt8) (data : Memory) (off : Nat) : Nat :=
  if flags &&& ilMask ≠ 0 then (byteAt data off).toNat else 0

section Declared

variable (data : Memory) (off : Nat)

def headerSize : Nat := 2 + lengthFieldSize (byteAt data off) + idFieldSize (byteAt data off)

def declaredType : Nat := (byteAt data (off + 1)).toNat

def declaredPayload : Nat := payloadLengthAt (byteAt data off) data (off + 2)

def declaredId : Nat :=
  idLengthAt (byteAt data off) data (off + 2 + lengthFieldSize (byteAt data off))

/-- The size that the record header at `off` declares. -/
def declaredSize : Nat :=
  headerSize data off + declaredType data off + declaredId data off + declaredPayload data off

end Declared

theorem lengthFieldSize_pos (flags : UInt8) : 1 ≤ lengthFieldSize flags := by
  unfold lengthFieldSize payloadLenShortSize payloadLenLongSize
  split <;> omega

theorem three_le_headerSize (data : Memory) (off : Nat) : 3 ≤ headerSize data off := by
  have := lengthFieldSize_pos (byteAt data off)
  unfold headerSize
  omega

theorem headerSize_le (data : Memory) (off : Nat) : headerSize data off ≤ 7 := by
  unfold headerSize lengthFieldSize idFieldSize payloadLenShortSize payloadLenLongSize idLenSize
  split <;> split <;> omega

theorem declaredId_lt (data : Memory) (off : Nat) : declaredId data off < 2 ^ 8 := by
  unfold declaredId idLengthAt
  split
  · exact UInt8.toNat_lt _
  · omega

theorem readByte_eq_ok {data : Memory} {off : Nat} {b : UInt8} (h : readByte data off = .ok b) :
    byteAt data off = b := by
  unfold readByte at h
  split at h
  next b' hb =>
    cases h
    rw [byteAt, List.getD_eq_getElem?_getD, hb, Option.getD_some]
  next => cases h

theorem checkSize_eq_ok {expected len : Nat} {u : Unit} (h : checkSize expected len = .ok u) :
    expected ≤ len := by
  unfold checkSize at h
  split at h
  · cases h
  · omega

theorem readPayloadLength_eq_ok {flags : UInt8} {data : Memory} {off len : Nat}
    {out : Nat × Nat × Nat} (h : readPayloadLength flags data off 3 len = .ok out) :
    out = (payloadLengthAt flags data off, 2 + lengthFieldSize flags,
      off + lengthFieldSize flags) := by
  unfold readPayloadLength at h
  unfold payloadLengthAt lengthFieldSize
  split at h
  next hsr =>
    simp only [bind_eq_ok, pure_eq_ok] at h
    obtain ⟨b, hb, rfl⟩ := h
    rw [if_pos hsr, if_pos hsr, readByte_eq_ok hb]
    rfl
  next hsr =>
    simp only [bind_eq_ok, pure_eq_ok] at h
    obtain ⟨-, -, b3, h3, b2, h2, b1, h1, b0, h0, rfl⟩ := h
    rw [if_neg hsr, if_neg hsr, readByte_eq_ok h3, readByte_eq_ok h2, readByte_eq_ok h1,
      readByte_eq_ok h0]
    rfl

theorem readIdLength_eq_ok {flags : UInt8} {prev : Option Nat} {data : Memory}
    {off expected len : Nat} {out : Nat × Option Nat × Nat × Nat} (hexpected : expected ≤ 6)
    (h : readIdLength flags prev data off expected len = .ok out) :
    out.1 = idLengthAt flags data off ∧ out.2.2.1 = expected + idFieldSize flags ∧
      out.2.2.2 = off + idFieldSize flags := by
  unfold readIdLength at h
  unfold idLengthAt idFieldSize
  split at h
  next hil =>
    simp only [bind_eq_ok, pure_eq_ok] at h
    obtain ⟨-, -, b, hb, rfl⟩ := h
    rw [if_pos hil, if_pos hil, readByte_eq_ok hb]
    exact ⟨rfl, addU32_of_lt (by unfold idLenSize; omega), rfl⟩
  next hil =>
    rw [pure_eq_ok] at h
    subst h
    rw [if_neg hil, if_neg hil]
    exact ⟨rfl, rfl, rfl⟩

def InRange (ptr : Option Nat) (len i : Nat) : Prop := ∃ off, ptr = some off ∧ off ≤ i ∧ i < off + len

/-- The byte `i` of the input belongs to the type, the ID or the payload of the record. -/
def ParsedRecord.Covers (p : ParsedRecord) (i : Nat) : Prop :=
  InRange p.type p.typeLength i ∨ InRange p.id p.idLength i ∨ InRange p.payload p.payloadLength i

/-- What a record that has been parsed at `off` looks like. -/
structure ParsedAt (data : Memory) (off len : Nat) (p : ParsedRecord) (location : Location)
    (used : Nat) : Prop where
  location_eq : location = Location.ofFlags (byteAt data off)
  used_eq : used = declaredSize data off % 2 ^ 32
  used_le : used ≤ len
  typeLength : p.typeLength = declaredType data off
  type : ∀ o, p.type = some o → o = off + headerSize data off
  idLength : p.idLength = declaredId data off
  id : 0 < p.idLength → p.id = some (off + headerSize data off + declaredType data off)
  payloadLength : p.payloadLength = declaredPayload data off
  payload : p.payload = if declaredPayload data off = 0 then none
    else some (off + headerSize data off + declaredType data off + declaredId data off)

theorem recordParse_parsedAt {prev p : ParsedRecord} {data : Memory} {off len used : Nat}
    {location : Location} (h : recordParse prev data off len = .ok (p, location, used)) :
    ParsedAt data off len p location used := by
  unfold recordParse at h
  simp only [bind_eq_ok, pure_eq_ok, Prod.mk.injEq] at h
  obtain ⟨-, -, flags, hflags, tl, htl, ⟨payloadLength, expected, off₁⟩, hpayload,
    ⟨idLength, id, expected', off₂⟩, hid, u, hsize, rfl, rfl, rfl⟩ := h
  obtain rfl := readByte_eq_ok hflags
  obtain rfl := readByte_eq_ok htl
  have hfield := readPayloadLength_eq_ok hpayload
  simp only [Prod.mk.injEq] at hfield
  obtain ⟨rfl, rfl, rfl⟩ := hfield
  have hle : 2 + lengthFieldSize (byteAt data off) ≤ 6 := by
    unfold lengthFieldSize payloadLenShortSize payloadLenLongSize
    split <;> omega
  have hidField := readIdLength_eq_ok hle hid
  dsimp only at hidField
  obtain ⟨rfl, rfl, rfl⟩ := hidField
  have hheader : off + 2 + lengthFieldSize (byteAt data off) + idFieldSize (byteAt data off) =
      off + headerSize data off := by
    unfold headerSize
    omega
  have hused : addU32 (2 + lengthFieldSize (byteAt data off) + idFieldSize (byteAt data off))
      (addU32 ((byteAt data (off + 1)).toNat + idLengthAt (byteAt data off) data
        (off + 2 + lengthFieldSize (byteAt data off)))
        (payloadLengthAt (byteAt data off) data (off + 2))) = declaredSize data off % 2 ^ 32 := by
    unfold addU32 declaredSize headerSize declaredType declaredId declaredPayload
    omega
  constructor
  case location_eq => rfl
  case used_eq => exact hused
  case used_le => exact checkSize_eq_ok hsize
  case typeLength => rfl
  case type =>
    intro o ho
    dsimp only at ho
    split at ho
    · rw [Option.some.injEq] at ho
      rw [← ho, hheader]
    · cases ho
  case idLength => rfl
  case id =>
    intro hpos
    dsimp only at hpos ⊢
    rw [if_pos hpos, hheader]
    rfl
  case payloadLength => rfl
  case payload =>
    dsimp only
    rw [hheader]
    rfl

namespace ParsedAt

variable {data : Memory} {off len used : Nat} {p : ParsedRecord} {location : Location}

theorem covers (h : ParsedAt data off len p location used) {i : Nat} (hi : p.Covers i) :
    off + headerSize data off ≤ i ∧ i < off + declaredSize data off := by
  unfold declaredSize
  rcases hi with ⟨o, ho, hle, hlt⟩ | ⟨o, ho, hle, hlt⟩ | ⟨o, ho, hle, hlt⟩
  · rw [h.type o ho] at hle hlt
    rw [h.typeLength] at hlt
    omega
  · rw [h.id (by omega), Option.some.injEq] at ho
    rw [h.idLength] at hlt
    omega
  · rw [h.payload] at ho
    rw [h.payloadLength] at hlt
    split at ho
    · cases ho
    · rw [Option.some.injEq] at ho
      omega

theorem covers_last (h : ParsedAt data off len p location used)
    (hwrap : 2 ^ 32 ≤ declaredSize data off) : p.Covers (off + declaredSize data off - 1) := by
  have hheader := headerSize_le data off
  have htype : declaredType data off < 2 ^ 8 := UInt8.toNat_lt _
  have hid := declaredId_lt data off
  have hsize : declaredSize data off = headerSize data off + declaredType data off +
    declaredId data off + declaredPayload data off := rfl
  right; right
  refine ⟨off + headerSize data off + declaredType data off + declaredId data off, ?_, ?_, ?_⟩
  · rw [h.payload, if_neg (by omega)]
  · omega
  · rw [h.payloadLength]
    omega

theorem used_eq_of_lt (h : ParsedAt data off len p location used)
    (hlt : declaredSize data off < 2 ^ 32) : used = declaredSize data off := by
  rw [h.used_eq, Nat.mod_eq_of_lt hlt]

end ParsedAt

/-- The variables of the loop of `nfc_ndef_msg_parser_internal`. -/
structure ParserState where
  msg : ParsedMsg
  k : Nat
  off : Nat
  left : Nat

inductive ParserStep (memo : Nat → ParsedRecord) (data : Memory) :
    ParserState → ParserState → Prop
  | next {s : ParserState} {msg : ParsedMsg} {location : Location} {len : Nat}
      (hleft : s.left ≠ 0)
      (hparse : parseNext memo data s.msg s.k s.off s.left = .ok (msg, location, len))
      (hmore : ¬ (location = .last ∨ location = .lone))
      (hroom : msg.record.length ≠ msg.maxRecordCount) :
      ParserStep memo data s ⟨msg, s.k + 1, s.off + len, subU32 s.left len⟩

abbrev ParserRun (memo : Nat → ParsedRecord) (data : Memory) := ReflTransGen (ParserStep memo data)

def ParserState.start (maxRecordCount n : Nat) : ParserState := ⟨⟨[], maxRecordCount⟩, 0, 0, n⟩

theorem msgParserLoop_run {memo : Nat → ParsedRecord} {data : Memory} {dataLen consumed : Nat}
    {s : ParserState} {out : ParsedMsg}
    (h : msgParserLoop memo data dataLen s.msg s.k s.off s.left = .ok (out, consumed)) :
    ∃ s' location len, ParserRun memo data s s' ∧
      parseNext memo data s'.msg s'.k s'.off s'.left = .ok (out, location, len) ∧
      (location = .last ∨ location = .lone) ∧
      consumed = subU32 dataLen (subU32 s'.left len) := by
  -- The loop adds a record in every round, so the room that is left bounds the rounds.
  induction hm : s.msg.maxRecordCount - s.msg.record.length using Nat.strong_induction_on
    generalizing s with
  | _ m ih =>
    by_cases hleft : s.left = 0
    · rw [msgParserLoop, if_pos hleft] at h
      cases h
    cases hparse : parseNext memo data s.msg s.k s.off s.left with
    | error e =>
      rw [msgParserLoop, if_neg hleft] at h
      split at h
      · cases h
      next heq =>
        rw [hparse] at heq
        cases heq
    | ok x =>
      obtain ⟨msg, location, len⟩ := x
      rw [msgParserLoop_next dataLen hleft hparse] at h
      split at h
      next hfinal =>
        cases h
        exact ⟨s, location, len, .refl, hparse, hfinal, rfl⟩
      next hmore =>
        split at h
        · cases h
        next hroom =>
          obtain ⟨r, -, -, hlt, hmsg⟩ := parseNext_eq_ok hparse
          have hless : msg.maxRecordCount - msg.record.length < m := by
            rw [hmsg, ← hm]
            simp only [List.length_append, List.length_singleton]
            omega
          obtain ⟨s', location', len', hrun, hlast⟩ :=
            ih _ hless (s := ⟨msg, s.k + 1, s.off + len, subU32 s.left len⟩) h rfl
          exact ⟨s', location', len', .head (.next hleft hparse hmore hroom) hrun, hlast⟩

/-- The header behind the one at `off`. -/
def NextHeader (data : Memory) (n off off' : Nat) : Prop :=
  ¬ (Location.ofFlags (byteAt data off) = .last ∨ Location.ofFlags (byteAt data off) = .lone) ∧
    off' = off + declaredSize data off ∧ off' < n

/-- No header declares 2^32 bytes or more, from the first header on and as far as each declared

end leads to another one. -/
def SizesFit (data : Memory) (n : Nat) : Prop :=
  ∀ off, ReflTransGen (NextHeader data n) 0 off → declaredSize data off < 2 ^ 32

/-- The parsed records lie in the first `n` bytes of the input and one behind the other. -/
structure Contained (n : Nat) (records : List ParsedRecord) (consumed : Nat) : Prop where
  inside : ∀ p ∈ records, ∀ i, p.Covers i → i < n
  apart : records.Pairwise fun p q => ∀ i j, p.Covers i → q.Covers j → i < j
  consumed_le : consumed ≤ n

structure ParserInv (data : Memory) (n : Nat) (s : ParserState) : Prop where
  header : s.left = 0 ∨ ReflTransGen (NextHeader data n) 0 s.off
  balance : s.off + s.left = n
  rounds : 3 * s.k ≤ s.off
  below : ∀ p ∈ s.msg.record, ∀ i, p.Covers i → i < s.off
  apart : s.msg.record.Pairwise fun p q => ∀ i j, p.Covers i → q.Covers j → i < j

section Bounds

variable {memo : Nat → ParsedRecord} {data : Memory} {n : Nat} {s s' : ParserState}

theorem ParserInv.start (data : Memory) (maxRecordCount n : Nat) :
    ParserInv data n (.start maxRecordCount n) where
  header := Or.inr .refl
  balance := Nat.zero_add n
  rounds := Nat.le_refl 0
  below := by simp [ParserState.start]
  apart := .nil

theorem ParserInv.records (hinv : ParserInv data n s) {p : ParsedRecord} {location : Location}
    {len used : Nat} (hp : ParsedAt data s.off len p location used)
    (hfit : declaredSize data s.off < 2 ^ 32) :
    (∀ q ∈ s.msg.record ++ [p], ∀ i, q.Covers i → i < s.off + used) ∧
      (s.msg.record ++ [p]).Pairwise fun p q => ∀ i j, p.Covers i → q.Covers j → i < j := by
  have hused := hp.used_eq_of_lt hfit
  constructor
  · intro q hq i hi
    rcases List.mem_append.mp hq with hq | hq
    · have := hinv.below q hq i hi
      omega
    · rw [List.mem_singleton] at hq
      subst hq
      have := (hp.covers hi).2
      omega
  · rw [List.pairwise_append]
    refine ⟨hinv.apart, List.pairwise_singleton _ _, ?_⟩
    intro q hq r hr i j hi hj
    rw [List.mem_singleton] at hr
    subst hr
    have hqi := hinv.below q hq i hi
    have hrj := (hp.covers hj).1
    omega

theorem ParserInv.step (hinv : ParserInv data n s) (hfit : SizesFit data n) (hn : n < 2 ^ 32)
    (hstep : ParserStep memo data s s') : ParserInv data n s' := by
  cases hstep with
  | @next msg location len hleft hparse hmore hroom =>
    obtain ⟨r, hr, -, -, rfl⟩ := parseNext_eq_ok hparse
    have hp := recordParse_parsedAt hr
    have hheader := hinv.header.resolve_left hleft
    have hlt := hfit s.off hheader
    have hused := hp.used_eq_of_lt hlt
    have hle := hp.used_le
    have hbalance := hinv.balance
    have hsub : subU32 s.left len = s.left - len := subU32_of_le hle (by omega)
    obtain ⟨hbelow, hapart⟩ := hinv.records hp hlt
    constructor
    case header =>
      by_cases hend : subU32 s.left len = 0
      · exact Or.inl hend
      · right
        refine .tail hheader ⟨?_, ?_, ?_⟩
        · rwa [← hp.location_eq]
        · rw [hused]
        · dsimp only
          omega
    case balance =>
      dsimp only
      omega
    case rounds =>
      have hthree := three_le_headerSize data s.off
      have hrounds := hinv.rounds
      have hsize : headerSize data s.off ≤ declaredSize data s.off := by
        unfold declaredSize
        omega
      dsimp only
      omega
    case below => exact hbelow
    case apart => exact hapart

theorem ParserInv.run (hinv : ParserInv data n s) (hfit : SizesFit data n) (hn : n < 2 ^ 32)
    (hrun : ParserRun memo data s s') : ParserInv data n s' := by
  induction hrun with
  | refl => exact hinv
  | tail _ hstep ih => exact ih.step hfit hn hstep

theorem ParserStep.records_subset (hstep : ParserStep memo data s s') :
    ∀ p ∈ s.msg.record, p ∈ s'.msg.record := by
  cases hstep with
  | next _ hparse =>
    obtain ⟨r, -, -, -, rfl⟩ := parseNext_eq_ok hparse
    exact fun p hp => List.mem_append_left _ hp

theorem ParserRun.records_subset (hrun : ParserRun memo data s s') :
    ∀ p ∈ s.msg.record, p ∈ s'.msg.record := by
  induction hrun with
  | refl => exact fun _ hp => hp
  | tail _ hstep ih => exact fun p hp => hstep.records_subset p (ih p hp)

theorem ParsedAt.lt_of_inside {off len used : Nat} {p : ParsedRecord} {location : Location}
    (hp : ParsedAt data off len p location used) (hn : n < 2 ^ 32)
    (hinside : ∀ i, p.Covers i → i < n) : declaredSize data off < 2 ^ 32 := by
  by_contra hwrap
  have := hinside _ (hp.covers_last (by omega))
  omega

theorem ParserRun.sizes {out : ParsedMsg} {location : Location} {len : Nat}
    (hrun : ParserRun memo data s s')
    (hlast : parseNext memo data s'.msg s'.k s'.off s'.left = .ok (out, location, len))
    (hfinal : location = .last ∨ location = .lone) (hn : n < 2 ^ 32)
    (hinside : ∀ p ∈ out.record, ∀ i, p.Covers i → i < n) :
    ∀ off, ReflTransGen (NextHeader data n) s.off off → declaredSize data off < 2 ^ 32 := by
  obtain ⟨r, hr, -, -, hout⟩ := parseNext_eq_ok hlast
  have hsubset : ∀ p ∈ s'.msg.record, p ∈ out.record := by
    rw [hout]
    exact fun p hp => List.mem_append_left _ hp
  induction hrun using ReflTransGen.head_induction_on with
  | refl =>
    have hp := recordParse_parsedAt hr
    have hlt : declaredSize data s'.off < 2 ^ 32 := by
      apply hp.lt_of_inside hn
      apply hinside
      rw [hout]
      exact List.mem_append_right _ (List.mem_singleton_self _)
    intro off hoff
    rcases ReflTransGen.cases_head hoff with rfl | ⟨off', hnext, -⟩
    · exact hlt
    · exact absurd (hp.location_eq ▸ hfinal) hnext.1
  | @head s s₁ hstep hrest ih =>
    have hsub₁ := ParserRun.records_subset hrest
    cases hstep with
    | @next msg location₁ len₁ hleft hparse hmore hroom =>
      obtain ⟨r₁, hr₁, -, -, rfl⟩ := parseNext_eq_ok hparse
      have hp := recordParse_parsedAt hr₁
      have hlt : declaredSize data s.off < 2 ^ 32 := by
        apply hp.lt_of_inside hn
        apply hinside
        apply hsubset
        apply hsub₁
        exact List.mem_append_right _ (List.mem_singleton_self _)
      intro off hoff
      rcases ReflTransGen.cases_head hoff with rfl | ⟨off', hnext, hoff'⟩
      · exact hlt
      · apply ih
        dsimp only
        rw [hp.used_eq_of_lt hlt, ← hnext.2.1]
        exact hoff'

/-- A parser that succeeds stays inside its input exactly when the declared sizes fit. A round takes
at least three bytes exactly when the size that its header declares keeps them modulo 2^32, and
when all sizes fit the loop has at most a round for every three bytes. -/
theorem msgParserInternal_contained_iff (memo : Nat → ParsedRecord) (maxRecordCount : Nat)
    (data : Memory) (n : Nat) (hn : n < 2 ^ 32) :
    (∀ msg consumed, msgParserInternal memo ⟨[], maxRecordCount⟩ data n = .ok (msg, consumed) →
      (Contained n msg.record consumed ↔ SizesFit data n)) ∧
    (∀ s, ParserRun memo data (.start maxRecordCount n) s → ∀ r location len,
      recordParse (memo s.k) data s.off s.left = .ok (r, location, len) →
        (3 ≤ len ↔ declaredSize data s.off < 2 ^ 32 ∨ 3 ≤ declaredSize data s.off % 2 ^ 32)) ∧
    (SizesFit data n → ∀ s, ParserRun memo data (.start maxRecordCount n) s →
      3 * s.k + s.left ≤ n) := by
  refine ⟨?_, ?_, ?_⟩
  · intro msg consumed h
    obtain ⟨s, location, len, hrun, hlast, hfinal, hconsumed⟩ :=
      msgParserLoop_run (s := .start maxRecordCount n) h
    constructor
    · intro hcontained
      exact ParserRun.sizes hrun hlast hfinal hn hcontained.inside
    · intro hfit
      have hinv := (ParserInv.start data maxRecordCount n).run hfit hn hrun
      obtain ⟨r, hr, -, -, rfl⟩ := parseNext_eq_ok hlast
      have hp := recordParse_parsedAt hr
      have hthree := three_le_headerSize data s.off
      by_cases hleft : s.left = 0
      · -- No record fits into nothing.
        unfold recordParse at hr
        simp only [bind_eq_ok] at hr
        obtain ⟨u, hsize, -⟩ := hr
        have := checkSize_eq_ok hsize
        unfold payloadLenShortSize at this
        omega
      have hlt := hfit s.off (hinv.header.resolve_left hleft)
      obtain ⟨hbelow, hapart⟩ := hinv.records hp hlt
      have hle := hp.used_le
      have hbalance := hinv.balance
      have hsub : subU32 s.left len = s.left - len := subU32_of_le hle (by omega)
      constructor
      case inside =>
        intro p hpmem i hi
        have := hbelow p hpmem i hi
        omega
      case apart => exact hapart
      case consumed_le =>
        rw [hconsumed, hsub, subU32_of_le (by omega) hn]
        omega
  · intro s hrun r location len hr
    have hused := (recordParse_parsedAt hr).used_eq
    have hthree := three_le_headerSize data s.off
    have hsize : headerSize data s.off ≤ declaredSize data s.off := by
      unfold declaredSize
      omega
    omega
  · intro hfit s hrun
    have hinv := (ParserInv.start data maxRecordCount n).run hfit hn hrun
    have hbalance := hinv.balance
    have hrounds := hinv.rounds
    omega

end Bounds

private def blankRecord (_k : Nat) : ParsedRecord := ⟨.empty, 0, none, 0, none, 0, none⟩

private def shortRecord : Memory := [0xD1, 0x01, 0x01, 0x54, 0x78]

private theorem shortRecord_parse : msgParserInternal blankRecord ⟨[], 1⟩ shortRecord 5 =
    .ok (⟨[⟨.wellKnown, 1, some 3, 0, none, 1, some 4⟩], 1⟩, 5) := by
  have hparse : parseNext blankRecord shortRecord ⟨[], 1⟩ 0 0 5 =
      .ok (⟨[⟨.wellKnown, 1, some 3, 0, none, 1, some 4⟩], 1⟩, .lone, 5) := by rfl
  unfold msgParserInternal
  rw [msgParserLoop_next 5 (by decide) hparse]
  rfl

private theorem shortRecord_sizesFit : SizesFit shortRecord 5 := by
  intro off hoff
  rcases ReflTransGen.cases_head hoff with rfl | ⟨off', hnext, -⟩
  · decide
  · exact absurd (Or.inr rfl) hnext.1

theorem shortRecord_contained : ∃ msg consumed,
    msgParserInternal blankRecord ⟨[], 1⟩ shortRecord 5 = .ok (msg, consumed) ∧
      Contained 5 msg.record consumed :=
  ⟨_, _, shortRecord_parse,
    ((msgParserInternal_contained_iff _ 1 shortRecord 5 (by decide)).1 _ _ shortRecord_parse).mpr
      shortRecord_sizesFit⟩

private def wrappedRecord : Memory := [0xC1, 0x00, 0xFF, 0xFF, 0xFF, 0xFF]

theorem wrappedRecord_not_contained : ∃ msg consumed,
    msgParserInternal blankRecord ⟨[], 1⟩ wrappedRecord 6 = .ok (msg, consumed) ∧
      ¬ Contained 6 msg.record consumed := by
  obtain ⟨⟨msg, location, len⟩, hparse, hcheck⟩ := exists_of_returnsWith
    (x := parseNext blankRecord wrappedRecord ⟨[], 1⟩ 0 0 6)
    (fun r => decide (r.1.record = [⟨.wellKnown, 0, none, 0, none, 4294967295, some 6⟩] ∧
      r.2.1 = .lone)) (by decide)
  obtain ⟨hrecord, hlone⟩ := of_decide_eq_true hcheck
  refine ⟨msg, subU32 6 (subU32 6 len), ?_, ?_⟩
  · unfold msgParserInternal
    rw [msgParserLoop_next 6 (by decide) hparse, if_pos (Or.inr hlone)]
  · intro hcontained
    have hcovers : ParsedRecord.Covers ⟨.wellKnown, 0, none, 0, none, 4294967295, some 6⟩ 6 :=
      Or.inr (Or.inr ⟨6, rfl, by decide, by decide⟩)
    have hlt := hcontained.inside _ (hrecord ▸ List.mem_singleton_self _) 6 hcovers
    omega

end SdkNrf.Ndef
