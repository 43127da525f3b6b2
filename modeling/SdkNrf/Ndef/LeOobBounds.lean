import SdkNrf.Framework.Accesses
import SdkNrf.Ndef.LeOobRoundTrip

/-!
# Accesses of the LE OOB parser

One round of the loop of `nfc_ndef_le_oob_rec_payload_parse`, with what it reads from the payload
and writes to the result buffer.
-/

namespace SdkNrf.Ndef

open Relation

/-- The loop between two rounds: `index`, the descriptor with the bytes handed out, and the offset at
which `le_sc_data` points. -/
structure AdState where
  index : Nat
  parser : LeOobState
  scData : Nat

section Round

variable (abi : LeOobAbi) (scInit : ScData) (payload : Memory) (payloadLen : Nat)

/-- A field of `size` fresh bytes: the pointer is stored, then the bytes if there is memory and the data
has the expected length. -/
def AdState.freshField (s : AdState) (used size pos dataLen : Nat) : List Access :=
  .write 0 abi.recDescSize ::
    if s.parser.size - s.parser.len < size ∨ dataLen ≠ size then []
    else [.read pos used, .write s.parser.len size]

/-- One of the two values of LE Secure Connections, `off` bytes from the start of the structure. -/
def AdState.scField (s : AdState) (off pos dataLen : Nat) : List Access :=
  if s.parser.desc.leScData.isSome then
    if dataLen ≠ 16 then [] else [.read pos 16, .write (s.scData + off) 16]
  else .write 0 abi.recDescSize ::
    if s.parser.size - s.parser.len < 32 ∨ dataLen ≠ 16 then []
    else [.read pos 16, .write (s.parser.len + off) 16]

def AdState.nameField (s : AdState) (pos dataLen : Nat) : List Access :=
  if s.parser.size - s.parser.len < dataLen + 1 then []
  else [.read pos dataLen, .write s.parser.len (dataLen + 1), .write 0 abi.recDescSize]

def AdState.fieldAccesses (s : AdState) (type : UInt8) (pos dataLen : Nat) : List Access :=
  if type = btDataLeBtDeviceAddress then s.freshField abi 7 7 pos dataLen
  else if type = btDataLeRole then s.freshField abi 1 abi.leRoleSize pos dataLen
  else if type = btDataSmTkValue then s.freshField abi 16 16 pos dataLen
  else if type = btDataLeScConfirmValue then s.scField abi 16 pos dataLen
  else if type = btDataLeScRandomValue then s.scField abi 0 pos dataLen
  else if type = btDataGapAppearance then s.freshField abi 2 2 pos dataLen
  else if type = btDataFlags then s.freshField abi 1 1 pos dataLen
  else if type = btDataNameShortened ∨ type = btDataNameComplete then s.nameField abi pos dataLen
  else []

def AdState.adLen (s : AdState) : UInt8 := payload.getD s.index 0

def AdState.adType (s : AdState) : UInt8 := payload.getD (s.index + 1) 0

/-- `ad_data_len`, a `uint8_t`. -/
def AdState.adDataLen (s : AdState) : Nat := (s.adLen payload - 1).toNat

def AdState.badLength (s : AdState) : Bool :=
  s.adLen payload = 1 ∨ payloadLen < addU32 (s.index + 1) (s.adLen payload).toNat

def AdState.round (s : AdState) : Except Errno AdState :=
  if s.badLength payload payloadLen then .error .EINVAL
  else do
    let pos := addU32 (s.index + 1) 1
    let parser ← s.parser.decode abi scInit (s.adType payload) (payload.slice pos (s.adDataLen payload))
      (s.adDataLen payload)
    return { index := addU32 (s.index + 1) (s.adLen payload).toNat, parser
             scData := if s.parser.desc.leScData.isSome then s.scData else s.parser.len }

def AdState.accesses (s : AdState) : List Access :=
  .read s.index 1 :: if s.badLength payload payloadLen then []
    else .read (s.index + 1) 1 ::
      s.fieldAccesses abi (s.adType payload) (addU32 (s.index + 1) 1) (s.adDataLen payload)

def AdStep (s s' : AdState) : Prop := s.index < payloadLen ∧ s.round abi scInit payload payloadLen = .ok s'

end Round

def leOobStart (abi : LeOobAbi) (resultBufLen : Nat) : Except Errno AdState := do
  let parser ← LeOobState.allocate ⟨.empty, 0, resultBufLen % 2 ^ abi.netBufBits⟩ abi.recDescSize
  return ⟨0, parser, 0⟩

section Refinement

variable {abi : LeOobAbi} {scInit : ScData} {payload : Memory} {n resultBufLen : Nat} {s s' : AdState}

theorem toNat_adLen_lt (payload : Memory) (s : AdState) : (s.adLen payload).toNat < 256 := UInt8.toNat_lt _

theorem addU32_adLen (hn : n + 255 < 2 ^ 32) (hlt : s.index < n) :
    addU32 (s.index + 1) (s.adLen payload).toNat = s.index + 1 + (s.adLen payload).toNat := by
  have := toNat_adLen_lt payload s
  exact Nat.mod_eq_of_lt (by omega)

theorem badLength_iff (hn : n + 255 < 2 ^ 32) (hlt : s.index < n) :
    s.badLength payload n = true ↔
      s.adLen payload = 1 ∨ n < s.index + 1 + (s.adLen payload).toNat := by
  rw [AdState.badLength, addU32_adLen hn hlt, decide_eq_true_eq]

end Refinement

theorem LeOobState.allocate_eq_ok {s s' : LeOobState} {n : Nat} :
    s.allocate n = .ok s' ↔ n ≤ s.size - s.len ∧ s' = { s with len := s.len + n } := by
  unfold allocate
  split
  next h => simpa using fun hle => absurd h (not_lt.mpr hle)
  next h => simp [not_lt.mp h, eq_comm]

structure LeOobState.Extends (s s' : LeOobState) : Prop where
  size : s'.size = s.size
  len : s.len ≤ s'.len
  fits : s.len ≤ s.size → s'.len ≤ s'.size
  scData : s'.desc.leScData.isSome → s.desc.leScData.isSome ∨ s.len + 32 ≤ s'.len

namespace LeOobState.Extends

variable {abi : LeOobAbi} {scInit : ScData} {s s' : LeOobState}

theorem refl (s : LeOobState) : Extends s s := ⟨rfl, le_rfl, id, Or.inl⟩

theorem field {n : Nat} {desc : LeOobDesc} (h : s.allocate n = .ok s')
    (hdesc : desc.leScData = s'.desc.leScData) : Extends s { s' with desc } := by
  rw [allocate_eq_ok] at h
  obtain ⟨hn, rfl⟩ := h
  refine ⟨rfl, Nat.le_add_right _ _, fun hs => ?_, fun hsome => .inl ?_⟩
  · show s.len + n ≤ s.size
    omega
  · rwa [← hdesc]

theorem scField {sc : ScData} {desc : LeOobDesc} (h : s.scAllocate scInit = .ok (sc, s')) :
    Extends s { s' with desc } := by
  unfold scAllocate at h
  split at h
  next hsc =>
    cases h
    exact ⟨rfl, le_rfl, id, fun _ => .inl (by rw [hsc]; rfl)⟩
  next hsc =>
    simp only [bind_eq_ok, pure_eq_ok, Prod.mk.injEq, allocate_eq_ok] at h
    obtain ⟨s₁, ⟨hn, rfl⟩, rfl, rfl⟩ := h
    refine ⟨rfl, Nat.le_add_right _ _, fun hs => ?_, fun _ => .inr le_rfl⟩
    show s.len + 32 ≤ s.size
    omega

theorem decode {type : UInt8} {data : List UInt8} {dataLen : Nat}
    (h : s.decode abi scInit type data dataLen = .ok s') : Extends s s' := by
  have plain {α : Type} {n : Nat} {x : Except Errno α} {set : LeOobState → α → LeOobState}
      (h : (s.allocate n >>= fun s => x >>= fun value => pure (set s value)) = .ok s')
      (hset : ∀ s value, ∃ desc, set s value = { s with desc } ∧ desc.leScData = s.desc.leScData) :
      Extends s s' := by
    simp only [bind_eq_ok, pure_eq_ok] at h
    obtain ⟨s₁, halloc, value, -, rfl⟩ := h
    obtain ⟨desc, hdesc, hsc⟩ := hset s₁ value
    rw [hdesc]
    exact field halloc hsc
  unfold LeOobState.decode at h
  split at h
  · exact plain h fun _ _ => ⟨_, rfl, rfl⟩
  split at h
  · exact plain h fun _ _ => ⟨_, rfl, rfl⟩
  split at h
  · exact plain h fun _ _ => ⟨_, rfl, rfl⟩
  split at h
  · simp only [bind_eq_ok, pure_eq_ok, Prod.exists] at h
    obtain ⟨sc, s₁, halloc, value, -, rfl⟩ := h
    exact scField halloc
  split at h
  · simp only [bind_eq_ok, pure_eq_ok, Prod.exists] at h
    obtain ⟨sc, s₁, halloc, value, -, rfl⟩ := h
    exact scField halloc
  split at h
  · exact plain h fun _ _ => ⟨_, rfl, rfl⟩
  split at h
  · exact plain h fun _ _ => ⟨_, rfl, rfl⟩
  split at h
  · simp only [bind_eq_ok, pure_eq_ok] at h
    obtain ⟨s₁, halloc, rfl⟩ := h
    exact field halloc rfl
  · cases h
    exact refl s

end LeOobState.Extends

structure AdInv (abi : LeOobAbi) (resultBufLen : Nat) (s : AdState) : Prop where
  desc : abi.recDescSize ≤ s.parser.len
  len : s.parser.len ≤ s.parser.size
  size : s.parser.size ≤ resultBufLen
  scData : s.parser.desc.leScData.isSome → s.scData + 32 ≤ s.parser.len

section Invariant

variable {abi : LeOobAbi} {scInit : ScData} {payload : Memory} {n resultBufLen : Nat}
  {s₀ s s' : AdState}

theorem AdInv.start (h : leOobStart abi resultBufLen = .ok s₀) : AdInv abi resultBufLen s₀ := by
  simp only [leOobStart, bind_eq_ok, pure_eq_ok, LeOobState.allocate_eq_ok] at h
  obtain ⟨parser, ⟨hn, rfl⟩, rfl⟩ := h
  have hsize : resultBufLen % 2 ^ abi.netBufBits ≤ resultBufLen := Nat.mod_le _ _
  refine ⟨by simp, ?_, hsize, fun hsome => ?_⟩
  · simpa using hn
  · cases hsome

theorem AdInv.step (hinv : AdInv abi resultBufLen s) (h : AdStep abi scInit payload n s s') :
    AdInv abi resultBufLen s' := by
  obtain ⟨-, h⟩ := h
  rw [AdState.round] at h
  split at h
  · cases h
  simp only [bind_eq_ok, pure_eq_ok] at h
  obtain ⟨parser, hdecode, rfl⟩ := h
  have hext := LeOobState.Extends.decode hdecode
  refine ⟨hinv.desc.trans hext.len, hext.fits hinv.len, hext.size ▸ hinv.size, fun hsome => ?_⟩
  dsimp only at hsome ⊢
  split
  next hold => exact (hinv.scData hold).trans hext.len
  next hnew => exact (hext.scData hsome).resolve_left hnew

theorem AdInv.run (hinv : AdInv abi resultBufLen s₀)
    (hrun : ReflTransGen (AdStep abi scInit payload n) s₀ s) : AdInv abi resultBufLen s := by
  induction hrun with
  | refl => exact hinv
  | tail _ hstep ih => exact ih.step hstep

end Invariant

def isNameType (type : UInt8) : Bool := type = btDataNameShortened ∨ type = btDataNameComplete

/-- The index does not wrap, and behind a length byte of 0 there is a type, and behind the type of a
name 255 bytes if there is memory for them. -/
def AdState.RoundOk (payload : Memory) (n : Nat) (s : AdState) : Prop :=
  s.index + 1 + (s.adLen payload).toNat < 2 ^ 32 ∧
    (s.adLen payload = 0 → s.index + 1 < n ∧
      (isNameType (s.adType payload) = true → 256 ≤ s.parser.size - s.parser.len →
        s.index + 2 + 255 ≤ n))

theorem nameAccesses {abi : LeOobAbi} {s : AdState} {type : UInt8} (h : isNameType type = true)
    {pos dataLen : Nat} : s.fieldAccesses abi type pos dataLen = s.nameField abi pos dataLen := by
  have hcases : type = btDataNameShortened ∨ type = btDataNameComplete := of_decide_eq_true h
  unfold AdState.fieldAccesses
  rcases hcases with rfl | rfl
  · rw [if_neg (by decide), if_neg (by decide), if_neg (by decide), if_neg (by decide),
      if_neg (by decide), if_neg (by decide), if_neg (by decide), if_pos (.inl rfl)]
  · rw [if_neg (by decide), if_neg (by decide), if_neg (by decide), if_neg (by decide),
      if_neg (by decide), if_neg (by decide), if_neg (by decide), if_pos (.inr rfl)]

section Bounds

variable {abi : LeOobAbi} {scInit : ScData} {payload : Memory} {n resultBufLen : Nat} {s : AdState}
  {pos dataLen : Nat}

theorem freshField_inside (hinv : AdInv abi resultBufLen s) {used size : Nat} (hused : used ≤ size)
    (hsize : size ≠ 255) (hdata : dataLen ≠ 255 → pos + dataLen ≤ n) :
    AllInside n resultBufLen (s.freshField abi used size pos dataLen) := by
  have hdesc := hinv.desc
  have hlen := hinv.len
  have hbuf := hinv.size
  rw [AdState.freshField, AllInside.cons]
  refine ⟨.inr (by omega), ?_⟩
  split
  · exact .nil
  next h =>
    rw [not_or, not_not] at h
    have := hdata (by omega)
    simp only [AllInside.cons, AllInside.nil, and_true]
    exact ⟨.inr (by omega), .inr (by omega)⟩

theorem scField_inside (hinv : AdInv abi resultBufLen s) {off : Nat} (hoff : off ≤ 16)
    (hdata : dataLen ≠ 255 → pos + dataLen ≤ n) :
    AllInside n resultBufLen (s.scField abi off pos dataLen) := by
  have hdesc := hinv.desc
  have hlen := hinv.len
  have hbuf := hinv.size
  rw [AdState.scField]
  split
  next hsome =>
    have hsc := hinv.scData hsome
    split
    · exact .nil
    next h =>
      rw [not_not] at h
      have := hdata (by omega)
      simp only [AllInside.cons, AllInside.nil, and_true]
      exact ⟨.inr (by omega), .inr (by omega)⟩
  next =>
    rw [AllInside.cons]
    refine ⟨.inr (by omega), ?_⟩
    split
    · exact .nil
    next h =>
      rw [not_or, not_not] at h
      have := hdata (by omega)
      simp only [AllInside.cons, AllInside.nil, and_true]
      exact ⟨.inr (by omega), .inr (by omega)⟩

theorem nameField_inside (hinv : AdInv abi resultBufLen s)
    (hdata : dataLen + 1 ≤ s.parser.size - s.parser.len → pos + dataLen ≤ n) :
    AllInside n resultBufLen (s.nameField abi pos dataLen) := by
  have hdesc := hinv.desc
  have hlen := hinv.len
  have hbuf := hinv.size
  rw [AdState.nameField]
  split
  · exact .nil
  next h =>
    have := hdata (by omega)
    simp only [AllInside.cons, AllInside.nil, and_true]
    exact ⟨.inr (by omega), .inr (by omega), .inr (by omega)⟩

theorem fieldAccesses_inside (habi : abi.leRoleSize ≤ 8) (hinv : AdInv abi resultBufLen s)
    {type : UInt8} (hpos : dataLen ≠ 0) (hdata : dataLen ≠ 255 → pos + dataLen ≤ n)
    (hname : isNameType type = true → dataLen + 1 ≤ s.parser.size - s.parser.len →
      pos + dataLen ≤ n) :
    AllInside n resultBufLen (s.fieldAccesses abi type pos dataLen) := by
  unfold AdState.fieldAccesses
  split
  · exact freshField_inside hinv le_rfl (by omega) hdata
  split
  · by_cases hrole : abi.leRoleSize = 0
    · rw [AdState.freshField, hrole, if_pos (.inr hpos), AllInside.cons]
      have := hinv.desc
      have := hinv.len
      have := hinv.size
      exact ⟨.inr (by omega), .nil⟩
    · exact freshField_inside hinv (by omega) (by omega) hdata
  split
  · exact freshField_inside hinv le_rfl (by omega) hdata
  split
  · exact scField_inside hinv le_rfl hdata
  split
  · exact scField_inside hinv (by omega) hdata
  split
  · exact freshField_inside hinv le_rfl (by omega) hdata
  split
  · exact freshField_inside hinv le_rfl (by omega) hdata
  split
  next h => exact nameField_inside hinv (hname (decide_eq_true h))
  next => exact .nil

theorem adDataLen_cases (payload : Memory) (s : AdState) (h : s.adLen payload ≠ 1) :
    s.adLen payload = 0 ∧ s.adDataLen payload = 255 ∨
      2 ≤ (s.adLen payload).toNat ∧ s.adDataLen payload + 1 = (s.adLen payload).toNat := by
  rw [AdState.adDataLen]
  generalize s.adLen payload = b at h ⊢
  by_cases hb : b = 0
  · subst hb
    exact .inl ⟨rfl, rfl⟩
  · have hpos : b.toNat ≠ 0 := fun h0 => hb (UInt8.toNat_inj.mp h0)
    have hone : b.toNat ≠ 1 := fun h1 => h (UInt8.toNat_inj.mp h1)
    have hle : (1 : UInt8) ≤ b := by
      rw [UInt8.le_iff_toNat_le]
      show 1 ≤ b.toNat
      omega
    rw [UInt8.toNat_sub_of_le _ _ hle]
    right
    show 2 ≤ b.toNat ∧ b.toNat - 1 + 1 = b.toNat
    omega

theorem accesses_inside (habi : abi.leRoleSize ≤ 8) (hinv : AdInv abi resultBufLen s)
    (hn : n < 2 ^ 32) (hlt : s.index < n) (hok : s.RoundOk payload n) :
    AllInside n resultBufLen (s.accesses abi payload n) := by
  obtain ⟨hwrap, hzero⟩ := hok
  rw [AdState.accesses, AllInside.cons]
  refine ⟨.inr (by omega), ?_⟩
  split
  · exact .nil
  next hbad =>
    have hsum : addU32 (s.index + 1) (s.adLen payload).toNat =
      s.index + 1 + (s.adLen payload).toNat := Nat.mod_eq_of_lt hwrap
    rw [AdState.badLength, hsum, decide_eq_true_eq, not_or, not_lt] at hbad
    obtain ⟨hone, hle⟩ := hbad
    rw [AllInside.cons]
    rcases adDataLen_cases payload s hone with ⟨hz, hdata⟩ | ⟨htwo, hdata⟩
    · obtain ⟨htype, hname⟩ := hzero hz
      have hpos : addU32 (s.index + 1) 1 = s.index + 2 := Nat.mod_eq_of_lt (by omega)
      rw [hpos, hdata]
      exact ⟨.inr (by omega), fieldAccesses_inside habi hinv (by omega) (by omega) hname⟩
    · have hpos : addU32 (s.index + 1) 1 = s.index + 2 := Nat.mod_eq_of_lt (by omega)
      rw [hpos]
      exact ⟨.inr (by omega), fieldAccesses_inside habi hinv (by omega) (fun _ => by omega)
        fun _ _ => by omega⟩

end Bounds

/-- Every access of the parser is inside, and the loop ends. -/
structure LeOobSafe (abi : LeOobAbi) (scInit : ScData) (payload : Memory) (n resultBufLen : Nat) :
    Prop where
  clear : ∀ s₀, leOobStart abi resultBufLen = .ok s₀ →
    (Access.write 0 abi.recDescSize).Inside n resultBufLen
  rounds : ∀ s₀, leOobStart abi resultBufLen = .ok s₀ →
    ∀ s, ReflTransGen (AdStep abi scInit payload n) s₀ s → s.index < n →
      AllInside n resultBufLen (s.accesses abi payload n)
  ends : ∀ s₀, leOobStart abi resultBufLen = .ok s₀ →
    ¬ ∃ f : Nat → AdState, f 0 = s₀ ∧ ∀ i, AdStep abi scInit payload n (f i) (f (i + 1))

def RoundsOk (abi : LeOobAbi) (scInit : ScData) (payload : Memory) (n resultBufLen : Nat) : Prop :=
  ∀ s₀, leOobStart abi resultBufLen = .ok s₀ →
    ∀ s, ReflTransGen (AdStep abi scInit payload n) s₀ s → s.index < n → s.RoundOk payload n

section Loop

variable {abi : LeOobAbi} {scInit : ScData} {payload : Memory} {n resultBufLen : Nat} {s s' : AdState}

theorem AdStep.index_lt (h : AdStep abi scInit payload n s s') (hok : s.RoundOk payload n) :
    s.index < s'.index := by
  obtain ⟨-, h⟩ := h
  rw [AdState.round] at h
  split at h
  · cases h
  simp only [bind_eq_ok, pure_eq_ok] at h
  obtain ⟨parser, -, rfl⟩ := h
  have hsum : addU32 (s.index + 1) (s.adLen payload).toNat = s.index + 1 + (s.adLen payload).toNat :=
    Nat.mod_eq_of_lt hok.1
  show s.index < addU32 (s.index + 1) (s.adLen payload).toNat
  omega

theorem reaches (f : Nat → AdState) (hf : ∀ i, AdStep abi scInit payload n (f i) (f (i + 1))) (i : Nat) :
    ReflTransGen (AdStep abi scInit payload n) (f 0) (f i) := by
  induction i with
  | zero => exact .refl
  | succ i ih => exact ih.tail (hf i)

/-- The accesses of a parser whose rounds all meet the condition are inside and its loop ends, and only
those of such a parser are where the index has room behind the payload. -/
theorem leOobSafe_iff (scInit : ScData) (payload : Memory) (resultBufLen : Nat)
    (habi : abi.leRoleSize ≤ 8) (hn : n < 2 ^ 32) :
    (RoundsOk abi scInit payload n resultBufLen → LeOobSafe abi scInit payload n resultBufLen) ∧
      (n + 255 < 2 ^ 32 → LeOobSafe abi scInit payload n resultBufLen →
        RoundsOk abi scInit payload n resultBufLen) := by
  constructor
  · intro hok
    refine ⟨fun s₀ h₀ => ?_, fun s₀ h₀ s hrun hlt => ?_, fun s₀ h₀ hloop => ?_⟩
    · have hinv := AdInv.start h₀
      have := hinv.desc
      have := hinv.len
      have := hinv.size
      exact .inr (by omega)
    · exact accesses_inside habi ((AdInv.start h₀).run hrun) hn hlt (hok s₀ h₀ s hrun hlt)
    · obtain ⟨f, rfl, hf⟩ := hloop
      have hindex (i : Nat) : i ≤ (f i).index := by
        induction i with
        | zero => exact Nat.zero_le _
        | succ i ih =>
          have := (hf i).index_lt (hok _ h₀ _ (reaches f hf i) (hf i).1)
          omega
      have := (hf n).1
      have := hindex n
      omega
  · intro hroom hsafe s₀ h₀ s hrun hlt
    have hbyte := toNat_adLen_lt payload s
    refine ⟨by omega, fun hzero => ?_⟩
    have hinside := hsafe.rounds s₀ h₀ s hrun hlt
    have hpos : addU32 (s.index + 1) 1 = s.index + 2 := Nat.mod_eq_of_lt (by omega)
    have hgood : ¬ s.badLength payload n = true := by
      rw [badLength_iff hroom hlt, hzero]
      have : (0 : UInt8).toNat = 0 := rfl
      rintro (h | h)
      · cases h
      · omega
    rw [AdState.accesses, if_neg hgood, AllInside.cons, AllInside.cons] at hinside
    obtain ⟨-, htype, hfield⟩ := hinside
    refine ⟨by rcases htype with h | h <;> omega, fun hname hmemory => ?_⟩
    have hdata : s.adDataLen payload = 255 := by
      rw [AdState.adDataLen, hzero]
      rfl
    rw [hpos, hdata, nameAccesses hname, AdState.nameField, if_neg (by omega), AllInside.cons] at hfield
    rcases hfield.1 with h | h <;> omega

end Loop

theorem flagsOnly_safe : LeOobSafe LeOobDesc.armLeOobAbi LeOobDesc.zeroScData [0x02, 0x01, 0x06] 3 64 := by
  refine (leOobSafe_iff LeOobDesc.zeroScData _ 64 (by decide) (by decide)).1 fun s₀ h₀ s hrun hlt => ?_
  have hstart : leOobStart LeOobDesc.armLeOobAbi 64 = .ok ⟨0, ⟨.empty, 28, 64⟩, 0⟩ := rfl
  rw [hstart, Except.ok.injEq] at h₀
  subst h₀
  rcases hrun.cases_head with rfl | ⟨s₁, hstep, hrest⟩
  · exact ⟨by decide, fun h => absurd h (by decide)⟩
  · have hindex : (AdState.round LeOobDesc.armLeOobAbi LeOobDesc.zeroScData [0x02, 0x01, 0x06] 3
        ⟨0, ⟨.empty, 28, 64⟩, 0⟩).map AdState.index = .ok 3 := by decide
    rw [hstep.2, Except.map, Except.ok.injEq] at hindex
    rcases hrest.cases_head with rfl | ⟨s₂, hstep₂, -⟩
    · omega
    · have := hstep₂.1
      omega

/-- The type behind a length byte of 0 at the end of the payload is read, and 255 bytes behind the type
of a name are. -/
theorem zeroLength_not_safe : ¬ LeOobSafe LeOobDesc.armLeOobAbi LeOobDesc.zeroScData [0x00] 1 64 ∧
    ¬ LeOobSafe LeOobDesc.armLeOobAbi LeOobDesc.zeroScData [0x00, 0x09] 2 512 := by
  constructor
  · intro h
    have := h.rounds ⟨0, ⟨.empty, 28, 64⟩, 0⟩ rfl _ .refl (by decide) (.read 1 1) (by decide)
    revert this
    decide
  · intro h
    have := h.rounds ⟨0, ⟨.empty, 28, 512⟩, 0⟩ rfl _ .refl (by decide) (.read 2 255)
      (by decide)
    revert this
    decide

end SdkNrf.Ndef
