import SdkNrf.Ndef.PayloadLengths

/-!
# The payload descriptors

Each constructor with its descriptor, nested handover records and whole messages: exactly when the
two passes agree.
-/

namespace SdkNrf.Ndef

namespace PayloadDesc

/-- The descriptors whose constructor stores what it reports: no collision resolution record, no
service select without a URI, and no text of 4 GiB. -/
def Sound : PayloadDesc → Prop
  | text desc => ∀ langCode ∈ desc.langCode, ∀ data ∈ desc.data,
      1 + langCode.val.length + data.val.length < 2 ^ 32
  | cr _ => False
  | tnepSvcSelect uri => uri.val ≠ []
  | ch _ _ _ _ _ payload => ∀ i, (payload i).Sound
  | _ => True

def HasCr : PayloadDesc → Prop
  | cr _ => True
  | ch _ _ _ _ _ payload => ∃ i, (payload i).HasCr
  | _ => False

end PayloadDesc

structure Behaves (construct : PayloadConstructor) (hasCr sound : Prop) : Prop where
  reports : Reports construct hasCr
  twoPass : sound → ∀ n, Accepts construct n → ∃ bytes, TwoPass construct bytes
  overruns : ¬ sound → ¬ hasCr → ∀ n, Accepts construct n → Overruns construct n

section Behaves

variable {construct : PayloadConstructor} {hasCr sound : Prop}

theorem Behaves.twoPass_iff (h : Behaves construct hasCr sound) {n : Nat}
    (hn : Accepts construct n) : (∃ bytes, TwoPass construct bytes) ↔ sound := by
  refine ⟨?_, fun hsound => h.twoPass hsound n hn⟩
  rintro ⟨bytes, hpass⟩
  by_contra hsound
  by_cases hhas : hasCr
  · obtain ⟨dry, -, hlt, hdry⟩ := h.reports.dryRun n hn
    have hlen := hdry 0
    rw [hpass.dryRun] at hlen
    cases hlen
    have := hlt hhas
    rw [hpass.eq_of_accepts hn] at this
    exact lt_irrefl _ this
  · exact hpass.not_overruns hn (h.overruns hsound hhas n hn)

theorem Behaves.of_sized (h : ∀ n, Accepts construct n → ∃ dry size bytes err,
      Sized construct dry size bytes err ∧ dry ≤ size ∧ (hasCr → dry < size) ∧
      (sound → dry = bytes.length ∧ size = bytes.length) ∧
      (¬ sound → ¬ hasCr → size < bytes.length)) : Behaves construct hasCr sound where
  reports := by
    constructor
    · intro mem len n hle hlt hok
      obtain ⟨dry, size, bytes, err, hsized, hdry, hcr, -⟩ := h n ⟨mem, len, hle, hlt, hok⟩
      exact (hsized.reports hdry hcr).ok mem len n hle hlt hok
    · intro n hn
      obtain ⟨dry, size, bytes, err, hsized, hdry, hcr, -⟩ := h n hn
      exact (hsized.reports hdry hcr).dryRun n hn
  twoPass := by
    intro hsound n hn
    obtain ⟨dry, size, bytes, err, hsized, -, -, hpass, -⟩ := h n hn
    exact ⟨bytes, hsized.twoPass (hpass hsound).1 (hpass hsound).2⟩
  overruns := by
    intro hsound hhas n hn
    obtain ⟨dry, size, bytes, err, hsized, -, -, -, hover⟩ := h n hn
    exact hsized.overruns hn (hover hsound hhas)

theorem Behaves.of_exact (bytes : List UInt8) (err : Errno)
    (h : ∀ n, Accepts construct n → Sized construct bytes.length bytes.length bytes err) :
    Behaves construct False True :=
  .of_sized fun n hn => ⟨_, _, bytes, err, h n hn, le_refl _, False.elim, fun _ => ⟨rfl, rfl⟩,
    fun hsound => absurd trivial hsound⟩

end Behaves

private theorem bin_sized (payload : List UInt8) :
    Sized (binPayloadMemcopy payload) payload.length payload.length payload .ENOSR :=
  ⟨fun _ => rfl, fun _ _ => rfl⟩

private theorem status_sized (status : UInt8) :
    Sized (tnepRecStatusPayload status) 1 1 [status] .ENOSR :=
  ⟨fun _ => rfl, fun _ _ => rfl⟩

private theorem hc_sized {hcRec : HcRec} {n : Nat} (hn : Accepts (chHcRecPayloadEncode hcRec) n) :
    Sized (chHcRecPayloadEncode hcRec) hcRec.payload.length hcRec.payload.length hcRec.payload
      .ENOMEM := by
  rw [hcRec.length_payload]
  refine ⟨fun _ => rfl, ?_⟩
  intro mem len
  obtain ⟨mem', len', -, -, hok⟩ := hn
  simp only [chHcRecPayloadEncode] at hok ⊢
  split at hok
  · cases hok
  · split at hok
    · cases hok
    next hctf => rw [if_neg hctf]

private theorem ac_sized {acRec : AcRec} {n : Nat} (hn : Accepts (chAcRecPayloadEncode acRec) n) :
    Sized (chAcRecPayloadEncode acRec) acRec.payload.length acRec.payload.length acRec.payload
      .ENOMEM := by
  rw [acRec.length_payload]
  refine ⟨fun _ => rfl, ?_⟩
  intro mem len
  obtain ⟨mem', len', -, -, hok⟩ := hn
  simp only [chAcRecPayloadEncode] at hok ⊢
  split at hok
  · cases hok
  · split at hok
    · cases hok
    next hcps => rw [if_neg hcps]

private theorem cr_sized (crRec : CrRec) :
    Sized (chCrRecPayloadEncode crRec) 0 2 crRec.payload .ENOMEM :=
  ⟨fun _ => rfl, fun _ _ => rfl⟩

private theorem select_sized (uri : ShortBytes) :
    Sized (tnepRecSvcSelectPayload uri) (tnepCalcSizeServiceSelect uri)
      (tnepCalcSizeServiceSelect uri) uri.field .ENOSR :=
  ⟨fun _ => rfl, fun _ _ => rfl⟩

private theorem select_behaves (uri : ShortBytes) :
    Behaves (tnepRecSvcSelectPayload uri) False (uri.val ≠ []) := by
  apply Behaves.of_sized
  intro n hn
  refine ⟨_, _, _, _, select_sized uri, le_refl _, False.elim, ?_, ?_⟩
  · intro hne
    have hlen : tnepCalcSizeServiceSelect uri = uri.field.length :=
      if_pos (Nat.ne_of_gt (List.length_pos_iff.mpr hne))
    exact ⟨hlen, hlen⟩
  · intro hnil
    rw [not_not] at hnil
    rw [tnepCalcSizeServiceSelect, if_neg (by rw [hnil]; exact not_not.mpr rfl), uri.length_field]
    omega

private theorem param_behaves (param : SvcParam) :
    Behaves (tnepRecSvcParamPayload param) False True := by
  cases huri : param.uri with
  | none =>
    apply Behaves.of_exact [] .ENOSR
    rintro n ⟨mem, len, -, -, hok⟩
    simp only [tnepRecSvcParamPayload, huri] at hok
    cases hok
  | some uri =>
    apply Behaves.of_exact (param.bytes uri) .ENOSR
    rintro n ⟨mem, len, -, -, hok⟩
    simp only [tnepRecSvcParamPayload, huri] at hok
    split at hok
    · cases hok
    next hvalid =>
      have hlen : tnepCalcSizeServiceParam uri = (param.bytes uri).length := by
        rw [tnepCalcSizeServiceParam, if_pos (fun h => hvalid (Or.inr h))]
        simp [SvcParam.bytes, be16]
      constructor
      · intro len
        simp only [tnepRecSvcParamPayload, huri, if_neg hvalid, hlen]
      · intro mem len
        simp only [tnepRecSvcParamPayload, huri, if_neg hvalid, hlen]

private theorem text_behaves (desc : TextPayload) :
    Behaves (textRecPayloadEncode desc) False (∀ langCode ∈ desc.langCode, ∀ data ∈ desc.data,
      1 + langCode.val.length + data.val.length < 2 ^ 32) := by
  apply Behaves.of_sized
  rintro n ⟨mem, len, -, -, hok⟩
  cases hlang : desc.langCode with
  | none =>
    simp only [textRecPayloadEncode, hlang] at hok
    cases hok
  | some langCode =>
    cases hdata : desc.data with
    | none =>
      simp only [textRecPayloadEncode, hlang, hdata] at hok
      cases hok
    | some data =>
      simp only [textRecPayloadEncode, hlang, hdata] at hok
      split at hok
      · cases hok
      next hvalid =>
        have hsized : Sized (textRecPayloadEncode desc) (textRecPayloadSizeGet langCode data.val)
            (textRecPayloadSizeGet langCode data.val) (textBytes desc.utf langCode data.val)
            .ENOSR := by
          constructor
          · intro len
            simp only [textRecPayloadEncode, hlang, hdata, if_neg hvalid]
          · intro mem len
            simp only [textRecPayloadEncode, hlang, hdata, if_neg hvalid]
        have hlen : (textBytes desc.utf langCode data.val).length =
            1 + langCode.val.length + data.val.length := by
          rw [textBytes, List.length_cons, List.length_append]
          omega
        refine ⟨_, _, _, _, hsized, le_refl _, False.elim, ?_, ?_⟩
        · intro hsound
          rw [hlen, textRecPayloadSizeGet, addU32_of_lt (hsound langCode rfl data rfl)]
          exact ⟨rfl, rfl⟩
        · intro hsound _
          have hge : 2 ^ 32 ≤ 1 + langCode.val.length + data.val.length := by
            by_contra hlt
            apply hsound
            intro langCode' hlang' data' hdata'
            cases hlang'
            cases hdata'
            omega
          rw [hlen, textRecPayloadSizeGet]
          exact Nat.lt_of_lt_of_le (Nat.mod_lt _ (Nat.two_pow_pos 32)) hge

section Message

variable {count : Nat} {head : Fin count → RecordHead} {construct : Fin count → PayloadConstructor}
  {hasCr sound : Fin count → Prop}

private def itemsOf (head : Fin count → RecordHead) (construct : Fin count → PayloadConstructor) :
    List MsgItem := List.ofFn fun i => ⟨head i, construct i⟩

private theorem mem_itemsOf {item : MsgItem} :
    item ∈ itemsOf head construct ↔ ∃ i, ⟨head i, construct i⟩ = item := List.mem_ofFn

private theorem record_msgDescOf (count_lt : count < 2 ^ 32) (head : Fin count → RecordHead)
    (construct : Fin count → PayloadConstructor) :
    (msgDescOf count_lt head construct).record =
      some ((itemsOf head construct).map MsgItem.desc) := by
  rw [itemsOf, List.map_ofFn]
  rfl

/-- Two records with one constructor may come from descriptors of which one has a collision resolution
record, so the property is stated of the constructor. -/
private theorem itemsOf_reports (head : Fin count → RecordHead)
    (h : ∀ i, Behaves (construct i) (hasCr i) (sound i)) :
    ∀ item ∈ itemsOf head construct,
      Reports item.construct (∃ i, ⟨head i, construct i⟩ = item ∧ hasCr i) := by
  intro item hitem
  obtain ⟨i, rfl⟩ := mem_itemsOf.mp hitem
  by_cases hstrict : ∃ j, (⟨head j, construct j⟩ : MsgItem) = ⟨head i, construct i⟩ ∧ hasCr j
  · obtain ⟨j, hj, hcr⟩ := hstrict
    rw [← hj]
    exact (h j).reports.mono fun _ => hcr
  · exact (h i).reports.mono fun hs => absurd hs hstrict

theorem msgEncode_behaves (uninit : Nat) (count_lt : count < 2 ^ 32) (head : Fin count → RecordHead)
    (h : ∀ i, Behaves (construct i) (hasCr i) (sound i)) :
    Behaves (msgEncode uninit (some (msgDescOf count_lt head construct))) (∃ i, hasCr i)
      (∀ i, sound i) := by
  have hmsg := record_msgDescOf count_lt head construct
  have hreports := itemsOf_reports head h
  constructor
  · apply (msgEncode_reports uninit hmsg hreports).mono
    rintro ⟨i, hi⟩
    exact ⟨_, mem_itemsOf.mpr ⟨i, rfl⟩, i, rfl, hi⟩
  · intro hsound n hn
    obtain ⟨run, hrun, haccepts, rfl, hlt⟩ := msgEncode_run hmsg hreports hn
    rw [← hrun] at hmsg
    obtain ⟨bytes, hpass, -⟩ := exists_msgEncode_twoPass uninit hmsg haccepts hlt fun p hp => by
      have hitem : p.1 ∈ itemsOf head construct := hrun ▸ List.mem_map_of_mem hp
      obtain ⟨i, hi⟩ := mem_itemsOf.mp hitem
      have haccept := haccepts p hp
      rw [← hi] at haccept ⊢
      exact (h i).twoPass (hsound i) p.2 haccept
    exact ⟨bytes, hpass⟩
  · intro hsound hhas n hn
    obtain ⟨run, hrun, haccepts, rfl, hlt⟩ := msgEncode_run hmsg hreports hn
    rw [← hrun] at hmsg
    apply msgEncode_overruns uninit hmsg haccepts hlt
    · intro p hp
      have hitem : p.1 ∈ itemsOf head construct := hrun ▸ List.mem_map_of_mem hp
      obtain ⟨i, hi⟩ := mem_itemsOf.mp hitem
      have haccept := haccepts p hp
      rw [← hi] at haccept ⊢
      by_cases hi : sound i
      · exact Or.inl ((h i).twoPass hi p.2 haccept)
      · exact Or.inr ((h i).overruns hi (fun hcr => hhas ⟨i, hcr⟩) p.2 haccept)
    · obtain ⟨i, hi⟩ := not_forall.mp hsound
      have hitem : (⟨head i, construct i⟩ : MsgItem) ∈ run.map Prod.fst := by
        rw [hrun]
        exact mem_itemsOf.mpr ⟨i, rfl⟩
      obtain ⟨p, hp, hpi⟩ := List.mem_map.mp hitem
      have haccept := haccepts p hp
      refine ⟨p, hp, ?_⟩
      rw [hpi] at haccept ⊢
      exact (h i).overruns hi (fun hcr => hhas ⟨i, hcr⟩) p.2 haccept

end Message

section Handover

variable {uninit : Nat} {chRec : ChRec} {strict : Prop} {n : Nat}

theorem Reports.ch_ok (h : Reports (msgEncode uninit chRec.localRecords) strict) {mem : Memory}
    {len : Nat} (hle : len ≤ mem.length) (hlt : len < 2 ^ 32)
    (hok : (chRecPayloadEncode uninit chRec (some mem) len).result = .ok n) :
    ∃ m mem', Accepts (msgEncode uninit chRec.localRecords) m ∧ n = m + 1 ∧ n ≤ len ∧
      mem.length ≤ mem'.length ∧
      chRecPayloadEncode uninit chRec (some mem) len = ⟨some mem', .ok n⟩ := by
  rcases Nat.eq_zero_or_pos len with rfl | hpos
  · cases hok
  rw [chRecPayloadEncode_some hpos] at hok ⊢
  cases hresult : (msgEncode uninit chRec.localRecords (some (mem.drop 1)) (len - 1)).result with
  | error err =>
    rw [hresult] at hok
    cases hok
  | ok m =>
    have hdrop : (mem.drop 1).length = mem.length - 1 := List.length_drop
    obtain ⟨mem', hmsg, hlen, hm⟩ := h.ok _ _ m (by omega) (by omega) hresult
    have hn : n = m + 1 := by
      rw [hresult] at hok
      cases hok
      exact addU32_of_lt (by omega)
    refine ⟨m, chRec.version :: mem', ⟨_, _, by omega, by omega, hresult⟩, hn, by omega, ?_, ?_⟩
    · rw [List.length_cons]
      omega
    · rw [hmsg, hn, ← addU32_of_lt (by omega : m + 1 < 2 ^ 32)]
      rfl

theorem Reports.ch_accepts (h : Reports (msgEncode uninit chRec.localRecords) strict)
    (hn : Accepts (chRecPayloadEncode uninit chRec) n) :
    ∃ m, Accepts (msgEncode uninit chRec.localRecords) m ∧ n = m + 1 ∧ n < 2 ^ 32 := by
  obtain ⟨mem, len, hle, hlt, hok⟩ := hn
  obtain ⟨m, mem', hm, hn, hnle, -⟩ := h.ch_ok hle hlt hok
  exact ⟨m, hm, hn, by omega⟩

theorem Reports.ch (h : Reports (msgEncode uninit chRec.localRecords) strict) :
    Reports (chRecPayloadEncode uninit chRec) strict where
  ok mem len n hle hlt hok := by
    obtain ⟨m, mem', -, -, hnle, hlen, hch⟩ := h.ch_ok hle hlt hok
    exact ⟨mem', hch, hlen, hnle⟩
  dryRun n hn := by
    obtain ⟨m, hm, hnm, hlt⟩ := h.ch_accepts hn
    obtain ⟨dry, hdry, hstrict, hrun⟩ := h.dryRun m hm
    refine ⟨dry + 1, by omega, fun hs => by have := hstrict hs; omega, ?_⟩
    intro len
    simp only [chRecPayloadEncode, hrun, Except.map, addU32_of_lt (by omega : dry + 1 < 2 ^ 32)]

theorem Overruns.ch (h : Overruns (msgEncode uninit chRec.localRecords) n) (hlt : n + 1 < 2 ^ 32) :
    Overruns (chRecPayloadEncode uninit chRec) (n + 1) := by
  obtain ⟨len, v, hle, hrun⟩ := h
  refine ⟨len + 1, v, by omega, ?_⟩
  intro mem hmem
  obtain ⟨mem', result, hmsg, hv, hresult⟩ := hrun (mem.drop 1) (by rw [List.length_drop]; omega)
  refine ⟨chRec.version :: mem', result.map (addU32 · 1), ?_, ?_, ?_⟩
  · rw [chRecPayloadEncode_some (by omega), Nat.add_sub_cancel, hmsg]
    rfl
  · rw [List.getElem?_cons_succ, hv]
  · intro m hm
    cases result with
    | error err => cases hm
    | ok k =>
      cases hm
      rw [hresult k rfl]
      exact addU32_of_lt (by omega)

theorem Behaves.ch {hasCr sound : Prop}
    (h : Behaves (msgEncode uninit chRec.localRecords) hasCr sound) :
    Behaves (chRecPayloadEncode uninit chRec) hasCr sound where
  reports := h.reports.ch
  twoPass hsound n hn := by
    obtain ⟨m, hm, hnm, hlt⟩ := h.reports.ch_accepts hn
    obtain ⟨bytes, hpass⟩ := h.twoPass hsound m hm
    have hlen := hpass.eq_of_accepts hm
    exact ⟨_, hpass.ch (by omega)⟩
  overruns hsound hhas n hn := by
    obtain ⟨m, hm, hnm, hlt⟩ := h.reports.ch_accepts hn
    rw [hnm]
    exact (h.overruns hsound hhas m hm).ch (by omega)

end Handover

theorem PayloadDesc.behaves (uninit : Nat) (p : PayloadDesc) :
    Behaves (p.construct uninit) p.HasCr p.Sound := by
  induction p with
  | text desc => exact text_behaves desc
  | bin payload => exact .of_exact _ _ fun _ _ => bin_sized payload
  | hc hcRec => exact .of_exact _ _ fun _ hn => hc_sized hn
  | ac acRec => exact .of_exact _ _ fun _ hn => ac_sized hn
  | cr crRec =>
    apply Behaves.of_sized
    intro n hn
    exact ⟨_, _, _, _, cr_sized crRec, Nat.zero_le 2, fun _ => Nat.zero_lt_two, False.elim,
      fun _ h => absurd trivial h⟩
  | tnepStatus status => exact .of_exact [status] _ fun _ _ => status_sized status
  | tnepSvcSelect uri => exact select_behaves uri
  | tnepSvcParam param => exact param_behaves param
  | ch majorVersion minorVersion count count_lt head payload ih =>
    exact (msgEncode_behaves uninit count_lt head ih).ch

/-- A payload that its constructor accepts agrees in its two passes exactly when it is sound, and a
message that is accepted exactly when all its payloads are. -/
theorem twoPass_iff_sound (uninit : Nat) :
    (∀ (p : PayloadDesc) (n : Nat), Accepts (p.construct uninit) n →
      ((∃ bytes, TwoPass (p.construct uninit) bytes) ↔ p.Sound)) ∧
    ∀ (count : Nat) (count_lt : count < 2 ^ 32) (head : Fin count → RecordHead)
      (payload : Fin count → PayloadDesc) (n : Nat),
      Accepts (msgEncode uninit
        (some (msgDescOf count_lt head fun i => (payload i).construct uninit))) n →
      ((∃ bytes, TwoPass (msgEncode uninit
        (some (msgDescOf count_lt head fun i => (payload i).construct uninit))) bytes) ↔
        ∀ i, (payload i).Sound) := by
  constructor
  · intro p n hn
    exact (p.behaves uninit).twoPass_iff hn
  · intro count count_lt head payload n hn
    exact (msgEncode_behaves uninit count_lt head fun i => (payload i).behaves uninit).twoPass_iff hn

def statusHandover : PayloadDesc :=
  .ch 1 5 1 (by decide) (fun _ => ⟨.wellKnown, ⟨[0x30], by decide⟩, ⟨[0x54, 0x65], by decide⟩⟩)
    fun _ => .tnepStatus 0

theorem statusHandover_twoPass : ∃ bytes, TwoPass (statusHandover.construct 0) bytes :=
  ((twoPass_iff_sound 0).1 statusHandover 12
    ⟨List.replicate 16 0, 16, by decide, by decide, rfl⟩).mpr fun _ => trivial

/-- The dry run of a collision resolution record reports no bytes. -/
theorem crRec_not_twoPass :
    ((PayloadDesc.cr ⟨0x1234⟩).construct 0 none 0).result = .ok 0 ∧
      (PayloadDesc.cr ⟨0x1234⟩).construct 0 (some [0, 0]) 2 = ⟨some [0x12, 0x34], .ok 2⟩ ∧
      ¬ ∃ bytes, TwoPass ((PayloadDesc.cr ⟨0x1234⟩).construct 0) bytes := by
  refine ⟨rfl, rfl, ?_⟩
  have haccepts : Accepts ((PayloadDesc.cr ⟨0x1234⟩).construct 0) 2 :=
    ⟨[0, 0], 2, le_refl _, by decide, rfl⟩
  rw [((PayloadDesc.cr ⟨0x1234⟩).behaves 0).twoPass_iff haccepts]
  exact id

end SdkNrf.Ndef
