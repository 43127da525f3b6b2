import SdkNrf.Ndef.TwoPass

/-!
# Which payloads agree in their two passes

Every constructor reports in its dry run at most what it reports when it encodes, and less for a collision
resolution record.
-/

namespace SdkNrf.Ndef

/-- A constructor that checks a size and stores `bytes`: what it reports in a dry run, and the size. -/
structure Sized (construct : PayloadConstructor) (dry size : Nat) (bytes : List UInt8) (err : Errno) :
    Prop where
  none : ∀ len, construct none len = ⟨none, .ok dry⟩
  some : ∀ mem len, construct (some mem) len =
    if size > len then ⟨some mem, .error err⟩ else ⟨some (mem.write 0 bytes), .ok size⟩

structure Reports (construct : PayloadConstructor) (strict : Prop) : Prop where
  ok : ∀ mem len n, len ≤ mem.length → len < 2 ^ 32 → (construct (some mem) len).result = .ok n →
    ∃ mem', construct (some mem) len = ⟨some mem', .ok n⟩ ∧ mem.length ≤ mem'.length ∧ n ≤ len
  dryRun : ∀ n, Accepts construct n →
    ∃ dry, dry ≤ n ∧ (strict → dry < n) ∧ ∀ len, construct none len = ⟨none, .ok dry⟩

/-- In some buffer the constructor stores the byte `v` behind the end, and has no room left. -/
def Overruns (construct : PayloadConstructor) (n : Nat) : Prop :=
  ∃ len v, len ≤ n ∧ ∀ mem : Memory, len < mem.length →
    ∃ mem' result, construct (some mem) len = ⟨some mem', result⟩ ∧ mem'[len]? = some v ∧
      ∀ m, result = .ok m → m = len

section Constructor

variable {construct : PayloadConstructor} {bytes : List UInt8} {dry size n : Nat} {err : Errno}

theorem Sized.size_eq (h : Sized construct dry size bytes err) (hn : Accepts construct n) :
    n = size := by
  obtain ⟨mem, len, -, -, hok⟩ := hn
  rw [h.some] at hok
  split at hok
  · cases hok
  · cases hok
    rfl

theorem Sized.twoPass (h : Sized construct dry size bytes err) (hdry : dry = bytes.length)
    (hsize : size = bytes.length) : TwoPass construct bytes := by
  subst hdry hsize
  exact .of_sized h.none h.some

theorem Sized.overruns (h : Sized construct dry size bytes err) (hn : Accepts construct n)
    (hsize : size < bytes.length) : Overruns construct n := by
  refine ⟨size, bytes[size], (h.size_eq hn).ge, ?_⟩
  intro mem hmem
  refine ⟨mem.write 0 bytes, .ok size, ?_, ?_, ?_⟩
  · rw [h.some, if_neg (lt_irrefl size)]
  · rw [Memory.write, List.take_zero, List.nil_append, List.getElem?_append_left hsize,
      List.getElem?_eq_getElem hsize]
  · intro m hm
    cases hm
    rfl

theorem Memory.length_le_write (mem : Memory) (bytes : List UInt8) :
    mem.length ≤ (mem.write 0 bytes).length := by
  simp only [Memory.write, List.take_zero, List.nil_append, List.length_append, List.length_drop]
  omega

theorem TwoPass.lt_of_accepts (h : TwoPass construct bytes) (hn : Accepts construct n) :
    bytes.length < 2 ^ 32 := by
  obtain ⟨mem, len, hle, hlt, hok⟩ := hn
  by_contra hge
  obtain ⟨mem', err, herr, -⟩ := h.short mem len (by omega) hle hlt
  rw [herr] at hok
  cases hok

theorem TwoPass.not_overruns (h : TwoPass construct bytes) (hn : Accepts construct n) :
    ¬ Overruns construct n := by
  rintro ⟨len, v, hle, hrun⟩
  have hlt := h.lt_of_accepts hn
  rw [h.eq_of_accepts hn] at hle
  obtain ⟨w, hw⟩ : ∃ w : UInt8, w ≠ v := by
    by_cases hv : v = 0
    · exact ⟨1, by rw [hv]; decide⟩
    · exact ⟨0, Ne.symm hv⟩
  have hlen : (List.replicate (len + 1) w).length = len + 1 := List.length_replicate
  have hbyte : (List.replicate (len + 1) w)[len]? = some w := by
    rw [List.getElem?_replicate, if_pos (Nat.lt_succ_self len)]
  obtain ⟨mem', result, hconstruct, hv, -⟩ := hrun (List.replicate (len + 1) w) (by omega)
  suffices hkept : mem'[len]? = some w by
    rw [hkept, Option.some.injEq] at hv
    exact hw hv
  rw [← hbyte]
  rcases Nat.lt_or_eq_of_le hle with hshort | rfl
  · obtain ⟨mem'', err', herr, -, hdrop⟩ := h.short (List.replicate (len + 1) w) len hshort
      (by omega) (by omega)
    rw [herr] at hconstruct
    cases hconstruct
    rw [← Nat.add_zero len, ← List.getElem?_drop, Nat.add_zero, hdrop, List.getElem?_drop,
      Nat.add_zero]
  · rw [h.encode _ _ (le_refl _) (by omega) hlt] at hconstruct
    cases hconstruct
    rw [Memory.write, List.take_zero, List.nil_append, Nat.zero_add,
      List.getElem?_append_right (le_refl _), Nat.sub_self, List.getElem?_drop]
    rfl

theorem Reports.mono {strict strict' : Prop} (h : Reports construct strict)
    (himp : strict' → strict) : Reports construct strict' where
  ok := h.ok
  dryRun n hn := by
    obtain ⟨dry, hle, hlt, hdry⟩ := h.dryRun n hn
    exact ⟨dry, hle, fun hs => hlt (himp hs), hdry⟩

theorem Sized.reports (h : Sized construct dry size bytes err) (hdry : dry ≤ size)
    {strict : Prop} (hstrict : strict → dry < size) : Reports construct strict where
  ok mem len n hle hlt hok := by
    rw [h.some] at hok ⊢
    split at hok
    · cases hok
    next hsize =>
      cases hok
      rw [if_neg hsize]
      exact ⟨_, rfl, Memory.length_le_write mem bytes, by omega⟩
  dryRun n hn := by
    rw [h.size_eq hn]
    exact ⟨dry, hdry, hstrict, h.none⟩

end Constructor

section Record

variable {construct : PayloadConstructor} {uninit n : Nat} {strict : Prop}

theorem recordEncode_result {head : RecordHead} {location : Location} {mem : Memory} {len : Nat}
    (hsize : head.size ≤ len) (hle : len ≤ mem.length) :
    (recordEncode uninit (some (head.desc construct)) location (some mem) len).result =
      (construct (some (mem.drop head.size)) (len - head.size)).result.map (addU32 head.size) := by
  obtain ⟨old, -, -, heq⟩ := recordEncode_room uninit location hsize hle
  rw [heq]
  dsimp only
  cases (construct (some (mem.drop head.size)) (len - head.size)).result <;> rfl

theorem Reports.record (h : Reports construct strict) (head : RecordHead) {location : Location}
    {mem : Memory} {len : Nat} (hle : len ≤ mem.length) (hlt : len < 2 ^ 32)
    (hok : (recordEncode uninit (some (head.desc construct)) location (some mem) len).result =
      .ok n) :
    ∃ m mem', Accepts construct m ∧ n = head.size + m ∧ n ≤ len ∧ mem.length ≤ mem'.length ∧
      recordEncode uninit (some (head.desc construct)) location (some mem) len =
        ⟨some mem', .ok n⟩ := by
  rcases Nat.lt_or_ge len head.size with hsize | hsize
  · rw [recordEncode_noRoom hsize] at hok
    cases hok
  have hdrop : (mem.drop head.size).length = mem.length - head.size := List.length_drop
  rw [recordEncode_result hsize hle] at hok
  cases hresult : (construct (some (mem.drop head.size)) (len - head.size)).result with
  | error err =>
    rw [hresult] at hok
    cases hok
  | ok m =>
    rw [hresult] at hok
    obtain ⟨mem', hpayload, hlen, hm⟩ := h.ok _ _ m (by omega) (by omega) hresult
    have hn : n = head.size + m := by
      cases hok
      exact addU32_of_lt (by omega)
    have hheader := (head.desc construct).length_header location (length_be32 m)
    rw [head.recordHeaderSizeCalc_desc] at hheader
    refine ⟨m, _, ⟨_, _, by omega, by omega, hresult⟩, hn, by omega, ?_,
      (recordEncode_ok hsize hle hpayload).trans (by rw [addU32_of_lt (by omega), hn])⟩
    rw [List.length_append, hheader]
    omega

theorem Overruns.record {m : Nat} (h : Overruns construct m) (head : RecordHead) (uninit : Nat)
    (location : Location) (hlt : head.size + m < 2 ^ 32) :
    Overruns (recordEncode uninit (some (head.desc construct)) location) (head.size + m) := by
  obtain ⟨len, v, hle, hrun⟩ := h
  refine ⟨head.size + len, v, by omega, ?_⟩
  intro mem hmem
  have hsub : head.size + len - head.size = len := Nat.add_sub_cancel_left ..
  obtain ⟨mem', result, hpayload, hv, hresult⟩ := hrun (mem.drop head.size)
    (by rw [List.length_drop]; omega)
  rw [← hsub] at hpayload
  cases result with
  | error err =>
    obtain ⟨pre, hpre, hrecord⟩ := recordEncode_error uninit location (by omega) (by omega) hpayload
    refine ⟨pre ++ mem', .error err, hrecord, ?_, fun _ h => by cases h⟩
    rw [List.getElem?_append_right (by omega), hpre, hsub, hv]
  | ok m' =>
    have hm' := hresult m' rfl
    have hheader := (head.desc construct).length_header location (length_be32 m')
    rw [head.recordHeaderSizeCalc_desc] at hheader
    refine ⟨_, _, recordEncode_ok (by omega) (by omega) hpayload, ?_, ?_⟩
    · rw [List.getElem?_append_right (by omega), hheader, hsub, hv]
    · intro k hk
      cases hk
      rw [hm']
      exact addU32_of_lt (by omega)

end Record

section Message

variable {uninit count msgLen : Nat}

def runLength (run : List (MsgItem × Nat)) : Nat := (run.map fun p => p.1.head.size + p.2).sum

@[simp] theorem runLength_nil : runLength [] = 0 := rfl

@[simp] theorem runLength_cons (p : MsgItem × Nat) (run : List (MsgItem × Nat)) :
    runLength (p :: run) = p.1.head.size + p.2 + runLength run := rfl

theorem msgEncodeFrom_run {strict : MsgItem → Prop} (hu32 : msgLen < 2 ^ 32) {items : List MsgItem}
    (hitems : ∀ item ∈ items, Reports item.construct (strict item)) {index n : Nat}
    (pre rest : Memory) (hpre : pre.length ≤ msgLen) (hmem : msgLen ≤ pre.length + rest.length)
    (hok : (msgEncodeFrom uninit count msgLen (items.map MsgItem.desc) index pre.length
      (some (pre ++ rest))).result = .ok n) :
    ∃ run, run.map Prod.fst = items ∧ (∀ p ∈ run, Accepts p.1.construct p.2) ∧
      n = pre.length + runLength run ∧ n ≤ msgLen ∧
      ∃ mem', msgEncodeFrom uninit count msgLen (items.map MsgItem.desc) index pre.length
        (some (pre ++ rest)) = ⟨some mem', .ok n⟩ ∧ (pre ++ rest).length ≤ mem'.length := by
  induction items generalizing index pre rest with
  | nil =>
    cases hok
    exact ⟨[], rfl, fun _ h => (List.not_mem_nil h).elim, rfl, hpre, _, rfl, le_refl _⟩
  | cons item items ih =>
    obtain ⟨hitem, hitems⟩ := List.forall_mem_cons.mp hitems
    have hsub : subU32 msgLen pre.length = msgLen - pre.length := subU32_of_le (by omega) hu32
    cases hresult : (recordEncode uninit item.desc (recordLocationGet index count) (some rest)
        (subU32 msgLen pre.length)).result with
    | error err =>
      simp only [List.map_cons, msgEncodeFrom, Option.map_some, List.drop_left, hresult] at hok
      cases hok
    | ok k =>
      obtain ⟨m, mem', hm, hk, hkle, hlen, hrecord⟩ := hitem.record item.head (by omega) (by omega)
        hresult
      obtain ⟨first, rest', hsplit, hfirst⟩ := Memory.exists_field mem' k (by omega)
      have hpre' : (pre ++ first).length = pre.length + k := by rw [List.length_append, hfirst]
      have hrest' : (pre ++ first).length + rest'.length = pre.length + mem'.length := by
        rw [hpre', hsplit, List.length_append, hfirst, Nat.add_assoc]
      rw [msgEncodeFrom_cons_ok hrecord, addU32_of_lt (by omega), hsplit, ← List.append_assoc,
        ← hpre'] at hok ⊢
      obtain ⟨run, hrun, haccepts, hn, hnle, mem'', hmem'', hlen''⟩ :=
        ih hitems (pre ++ first) rest' (by omega) (by omega) hok
      refine ⟨(item, m) :: run, ?_, ?_, ?_, hnle, mem'', hmem'', ?_⟩
      · rw [List.map_cons, hrun]
      · exact List.forall_mem_cons.mpr ⟨hm, haccepts⟩
      · rw [runLength_cons, hn, hpre', hk, Nat.add_assoc]
      · rw [List.length_append] at hlen'' ⊢
        omega

variable {run : List (MsgItem × Nat)}

theorem msgEncodeFrom_dry (uninit count : Nat) {strict : MsgItem → Prop}
    (hreports : ∀ p ∈ run, Reports p.1.construct (strict p.1))
    (haccepts : ∀ p ∈ run, Accepts p.1.construct p.2) :
    ∃ dry, dry ≤ runLength run ∧ ((∃ p ∈ run, strict p.1) → dry < runLength run) ∧
      ∀ index sum msgLen, sum + runLength run < 2 ^ 32 →
        msgEncodeFrom uninit count msgLen ((run.map Prod.fst).map MsgItem.desc) index sum none =
          ⟨none, .ok (sum + dry)⟩ := by
  induction run with
  | nil =>
    refine ⟨0, le_refl _, ?_, fun _ _ _ _ => rfl⟩
    rintro ⟨p, hp, -⟩
    exact (List.not_mem_nil hp).elim
  | cons p run ih =>
    obtain ⟨hreport, hreports⟩ := List.forall_mem_cons.mp hreports
    obtain ⟨haccept, haccepts⟩ := List.forall_mem_cons.mp haccepts
    obtain ⟨dry, hle, hstrict, hdry⟩ := hreport.dryRun p.2 haccept
    obtain ⟨dry', hle', hstrict', hdry'⟩ := ih hreports haccepts
    refine ⟨p.1.head.size + dry + dry', ?_, ?_, ?_⟩
    · rw [runLength_cons]
      omega
    · rintro ⟨q, hq, hqstrict⟩
      rw [runLength_cons]
      rcases List.mem_cons.mp hq with rfl | hq
      · have := hstrict hqstrict
        omega
      · have := hstrict' ⟨q, hq, hqstrict⟩
        omega
    · intro index sum msgLen hlt
      rw [runLength_cons] at hlt
      have hrecord : (recordEncode uninit p.1.desc (recordLocationGet index count) none
          (subU32 msgLen sum)).result = .ok (p.1.head.size + dry) := by
        rw [MsgItem.desc, recordEncode_none, hdry]
        show Except.ok _ = Except.ok _
        rw [addU32_of_lt (by omega)]
      rw [List.map_cons, msgEncodeFrom_cons_none hrecord, addU32_of_lt (by omega),
        hdry' _ _ _ (by omega)]
      congr 2
      omega

/-- A message with a payload that overruns its buffer does so too, when the payloads in front of it
agree in their two passes. -/
theorem msgEncodeFrom_overruns (uninit count index : Nat)
    (haccepts : ∀ p ∈ run, Accepts p.1.construct p.2)
    (hitems : ∀ p ∈ run, (∃ bytes, TwoPass p.1.construct bytes) ∨ Overruns p.1.construct p.2)
    (hbad : ∃ p ∈ run, Overruns p.1.construct p.2) {sum : Nat} (hlt : sum + runLength run < 2 ^ 32) :
    ∃ len v, sum ≤ len ∧ len ≤ sum + runLength run ∧ ∀ pre rest : Memory, pre.length = sum →
      len < pre.length + rest.length →
      ∃ mem' result, msgEncodeFrom uninit count len ((run.map Prod.fst).map MsgItem.desc) index sum
          (some (pre ++ rest)) = ⟨some mem', result⟩ ∧ mem'[len]? = some v ∧
        ∀ m, result = .ok m → m = len := by
  induction run generalizing index sum with
  | nil =>
    obtain ⟨p, hp, -⟩ := hbad
    exact (List.not_mem_nil hp).elim
  | cons p run ih =>
    obtain ⟨haccept, haccepts⟩ := List.forall_mem_cons.mp haccepts
    obtain ⟨hitem, hitems⟩ := List.forall_mem_cons.mp hitems
    rw [runLength_cons] at hlt ⊢
    by_cases hover : Overruns p.1.construct p.2
    · obtain ⟨len, v, hle, hrun⟩ := hover.record p.1.head uninit (recordLocationGet index count)
        (by omega)
      refine ⟨sum + len, v, by omega, by omega, ?_⟩
      rintro pre rest rfl hmem
      obtain ⟨mem', result, hrecord, hv, hresult⟩ := hrun rest (by omega)
      have hsub : subU32 (pre.length + len) pre.length = len := by
        rw [subU32_of_le (by omega) (by omega), Nat.add_sub_cancel_left]
      have hv' : (pre ++ mem')[pre.length + len]? = some v := by
        rw [List.getElem?_append_right (by omega), Nat.add_sub_cancel_left, hv]
      rw [List.map_cons]
      cases result with
      | error err =>
        refine ⟨pre ++ mem', .error err, ?_, hv', fun _ h => by cases h⟩
        exact msgEncodeFrom_cons_error (by rw [hsub, MsgItem.desc, hrecord])
      | ok k =>
        rw [msgEncodeFrom_cons_ok (by rw [hsub, MsgItem.desc, hrecord]), hresult k rfl,
          addU32_of_lt (by omega)]
        -- there is no room left, not even for the header of the next record
        cases run with
        | nil => exact ⟨pre ++ mem', .ok (pre.length + len), rfl, hv', fun _ h => by cases h; rfl⟩
        | cons q run =>
          obtain ⟨hlen, -⟩ := List.getElem?_eq_some_iff.mp hv'
          obtain ⟨pre', rest', hsplit, hpre'⟩ := Memory.exists_field (pre ++ mem') (pre.length + len)
            (Nat.le_of_lt hlen)
          rw [hsplit] at hv' ⊢
          rw [← hpre'] at hv' ⊢
          refine ⟨pre' ++ rest', .error .ENOSR, ?_, hv', fun _ h => by cases h⟩
          apply msgEncodeFrom_cons_error
          apply recordEncode_noRoom
          have hsize := q.1.head.six_le_size
          rw [subU32_of_le (le_refl _) (by omega)]
          omega
    · obtain ⟨bytes, hpass⟩ := hitem.resolve_right hover
      have hbad' : ∃ p ∈ run, Overruns p.1.construct p.2 := by
        obtain ⟨q, hq, hqbad⟩ := hbad
        rcases List.mem_cons.mp hq with rfl | hq
        · exact absurd hqbad hover
        · exact ⟨q, hq, hqbad⟩
      have hbytes := hpass.eq_of_accepts haccept
      have hrecord := hpass.record p.1.head (by omega) uninit (recordLocationGet index count)
      set wire := p.1.head.wire p.1.construct (recordLocationGet index count) bytes
      have hwire : wire.length = p.1.head.size + bytes.length := RecordHead.length_wire
      obtain ⟨len, v, hge, hle, hrun⟩ := ih (index + 1) haccepts hitems hbad'
        (by omega : sum + wire.length + runLength run < 2 ^ 32)
      refine ⟨len, v, by omega, by omega, ?_⟩
      rintro pre rest rfl hmem
      have hsub : subU32 len pre.length = len - pre.length := subU32_of_le (by omega) (by omega)
      have hok := hrecord.encode rest (subU32 len pre.length) (by omega) (by omega) (by omega)
      have hpre' : (pre ++ wire).length = pre.length + wire.length := List.length_append
      rw [List.map_cons, msgEncodeFrom_cons_ok (by rw [MsgItem.desc, hok]), addU32_of_lt (by omega),
        Memory.write, List.take_zero, List.nil_append, Nat.zero_add, ← List.append_assoc]
      exact hrun (pre ++ wire) (rest.drop wire.length) hpre' (by rw [List.length_drop]; omega)

variable {msg : MsgDesc} {items : List MsgItem} {strict : MsgItem → Prop} {n : Nat}

theorem msgEncode_eq (hmsg : msg.record = some (items.map MsgItem.desc)) (buffer : Option Memory)
    (len : Nat) : msgEncode uninit (some msg) buffer len =
      msgEncodeFrom uninit items.length len (items.map MsgItem.desc) 0 0 buffer := by
  simp only [msgEncode, Option.bind_some, hmsg, List.length_map]

theorem msgEncode_run (hmsg : msg.record = some (items.map MsgItem.desc))
    (hitems : ∀ item ∈ items, Reports item.construct (strict item))
    (hn : Accepts (msgEncode uninit (some msg)) n) :
    ∃ run, run.map Prod.fst = items ∧ (∀ p ∈ run, Accepts p.1.construct p.2) ∧
      n = runLength run ∧ n < 2 ^ 32 := by
  obtain ⟨mem, len, hle, hlt, hok⟩ := hn
  rw [msgEncode_eq hmsg] at hok
  obtain ⟨run, hrun, haccepts, hn, hnle, -⟩ := msgEncodeFrom_run hlt hitems [] mem
    (Nat.zero_le len) (by rw [List.length_nil, Nat.zero_add]; exact hle) hok
  rw [List.length_nil, Nat.zero_add] at hn
  exact ⟨run, hrun, haccepts, hn, by omega⟩

theorem msgEncode_reports (uninit : Nat) (hmsg : msg.record = some (items.map MsgItem.desc))
    (hitems : ∀ item ∈ items, Reports item.construct (strict item)) :
    Reports (msgEncode uninit (some msg)) (∃ item ∈ items, strict item) where
  ok mem len n hle hlt hok := by
    rw [msgEncode_eq hmsg] at hok ⊢
    obtain ⟨run, -, -, -, hnle, mem', hmem', hlen⟩ := msgEncodeFrom_run hlt hitems [] mem
      (Nat.zero_le len) (by rw [List.length_nil, Nat.zero_add]; exact hle) hok
    exact ⟨mem', hmem', hlen, hnle⟩
  dryRun n hn := by
    obtain ⟨run, rfl, haccepts, rfl, hlt⟩ := msgEncode_run hmsg hitems hn
    have hreports : ∀ p ∈ run, Reports p.1.construct (strict p.1) :=
      fun p hp => hitems p.1 (List.mem_map_of_mem hp)
    obtain ⟨dry, hdry, hstrict, hrun⟩ := msgEncodeFrom_dry uninit (run.map Prod.fst).length hreports
      haccepts
    refine ⟨dry, hdry, ?_, ?_⟩
    · rintro ⟨item, hitem, h⟩
      obtain ⟨p, hp, rfl⟩ := List.mem_map.mp hitem
      exact hstrict ⟨p, hp, h⟩
    · intro len
      rw [msgEncode_eq hmsg, hrun 0 0 len (by rw [Nat.zero_add]; exact hlt), Nat.zero_add]

private theorem exists_bytes (haccepts : ∀ p ∈ run, Accepts p.1.construct p.2)
    (hpass : ∀ p ∈ run, ∃ bytes, TwoPass p.1.construct bytes) :
    ∃ l : List (MsgItem × List UInt8), l.map Prod.fst = run.map Prod.fst ∧ AllTwoPass l ∧
      ∀ count index, (itemsWire count index l).length = runLength run := by
  induction run with
  | nil => exact ⟨[], rfl, fun _ h => (List.not_mem_nil h).elim, fun _ _ => rfl⟩
  | cons p run ih =>
    obtain ⟨haccept, haccepts⟩ := List.forall_mem_cons.mp haccepts
    obtain ⟨⟨bytes, hbytes⟩, hpass⟩ := List.forall_mem_cons.mp hpass
    obtain ⟨l, hl, hall, hlen⟩ := ih haccepts hpass
    refine ⟨(p.1, bytes) :: l, ?_, List.forall_mem_cons.mpr ⟨hbytes, hall⟩, ?_⟩
    · rw [List.map_cons, List.map_cons, hl]
    · intro count index
      rw [itemsWire, List.length_append, RecordHead.length_wire, hlen, runLength_cons,
        hbytes.eq_of_accepts haccept]

theorem exists_msgEncode_twoPass (uninit : Nat)
    (hmsg : msg.record = some ((run.map Prod.fst).map MsgItem.desc))
    (haccepts : ∀ p ∈ run, Accepts p.1.construct p.2) (hlt : runLength run < 2 ^ 32)
    (hpass : ∀ p ∈ run, ∃ bytes, TwoPass p.1.construct bytes) :
    ∃ bytes, TwoPass (msgEncode uninit (some msg)) bytes ∧ bytes.length = runLength run := by
  obtain ⟨l, hl, hall, hlen⟩ := exists_bytes haccepts hpass
  rw [← hl] at hmsg
  exact ⟨_, msgEncode_twoPass hmsg hall (by rw [hlen]; exact hlt), hlen _ _⟩

theorem msgEncode_overruns (uninit : Nat)
    (hmsg : msg.record = some ((run.map Prod.fst).map MsgItem.desc))
    (haccepts : ∀ p ∈ run, Accepts p.1.construct p.2) (hlt : runLength run < 2 ^ 32)
    (hitems : ∀ p ∈ run, (∃ bytes, TwoPass p.1.construct bytes) ∨ Overruns p.1.construct p.2)
    (hbad : ∃ p ∈ run, Overruns p.1.construct p.2) :
    Overruns (msgEncode uninit (some msg)) (runLength run) := by
  obtain ⟨len, v, -, hle, hrun⟩ := msgEncodeFrom_overruns uninit (run.map Prod.fst).length 0
    haccepts hitems hbad (by omega : 0 + runLength run < 2 ^ 32)
  refine ⟨len, v, by omega, ?_⟩
  intro mem hmem
  rw [msgEncode_eq hmsg]
  exact hrun [] mem rfl (by rw [List.length_nil, Nat.zero_add]; exact hmem)

end Message

end SdkNrf.Ndef
