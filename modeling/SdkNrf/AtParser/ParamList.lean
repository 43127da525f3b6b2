import SdkNrf.AtParser.CommandLines

/-!
# What a call leaves in the list

When `-E2BIG` is returned, which parameters the list then holds, and what the getters of
`at_params.c` read of a number.
-/

namespace SdkNrf.AtParser

theorem take_seen (closed : Bool) (ts : List Token) :
    ∀ n < ts.length, (seen closed ts).take n = (ts.map Token.param).take n := by
  induction ts with
  | nil => simp
  | cons t ts ih =>
    intro n hn
    cases n with
    | zero => simp
    | succ n =>
      simp only [List.length_cons, Nat.add_lt_add_iff_right] at hn
      have hne : ts ≠ [] := by
        rintro rfl
        simp at hn
      rw [seen_cons fun h => hne h.2, List.map_cons, List.take_succ_cons, List.take_succ_cons, ih n hn]

theorem numberParam_ne_invalid (v : Nat) : numberParam v ≠ .invalid := by
  unfold numberParam
  split <;> simp

theorem Token.param_ne_invalid (t : Token) : t.param ≠ .invalid := by
  cases t with
  | pdu digits => simp [param]
  | element separator blank e =>
    cases e with
    | number n => exact numberParam_ne_invalid n.read
    | quoted s => simp [param, Element.param]
    | array i is => simp [param, Element.param]
    | empty => simp [param, Element.param]

theorem map_kept_eq_self_iff {alloc : Nat → Bool} {ps : List Param} (h : ∀ p ∈ ps, p ≠ .invalid) :
    ps.map (kept alloc) = ps ↔ ∀ p ∈ ps, Allocated alloc p := by
  have hkept (p : Param) (hp : p ≠ .invalid) : kept alloc p = p ↔ Allocated alloc p := by
    unfold kept
    split_ifs with ha
    · simp [ha]
    · simp [ha, hp.symm]
  calc ps.map (kept alloc) = ps
    _ ↔ ps.map (kept alloc) = ps.map id := by rw [List.map_id]
    _ ↔ ∀ p ∈ ps, kept alloc p = p := List.map_inj_left
    _ ↔ ∀ p ∈ ps, Allocated alloc p := forall₂_congr fun p hp => hkept p (h p hp)

namespace CommandLine

theorem params_ne_invalid (l : CommandLine) : ∀ p ∈ l.params, p ≠ .invalid := by
  intro p hp
  rcases List.mem_cons.mp hp with rfl | hp
  · simp
  · obtain ⟨t, -, rfl⟩ := List.mem_map.mp hp
    exact t.param_ne_invalid

/-- What `-E2BIG` is documented for: the list cannot hold all parameters, and then it holds as many
of them as possible. -/
def CapacityReported (l : CommandLine) (capacity slots : Nat) (r : Result) : Prop :=
  (r.code = .E2BIG ↔ capacity < l.params.length) ∧
    (capacity < l.params.length →
      r.list = l.params.take capacity ++ List.replicate (slots - capacity) .invalid)

/-- The string ends where the list is full, behind a parameter that is not empty. -/
def FillsList (l : CommandLine) (capacity : Nat) : Prop :=
  capacity = l.params.length ∧ l.ending.closed = false ∧ ¬ LastEmpty l.tokens

end CommandLine

/-- `-E2BIG` is returned as documented unless the string just fits and ends without a line break
behind a parameter that is not empty. In a list that is too short the first parameters are stored
whenever the heap has room for them. -/
theorem maxParamsFromStr_capacityReported_iff (alloc : Nat → Bool) (l : CommandLine)
    (list : ParamList) {maxParamsCount : Nat} (hcapacity : 0 < min maxParamsCount list.length) :
    ∃ r, maxParamsFromStr alloc (some l.text) (some list) maxParamsCount = .ok r ∧
      (l.CapacityReported (min maxParamsCount list.length) list.length r ↔
        ¬ l.FillsList (min maxParamsCount list.length) ∧
          (min maxParamsCount list.length < l.params.length →
            ∀ p ∈ l.params.take (min maxParamsCount list.length), Allocated alloc p)) := by
  obtain ⟨r, hr, hlist, hcode⟩ := maxParamsFromStr_line alloc l list hcapacity
  refine ⟨r, hr, ?_⟩
  generalize hm : min maxParamsCount list.length = capacity at hcapacity hlist hcode ⊢
  have hlength : l.params.length = 1 + l.tokens.length := by
    simp [CommandLine.params, Nat.add_comm]
  have hreported : (r.code = .E2BIG ↔ capacity < l.params.length) ↔ ¬ l.FillsList capacity := by
    rw [hcode, Reports, CommandLine.FillsList, hlength]
    by_cases hlt : capacity < 1 + l.tokens.length
    · have hne : capacity ≠ 1 + l.tokens.length := by omega
      simp [hlt, hne]
    · simp [hlt]
  have hstored : capacity < l.params.length →
      (r.list = l.params.take capacity ++ List.replicate (list.length - capacity) .invalid ↔
        ∀ p ∈ l.params.take capacity, Allocated alloc p) := by
    intro hlt
    obtain ⟨n, rfl⟩ : ∃ n, capacity = n + 1 := ⟨capacity - 1, by omega⟩
    have htake : (Param.string l.head.name :: seen l.ending.closed l.tokens).take (n + 1) =
        l.params.take (n + 1) := by
      rw [CommandLine.params, List.take_succ_cons, List.take_succ_cons,
        take_seen l.ending.closed l.tokens n (by omega)]
    have hfull : (l.params.take (n + 1)).length = n + 1 := by
      rw [List.length_take]
      omega
    rw [hlist, htake, hfull, List.append_left_inj]
    exact map_kept_eq_self_iff fun p hp => l.params_ne_invalid p (List.mem_of_mem_take hp)
  rw [CommandLine.CapacityReported, hreported]
  exact and_congr_right fun _ => forall_congr' hstored

theorem exactFit_leader : isNotification '+' = true := rfl

theorem exactFit_name : ∀ c ∈ "CSQ".toList, c.isAlpha = true := List.all_eq_true.mp rfl

def exactFitHead : Head := .notification '+' "CSQ".toList exactFit_leader exactFit_name

def exactFitTokens : List Token := [.element ':' (some ' ') (.number (.unsigned (.ofNat 1)))]

theorem exactFit_wellFormed : WellFormed exactFitHead.state exactFitTokens :=
  ⟨rfl, by simp [isSpace, isLfcr, carriageReturn, lineFeed], trivial, by simp, trivial⟩

theorem exactFit_takesParams : exactFitHead.TakesParams ∨ exactFitTokens = [] := .inl trivial

/-- `+CSQ: 1` in two entries, which hold both of its parameters. -/
def exactFit : CommandLine where
  head := exactFitHead
  tokens := exactFitTokens
  ending := .string
  wellFormed := exactFit_wellFormed
  takesParams := exactFit_takesParams

def exactFitClosed : CommandLine := { exactFit with ending := .line [] (.inl rfl) }

theorem exactFitClosed_capacityReported :
    0 < min 2 [Param.invalid, .invalid].length ∧
      ∃ r, maxParamsFromStr (fun _ => true) (some exactFitClosed.text)
          (some [.invalid, .invalid]) 2 = .ok r ∧ exactFitClosed.CapacityReported 2 2 r := by
  obtain ⟨r, hr, hreported⟩ := maxParamsFromStr_capacityReported_iff (fun _ => true) exactFitClosed
    [.invalid, .invalid] (show 0 < min 2 2 by decide)
  exact ⟨by decide, r, hr, hreported.mpr ⟨fun h => absurd h.2.1 (by decide), (absurd · (by decide))⟩⟩

/-- Both parameters of `+CSQ: 1` are stored in a list of two, and the call reports `-E2BIG`. -/
theorem exactFit_reported :
    exactFit.text = "+CSQ: 1".toList ∧ exactFit.params.length = 2 ∧
      ∃ r, maxParamsFromStr (fun _ => true) (some exactFit.text) (some [.invalid, .invalid]) 2 =
          .ok r ∧ r.list = exactFit.params ∧ r.code = .E2BIG ∧
        ¬ exactFit.CapacityReported 2 2 r := by
  refine ⟨by decide, by decide, ⟨.E2BIG, [], [.string "+CSQ".toList, .numShort 1]⟩, ?_, ?_, rfl, ?_⟩
  · rfl
  · rfl
  · exact fun h => absurd (h.1.mp rfl) (by decide)

/-- `enum at_param_type`. -/
inductive ParamType
  | invalid
  | numShort
  | numInt
  | string
  | array
  | empty
  deriving DecidableEq, Repr

def Param.type : Param → ParamType
  | .invalid => .invalid
  | .numShort _ => .numShort
  | .numInt _ => .numInt
  | .string _ => .string
  | .array _ => .array
  | .empty => .empty

def typeGet (list : ParamList) (index : Nat) : ParamType :=
  match list[index]? with
  | some p => p.type
  | none => .invalid

/-- `at_params_int_get`; `none` is `-EINVAL`. -/
def intGet (list : ParamList) (index : Nat) : Option Nat :=
  match list[index]? with
  | some (.numInt v) => some v
  | some (.numShort v) => some v
  | _ => none

/-- The list yields the number that was written, with the type for its size. -/
def Yields (list : ParamList) (index v : Nat) : Prop :=
  intGet list index = some v ∧
    typeGet list index = if v ≤ 65535 then .numShort else .numInt

theorem yields_numberParam_iff {list : ParamList} {index v : Nat} (hv : v < 2 ^ 32)
    (h : list[index]? = some (numberParam v)) : Yields list index v ↔ v < 2 ^ 31 := by
  by_cases hsign : v < 2 ^ 31
  · rw [numberParam_of_lt hsign] at h
    simp only [Yields, intGet, typeGet, h, hsign, iff_true]
    split_ifs <;> exact ⟨rfl, rfl⟩
  · -- The `int` is negative, so sixteen bits of the number are stored.
    have hshort : numberParam v = .numShort ((((v : Int) - 2 ^ 32) % 2 ^ 16).toNat) := by
      rw [numberParam, toInt32, if_neg hsign, if_pos (by omega)]
    have hne : (((v : Int) - 2 ^ 32) % 2 ^ 16).toNat ≠ v := by omega
    have hget : intGet list index ≠ some v := by
      simpa only [intGet, h, hshort, ne_eq, Option.some.injEq] using hne
    exact iff_of_false (fun hy => hget hy.1) hsign

theorem seen_get (closed : Bool) {ts : List Token} {t : Token} (ht : t.param ≠ .empty) :
    ∀ i : Nat, ts[i]? = some t → (seen closed ts)[i]? = some t.param := by
  induction ts with
  | nil => simp
  | cons t' ts ih =>
    intro i hi
    by_cases hlast : t'.param = .empty ∧ ts = []
    · obtain ⟨hempty, rfl⟩ := hlast
      cases i with
      | zero =>
        obtain rfl : t' = t := by simpa using hi
        exact absurd hempty ht
      | succ i => simp at hi
    · rw [seen_cons hlast]
      cases i with
      | zero => simpa using congrArg (Option.map Token.param) hi
      | succ i => simpa using ih i (by simpa using hi)

/-- A number that fits in 32 bits is read back as it was written, with the right type, exactly
when it fits in the `int` that the parser keeps it in. -/
theorem maxParamsFromStr_yields_iff (alloc : Nat → Bool) (l : CommandLine) (list : ParamList)
    {maxParamsCount i : Nat} {separator : Char} {blank : Option Char} {d : Decimal}
    (htoken : l.tokens[i]? = some (.element separator blank (.number (.unsigned d))))
    (hvalue : d.value < 2 ^ 32) (hroom : i + 1 < min maxParamsCount list.length) :
    ∃ r, maxParamsFromStr alloc (some l.text) (some list) maxParamsCount = .ok r ∧
      (Yields r.list (i + 1) d.value ↔ d.value < 2 ^ 31) := by
  have hcapacity : 0 < min maxParamsCount list.length := by omega
  obtain ⟨r, hr, hlist, -⟩ := maxParamsFromStr_line alloc l list hcapacity
  have hparam : (Token.element separator blank (.number (.unsigned d))).param =
      numberParam d.value := by
    rw [Token.param, Element.param, Numeral.read_unsigned hvalue]
  have hne : numberParam d.value ≠ .empty := by
    unfold numberParam
    split <;> simp
  have hseen := seen_get l.ending.closed (hparam ▸ hne) i htoken
  rw [hparam] at hseen
  have hkept : kept alloc (numberParam d.value) = numberParam d.value := by
    have hallocated : Allocated alloc (numberParam d.value) := by
      unfold numberParam
      split <;> trivial
    rw [kept, if_pos hallocated]
  have hentry : r.list[i + 1]? = some (numberParam d.value) := by
    rw [hlist, List.getElem?_append_left]
    · rw [List.getElem?_map, List.getElem?_take_of_lt hroom, List.getElem?_cons_succ, hseen,
        Option.map_some, hkept]
    · obtain ⟨hi, -⟩ := List.getElem?_eq_some_iff.mp hseen
      rw [List.length_map, List.length_take, List.length_cons]
      omega
  exact ⟨r, hr, yields_numberParam_iff hvalue hentry⟩

/-- `AT%N=` and a number. -/
def numberCommand (n : Nat) : CommandLine where
  head := .command 'A' 'T' '%' ['N'] .set (.inl rfl) (.inl rfl) (.inr (.inl rfl))
    (List.all_eq_true.mp rfl)
  tokens := [.element '=' none (.number (.unsigned (.ofNat n)))]
  ending := .string
  wellFormed := ⟨rfl, by simp, trivial, by simp, trivial⟩
  takesParams := .inl trivial

theorem numberCommand_yields :
    (numberCommand 2147483647).tokens[0]? =
        some (.element '=' none (.number (.unsigned (.ofNat 2147483647)))) ∧
      ∃ r, maxParamsFromStr (fun _ => true) (some (numberCommand 2147483647).text)
          (some (List.replicate 3 .invalid)) 3 = .ok r ∧
        Yields r.list 1 (Decimal.ofNat 2147483647).value := by
  obtain ⟨r, hr, hyields⟩ := maxParamsFromStr_yields_iff (fun _ => true) (numberCommand 2147483647)
    (List.replicate 3 .invalid) rfl (by simp) (show 1 < min 3 3 by decide)
  exact ⟨rfl, r, hr, hyields.mpr (by decide)⟩

/-- The number 2^31 is read back as the short 0. -/
theorem numberCommand_truncated :
    (numberCommand 2147483648).text = "AT%N=2147483648".toList ∧
      ∃ r, maxParamsFromStr (fun _ => true) (some (numberCommand 2147483648).text)
          (some (List.replicate 3 .invalid)) 3 = .ok r ∧
        intGet r.list 1 = some 0 ∧ typeGet r.list 1 = .numShort ∧ ¬ Yields r.list 1 2147483648 := by
  refine ⟨by decide, ⟨.success, [], [.string "AT%N".toList, .numShort 0, .invalid]⟩, ?_, rfl, rfl, ?_⟩
  · rfl
  · exact fun h => absurd h.1 (by decide)

end SdkNrf.AtParser
