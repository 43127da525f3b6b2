import SdkNrf.AtParser.Elements

/-!
# AT round trip

The grammar of notification lines, and the proof that calling the parser again and again from the
returned pointer gives back the lines that were written, one call for each.
-/

namespace SdkNrf.AtParser

inductive Value
  | number (d : Decimal)
  | quoted (s : List Char)
  | array (ds : List Decimal)
  | empty

namespace Value

def text : Value → List Char
  | number d => d.digits
  | quoted s => dblquote :: (s ++ [dblquote])
  | array ds => '(' :: ([','].intercalate (ds.map Decimal.digits) ++ [')'])
  | empty => []

def Valid : Value → Prop
  | number d => d.value < 2 ^ 31
  | quoted s => dblquote ∉ s ∧ nul ∉ s
  | array ds => 1 ≤ ds.length ∧ ds.length ≤ 32 ∧ ∀ d ∈ ds, d.value < 2 ^ 32
  | empty => True

def param : Value → Param
  | number d => if d.value ≤ 65535 then .numShort d.value else .numInt d.value
  | quoted s => .string s
  | array ds => .array (ds.map Decimal.value)
  | empty => .empty

end Value

def paramsText (vs : List Value) : List Char := [','].intercalate (vs.map Value.text)

/-- A notification: `+` or `%`, its name and its parameters. -/
structure Line where
  leader : Char
  name : List Char
  params : List Value
  leader_isNotification : isNotification leader = true
  name_ne_nil : name ≠ []
  name_isAlpha : ∀ c ∈ name, c.isAlpha = true
  params_ne_nil : params ≠ []
  params_ne_empty : params ≠ [.empty]
  params_valid : ∀ v ∈ params, v.Valid

def crlf : List Char := [carriageReturn, lineFeed]

namespace Line

def text (l : Line) : List Char :=
  l.leader :: (l.name ++ ':' :: ' ' :: (paramsText l.params ++ crlf))

def entries (l : Line) : ParamList := .string (l.leader :: l.name) :: l.params.map Value.param

end Line

namespace Value

def element : Value → Element
  | number d => .number (.unsigned d)
  | quoted s => .quoted s
  | array (d :: ds) => .array ⟨[], .unsigned d, by simp⟩ (ds.map fun d => ⟨[], .unsigned d, by simp⟩)
  | array [] => .empty
  | empty => .empty

theorem element_valid {v : Value} (hv : v.Valid) : v.element.Valid := by
  match v with
  | number d => trivial
  | quoted s => exact hv
  | array (d :: ds) => simpa [element, Element.Valid, cmdMaxArraySize, Nat.succ_le_iff] using hv.2.1
  | array [] => trivial
  | empty => trivial

theorem element_eq_empty {v : Value} (hv : v.Valid) : v.element = .empty ↔ v = .empty := by
  match v with
  | number d => simp [element]
  | quoted s => simp [element]
  | array (d :: ds) => simp [element]
  | array [] => exact absurd hv.1 (by simp)
  | empty => simp [element]

end Value

theorem intercalate_comma (x : List Char) (xs : List (List Char)) :
    [','].intercalate (x :: xs) = x ++ (xs.map (',' :: ·)).flatten := by
  induction xs generalizing x with
  | nil => simp
  | cons y ys ih =>
    rw [List.intercalate_cons_cons, ih, List.map_cons, List.flatten_cons]
    simp

variable {v : Value}

theorem Value.text_element (hv : v.Valid) : v.element.text = v.text := by
  match v with
  | number d => rfl
  | quoted s => rfl
  | array (d :: ds) =>
    rw [element, Element.text, text, List.map_cons, intercalate_comma]
    simp [itemsText, Item.text, Numeral.text, Numeral.unsigned, Function.comp_def]
  | array [] => exact absurd hv.1 (by simp)
  | empty => rfl

theorem numberParam_of_lt {v : Nat} (h : v < 2 ^ 31) :
    numberParam v = if v ≤ 65535 then .numShort v else .numInt v := by
  rw [numberParam, toInt32, if_pos h]
  by_cases hv : v ≤ 65535
  · rw [if_pos (by omega), if_pos hv]
    congr 1
    omega
  · rw [if_neg (by omega), if_neg hv]

theorem Value.param_element (hv : v.Valid) : v.element.param = v.param := by
  match v with
  | number d =>
    have hd : d.value < 2 ^ 31 := hv
    rw [element, Element.param, Numeral.read_unsigned (by omega), numberParam_of_lt hd, param]
  | quoted s => rfl
  | array (d :: ds) =>
    have hread : ∀ d' ∈ d :: ds, (Numeral.unsigned d').read = d'.value := fun d' hd' =>
      Numeral.read_unsigned (hv.2.2 d' hd')
    simp only [element, Element.param, param, List.map_cons, List.map_map, Item.read,
      hread d List.mem_cons_self, Param.array.injEq, List.cons.injEq, true_and]
    exact List.map_congr_left fun d' hd' => hread d' (List.mem_cons_of_mem _ hd')
  | array [] => exact absurd hv.1 (by simp)
  | empty => rfl

variable {alloc : Nat → Bool}

/-- A parameter in front of a separator or of the end of the line is detected and stored. The state
and the pointer that the element leaves behind are overwritten before they are read again. -/
theorem parseElement_value (halloc : ∀ n, alloc n = true) (hv : v.Valid) {index : Nat}
    (hindex : index ≠ 0) (state : State) (list : ParamList) {rest : List Char}
    (hrest : isSeparator (cur rest) = true ∨ isLfcr (cur rest) = true ∧ v ≠ .empty) :
    ∃ state' str, parseElement alloc ⟨state, index, v.text ++ rest, list⟩ =
      (some (.at rest), ⟨state', index, str, put list index v.param⟩) := by
  have hfollows : Follows v.element rest :=
    hrest.imp_right fun h => ⟨.inl h.1, fun he => h.2 ((Value.element_eq_empty hv).mp he)⟩
  obtain ⟨str, helement⟩ :=
    parseElement_element alloc (Value.element_valid hv) hindex state list hfollows
  rw [Value.text_element hv, Value.param_element hv, store_of_alloc halloc] at helement
  exact ⟨_, str, helement⟩

def Ends (tail : List Char) : Prop :=
  isTerminated (cur tail) = true ∨ isNotification (cur tail) = true

variable {tail : List Char}

theorem dropWhile_crlf (h : Ends tail) :
    (crlf ++ tail).dropWhile isLfcr = tail := by
  have htail : tail.dropWhile isLfcr = tail := by
    cases tail with
    | nil => rfl
    | cons c cs =>
      rw [Ends, isTerminated_iff, isNotification_iff, cur_cons] at h
      rcases h with rfl | rfl | rfl <;> rfl
  rw [List.dropWhile_append_of_pos (List.all_eq_true.mp (show crlf.all isLfcr = true from rfl)), htail]

theorem peek_crlf (maxParams : Nat) (s : ParserState) (h : Ends tail) :
    peek maxParams s (.at (crlf ++ tail)) = .ok (.done { s with str := tail } false) := by
  simp only [peek, Cursor.deref, bind, Except.bind, dropWhile_crlf h]
  rw [if_pos ⟨rfl, h⟩]
  rfl

variable {maxParams : Nat}

theorem peek_next {s : ParserState} {str : List Char} (h : isLfcr (cur str) = false)
    (hroom : s.index + 1 < maxParams) :
    peek maxParams s (.at str) = .ok (.next { s with str, index := s.index + 1 }) := by
  simp only [peek, Cursor.deref, bind, Except.bind, h, Bool.false_eq_true, false_and, if_false,
    if_neg (show ¬ s.index + 1 = maxParams by omega)]
  rfl

theorem parseRound_value (halloc : ∀ n, alloc n = true) (hv : v.Valid) {index : Nat}
    (hindex : index ≠ 0) (maxParams : Nat) (state : State) (list : ParamList) {str rest : List Char}
    (hrest : isSeparator (cur rest) = true ∨ isLfcr (cur rest) = true ∧ v ≠ .empty)
    (hstr : (if isSpace (cur str) then str.tail else str) = v.text ++ rest) :
    ∃ state' str', parseRound alloc maxParams ⟨state, index, str, list⟩ =
      afterElement alloc maxParams ⟨state', index, str', put list index v.param⟩ (.at rest) := by
  obtain ⟨state', str', helement⟩ := parseElement_value halloc hv hindex state list hrest
  refine ⟨state', str', ?_⟩
  simp only [parseRound, hstr, helement]

theorem afterElement_crlf (alloc : Nat → Bool) (maxParams : Nat) (s : ParserState) (h : Ends tail) :
    afterElement alloc maxParams s (.at (crlf ++ tail)) =
      .ok (.done { s with str := tail } false) := by
  have hsep : isSeparator (cur (crlf ++ tail)) = false := rfl
  simp only [afterElement, Cursor.deref, bind, Except.bind, hsep, Bool.false_eq_true,
    not_false_eq_true, if_true]
  exact peek_crlf maxParams s h

theorem afterElement_separator_crlf (alloc : Nat → Bool) {s : ParserState}
    (hroom : s.index + 1 ≠ maxParams) {c : Char} (hc : isSeparator c = true) (h : Ends tail) :
    afterElement alloc maxParams s (.at (c :: (crlf ++ tail))) =
      .ok (.done ⟨.optional, s.index + 1, tail, put s.list (s.index + 1) .empty⟩ false) := by
  have hsep : isSeparator (cur (c :: (crlf ++ tail))) = true := hc
  have hlfcr : isLfcr (cur (crlf ++ tail)) = true := rfl
  have hempty := parseElement_separator alloc (Nat.succ_ne_zero s.index) s.state s.list hsep
  simp only [afterElement, Cursor.deref, bind, Except.bind, hsep, hlfcr, List.tail_cons,
    not_true_eq_false, if_false, if_neg hroom, hempty]
  exact peek_crlf maxParams _ h

theorem afterElement_separator (alloc : Nat → Bool) {s : ParserState}
    (hroom : s.index + 1 < maxParams) {c : Char} {rest : List Char} (hsep : isSeparator c = true)
    (h : isLfcr (cur rest) = false) :
    afterElement alloc maxParams s (.at (c :: rest)) =
      .ok (.next { s with str := rest, index := s.index + 1 }) := by
  simp only [afterElement, Cursor.deref, bind, Except.bind, cur_cons, hsep, h, List.tail_cons,
    not_true_eq_false, if_false, Bool.false_eq_true, not_false_eq_true, if_true]
  exact peek_next h hroom

theorem paramsText_cons_cons (v w : Value) (vs : List Value) :
    paramsText (v :: w :: vs) = v.text ++ ',' :: paramsText (w :: vs) := by
  simp only [paramsText, List.map_cons, List.intercalate_cons_cons, List.singleton_append,
    List.append_assoc]

theorem paramsText_singleton (v : Value) : paramsText [v] = v.text := by
  simp [paramsText]

theorem classes_of_text (hne : v ≠ .empty) (rest : List Char) :
    isTerminated (cur (v.text ++ rest)) = false ∧ isSpace (cur (v.text ++ rest)) = false ∧
      isLfcr (cur (v.text ++ rest)) = false := by
  cases v with
  | number d =>
    obtain ⟨c, cs, hd, hc⟩ := d.exists_cons
    have hcur : cur ((Value.number d).text ++ rest) = c := by rw [Value.text, hd]; rfl
    have hnul : c ≠ nul := ne_of_isDigit hc (by decide)
    rw [hcur]
    exact ⟨by simpa [isTerminated] using hnul, (classes_of_isDigit hc).1, (classes_of_isDigit hc).2.1⟩
  | quoted s => exact ⟨rfl, rfl, rfl⟩
  | array ds => exact ⟨rfl, rfl, rfl⟩
  | empty => exact absurd rfl hne

theorem classes_of_paramsText {vs : List Value} (hne : vs ≠ []) (hempty : vs ≠ [.empty])
    (rest : List Char) :
    isTerminated (cur (paramsText vs ++ rest)) = false ∧
      isSpace (cur (paramsText vs ++ rest)) = false ∧
      isLfcr (cur (paramsText vs ++ rest)) = false := by
  match vs with
  | [] => exact absurd rfl hne
  | [v] =>
    rw [paramsText_singleton]
    exact classes_of_text (fun h => hempty (h ▸ rfl)) rest
  | v :: w :: ws =>
    rw [paramsText_cons_cons, List.append_assoc]
    by_cases hv : v = .empty
    · subst hv
      exact ⟨rfl, rfl, rfl⟩
    · exact classes_of_text hv _

def putAll : ParamList → Nat → List Param → ParamList
  | list, _, [] => list
  | list, index, p :: ps => putAll (put list index p) (index + 1) ps

theorem putAll_cleared (ps : List Param) :
    ∀ (stored : ParamList) (k : Nat), ps.length ≤ k →
      putAll (stored ++ List.replicate k .invalid) stored.length ps =
        stored ++ ps ++ List.replicate (k - ps.length) .invalid := by
  induction ps with
  | nil => intro stored k _; simp [putAll]
  | cons p ps ih =>
    intro stored k hk
    obtain ⟨k, rfl⟩ : ∃ n, k = n + 1 := ⟨k - 1, by simp only [List.length_cons] at hk; omega⟩
    have hput : put (stored ++ List.replicate (k + 1) .invalid) stored.length p =
        (stored ++ [p]) ++ List.replicate k .invalid := by
      rw [put, List.set_append_right _ _ (Nat.le_refl _), Nat.sub_self, List.replicate_succ,
        List.set_cons_zero, List.append_assoc, List.singleton_append]
    rw [putAll, hput, show stored.length + 1 = (stored ++ [p]).length by simp,
      ih (stored ++ [p]) k (by simpa using hk)]
    simp

theorem parseLoop_params (halloc : ∀ n, alloc n = true) (hends : Ends tail) :
    ∀ (vs : List Value), (∀ v ∈ vs, v.Valid) → vs ≠ [] → vs ≠ [.empty] →
      ∀ (rounds index : Nat) (state : State) (str : List Char) (list : ParamList),
        index ≠ 0 → index + vs.length ≤ maxParams → vs.length ≤ rounds →
        isTerminated (cur str) = false →
        (if isSpace (cur str) then str.tail else str) = paramsText vs ++ (crlf ++ tail) →
        ∃ s, parseLoop alloc maxParams rounds ⟨state, index, str, list⟩ = .ok (s, false) ∧
          s.str = tail ∧ s.list = putAll list index (vs.map Value.param) := by
  intro vs
  induction vs with
  | nil => intro _ hne; exact absurd rfl hne
  | cons v ws ih =>
    intro hvalid _ hnotEmpty rounds index state str list hindex hroom hrounds hstr htext
    have hv := hvalid v List.mem_cons_self
    obtain ⟨rounds, rfl⟩ : ∃ n, rounds = n + 1 :=
      ⟨rounds - 1, by simp only [List.length_cons] at hrounds; omega⟩
    simp only [List.length_cons] at hroom hrounds
    match ws with
    | [] =>
      have hne : v ≠ .empty := fun h => hnotEmpty (h ▸ rfl)
      rw [paramsText_singleton] at htext
      obtain ⟨state', str', hround⟩ := parseRound_value halloc hv hindex maxParams state list
        (.inr ⟨rfl, hne⟩) htext
      rw [afterElement_crlf alloc maxParams _ hends] at hround
      exact ⟨_, parseLoop_done rounds hstr (by simp only; omega) hround, rfl, rfl⟩
    | w :: ws =>
      rw [paramsText_cons_cons, List.append_assoc, List.cons_append] at htext
      simp only [List.length_cons] at hroom
      obtain ⟨state', str', hround⟩ := parseRound_value halloc hv hindex maxParams state list
        (.inl rfl) htext
      by_cases hlast : w :: ws = [.empty]
      · -- The trailing empty parameter is stored in the same round.
        rw [hlast, paramsText_singleton, Value.text, List.nil_append,
          afterElement_separator_crlf alloc (by simp only; omega) rfl hends] at hround
        rw [hlast]
        exact ⟨_, parseLoop_done rounds hstr (by simp only; omega) hround, rfl, rfl⟩
      · obtain ⟨hterm, hspace, hlfcr⟩ := classes_of_paramsText (List.cons_ne_nil w ws) hlast (crlf ++ tail)
        rw [afterElement_separator alloc (by simp only; omega) rfl hlfcr] at hround
        obtain ⟨s, hloop, hs, hlist⟩ := ih (fun x hx => hvalid x (List.mem_cons_of_mem _ hx))
          (List.cons_ne_nil w ws) hlast rounds (index + 1) state' _ (put list index v.param)
          (Nat.succ_ne_zero index) (by simp only [List.length_cons]; omega) (by omega) hterm
          (by rw [hspace]; rfl)
        exact ⟨s, (parseLoop_next rounds hstr (by simp only; omega) hround).trans hloop, hs, hlist⟩

theorem parseRound_name (halloc : ∀ n, alloc n = true) (l : Line) (hroom : 1 < maxParams)
    (state : State) (list : ParamList) (rest : List Char) :
    parseRound alloc maxParams ⟨state, 0, l.leader :: (l.name ++ ':' :: ' ' :: rest), list⟩ =
      .ok (.next ⟨.notification, 1, ' ' :: rest, put list 0 (.string (l.leader :: l.name))⟩) := by
  have hspace : isSpace l.leader = false := by
    rcases isNotification_iff.mp l.leader_isNotification with h | h <;> rw [h] <;> rfl
  have hterm : isTerminated l.leader = false := by
    rcases isNotification_iff.mp l.leader_isNotification with h | h <;> rw [h] <;> rfl
  have hname : ∀ c ∈ l.name, isValidNotificationChar c = true := fun c hc =>
    isValidNotificationChar_of_isAlpha (l.name_isAlpha c hc)
  have helement : parseElement alloc
      ⟨state, 0, l.leader :: (l.name ++ ':' :: ' ' :: rest), list⟩ =
      (some (.at (':' :: ' ' :: rest)), ⟨.notification, 0, l.leader :: (l.name ++ ':' :: ' ' :: rest),
        put list 0 (.string (l.leader :: l.name))⟩) := by
    simp only [parseElement, detectType, cur_cons, l.leader_isNotification, true_and, if_true,
      processElement, hterm, Bool.false_eq_true, if_false, List.tail_cons,
      List.dropWhile_append_of_pos hname, List.takeWhile_append_of_pos hname,
      List.dropWhile_cons_of_neg (show ¬ isValidNotificationChar ':' = true by decide),
      List.takeWhile_cons_of_neg (show ¬ isValidNotificationChar ':' = true by decide),
      List.append_nil, stringPut, halloc]
    rfl
  simp only [parseRound, cur_cons, hspace, Bool.false_eq_true, if_false, helement]
  exact afterElement_separator alloc hroom rfl rfl

theorem paramsFromStr_line (halloc : ∀ n, alloc n = true) (l : Line) (hends : Ends tail)
    {list : ParamList} (hcapacity : l.params.length + 1 ≤ list.length) :
    paramsFromStr alloc (l.text ++ tail) list =
      .ok ⟨if ¬ isTerminated (cur tail) then .EAGAIN else .success, tail,
        l.entries ++ List.replicate (list.length - (l.params.length + 1)) .invalid⟩ := by
  have hpos : 0 < l.params.length := List.length_pos_iff.mpr l.params_ne_nil
  have hclear : listClear list = List.replicate list.length .invalid := by
    simp [listClear, List.map_const']
  have htext : l.text ++ tail =
      l.leader :: (l.name ++ ':' :: ' ' :: (paramsText l.params ++ (crlf ++ tail))) := by
    simp [Line.text]
  obtain ⟨n, hn⟩ : ∃ n, list.length = n + 1 := ⟨list.length - 1, by omega⟩
  have hleader : isTerminated l.leader = false := by
    rcases isNotification_iff.mp l.leader_isNotification with h | h <;> rw [h] <;> rfl
  have hround := parseRound_name halloc l (show 1 < n + 1 by omega) .idle
    (List.replicate (n + 1) .invalid) (paramsText l.params ++ (crlf ++ tail))
  have hname := parseLoop_next n (by exact hleader) (Nat.succ_pos n) hround
  obtain ⟨s, hloop, hstr, hlist⟩ := parseLoop_params halloc hends l.params l.params_valid
    l.params_ne_nil l.params_ne_empty n 1 .notification
    (' ' :: (paramsText l.params ++ (crlf ++ tail)))
    (put (List.replicate (n + 1) .invalid) 0 (.string (l.leader :: l.name)))
    Nat.one_ne_zero (show 1 + l.params.length ≤ n + 1 by omega) (by omega) rfl rfl
  -- The name and the parameters are stored one after the other in the cleared list.
  have hstored : s.list = l.entries ++ List.replicate (n + 1 - (l.params.length + 1)) .invalid := by
    have := putAll_cleared l.entries [] (n + 1) (by simp [Line.entries]; omega)
    simpa [Line.entries, putAll, hlist] using this
  simp only [paramsFromStr, maxParamsFromStr, Nat.min_self, parseParam, hclear, htext, hn,
    hname.trans hloop, bind, Except.bind, Bool.false_eq_true, if_false, hstr, hstored]
  rfl

def callAgain (alloc : Nat → Bool) : Nat → List Char → ParamList → Except Fault (List Result)
  | 0, _, _ => .ok []
  | calls + 1, str, list => do
    let r ← paramsFromStr alloc str list
    if r.code = .EAGAIN then return r :: (← callAgain alloc calls r.next r.list)
    return [r]

def linesText (ls : List Line) : List Char := (ls.map Line.text).flatten

def lineResults (capacity : Nat) : List Line → List Result
  | [] => []
  | l :: ls =>
    ⟨if ls = [] then .success else .EAGAIN, linesText ls,
      l.entries ++ List.replicate (capacity - (l.params.length + 1)) .invalid⟩ ::
      lineResults capacity ls

theorem ends_linesText (ls : List Line) : Ends (linesText ls) ∧
    (isTerminated (cur (linesText ls)) = true ↔ ls = []) := by
  cases ls with
  | nil => exact ⟨.inl rfl, by simp [linesText, isTerminated]⟩
  | cons l ls =>
    have hcur : cur (linesText (l :: ls)) = l.leader := rfl
    rw [Ends, hcur]
    refine ⟨.inr l.leader_isNotification, ?_⟩
    rcases isNotification_iff.mp l.leader_isNotification with h | h <;> rw [h] <;> simp [isTerminated, nul]

/-- Lines that were written one after the other are read back by one call for each, the last of
which returns 0 and all others `-EAGAIN`. -/
theorem callAgain_lines {alloc : Nat → Bool} (halloc : ∀ n, alloc n = true) (ls : List Line)
    (hne : ls ≠ []) (list : ParamList)
    (hcapacity : ∀ l ∈ ls, l.params.length + 1 ≤ list.length) {calls : Nat}
    (hcalls : ls.length ≤ calls) :
    callAgain alloc calls (linesText ls) list = .ok (lineResults list.length ls) := by
  induction ls generalizing list calls with
  | nil => exact absurd rfl hne
  | cons l ls ih =>
    obtain ⟨calls, rfl⟩ : ∃ n, calls = n + 1 :=
      ⟨calls - 1, by simp only [List.length_cons] at hcalls; omega⟩
    obtain ⟨hends, hterm⟩ := ends_linesText ls
    have hcall := paramsFromStr_line halloc l hends (hcapacity l List.mem_cons_self)
    have hlines : linesText (l :: ls) = l.text ++ linesText ls := by simp [linesText]
    simp only [callAgain, hlines, hcall, bind, Except.bind, hterm, lineResults]
    by_cases hls : ls = []
    · subst hls
      rfl
    · set stored := l.entries ++ List.replicate (list.length - (l.params.length + 1)) Param.invalid
        with hstored
      -- The list keeps its capacity from one call to the next.
      have hlength : stored.length = list.length := by
        have := hcapacity l List.mem_cons_self
        simp only [hstored, Line.entries, List.length_append, List.length_cons, List.length_map,
          List.length_replicate]
        omega
      have hrest := ih hls stored (fun l' hl' => by
        rw [hlength]; exact hcapacity l' (List.mem_cons_of_mem _ hl'))
        (show ls.length ≤ calls by simpa using hcalls)
      rw [hlength] at hrest
      simp only [hls, not_false_eq_true, if_true, if_false, hrest]
      rfl

def registrationLine : Line where
  leader := '+'
  name := "CEREG".toList
  params := [.number (.ofNat 2), .quoted "76C1".toList, .empty, .array [.ofNat 7, .ofNat 4294967295],
    .empty]
  leader_isNotification := rfl
  name_ne_nil := by decide
  name_isAlpha := List.all_eq_true.mp rfl
  params_ne_nil := List.cons_ne_nil _ _
  params_ne_empty := by simp
  params_valid := by simp [Value.Valid, dblquote, nul]

def counterLine : Line where
  leader := '%'
  name := "N".toList
  params := [.number (.ofNat 2147483647)]
  leader_isNotification := rfl
  name_ne_nil := by decide
  name_isAlpha := List.all_eq_true.mp rfl
  params_ne_nil := List.cons_ne_nil _ _
  params_ne_empty := by simp
  params_valid := by simp [Value.Valid]

/-- Two lines in a list of seven, when every allocation succeeds. -/
theorem registrationAndCounter_read :
    callAgain (fun _ => true) 2 (linesText [registrationLine, counterLine])
        (List.replicate 7 .invalid) =
      .ok (lineResults 7 [registrationLine, counterLine]) :=
  callAgain_lines (fun _ => rfl) [registrationLine, counterLine] (by simp) (List.replicate 7 .invalid)
    (by simp [registrationLine, counterLine]) (by decide)

end SdkNrf.AtParser
