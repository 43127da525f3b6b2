import SdkNrf.AtParser.RoundTrip

/-!
# Commands and notifications

The grammar of what the parser reads in one call, with any separators and blanks, signed numbers of
any size and PDU data, and what a run over a line stores in a list that may be too short for it.
-/

namespace SdkNrf.AtParser

inductive Marker
  | set
  | read
  | test

def Marker.text : Marker → List Char
  | set => []
  | read => ['?']
  | test => ['=', '?']

inductive Head
  | notification (leader : Char) (name : List Char) (hleader : isNotification leader = true)
      (hname : ∀ c ∈ name, c.isAlpha = true)
  | command (a t lead : Char) (name : List Char) (marker : Marker) (ha : a = 'A' ∨ a = 'a')
      (ht : t = 'T' ∨ t = 't') (hlead : lead = '+' ∨ lead = '%' ∨ lead = '#')
      (hname : ∀ c ∈ name, c.isAlpha = true)
  | attention (a t : Char) (ha : a = 'A' ∨ a = 'a') (ht : t = 'T' ∨ t = 't')

namespace Head

def text : Head → List Char
  | notification leader name _ _ => leader :: name
  | command a t lead name marker _ _ _ _ => a :: t :: lead :: (name ++ marker.text)
  | attention a t _ _ => [a, t]

def name : Head → List Char
  | notification leader name _ _ => leader :: name
  | command a t lead name _ _ _ _ _ => a :: t :: lead :: name
  | attention a t _ _ => [a, t]

def state : Head → State
  | notification _ _ _ _ => .notification
  | _ => .command

/-- A lone `AT` is the whole line. -/
def TakesParams : Head → Prop
  | attention _ _ _ _ => False
  | _ => True

end Head

/-- A parameter behind the name: an element with the separator and the blank in front of it, or PDU
data on a line of its own. -/
inductive Token
  | element (separator : Char) (blank : Option Char) (e : Element)
  | pdu (digits : List Char)

namespace Token

def text : Token → List Char
  | element separator blank e => separator :: (blank.toList ++ e.text)
  | pdu digits => crlf ++ digits

def param : Token → Param
  | element _ _ e => e.param
  | pdu digits => .string digits

def state : Token → State
  | element _ _ e => e.state
  | pdu _ => .smsPdu

end Token

def tokensText (ts : List Token) : List Char := (ts.map Token.text).flatten

@[simp] theorem tokensText_nil : tokensText [] = [] := rfl

theorem tokensText_cons (t : Token) (ts : List Token) :
    tokensText (t :: ts) = t.text ++ tokensText ts := by
  simp [tokensText]

/-- Tokens behind an element that was read in the given state. PDU data follows a number only, and
an empty parameter at the end of the line has no blank. -/
def WellFormed : State → List Token → Prop
  | _, [] => True
  | _, .element separator blank e :: ts =>
    isSeparator separator = true ∧ (∀ b ∈ blank, isSpace b = true ∧ isLfcr b = false) ∧ e.Valid ∧
      (e = .empty ∧ ts = [] → blank = none) ∧ WellFormed e.state ts
  | state, .pdu digits :: ts =>
    state = .number ∧ digits ≠ [] ∧ (∀ c ∈ digits, isXDigit c = true) ∧ WellFormed .smsPdu ts

inductive Ending
  | string
  | line (tail : List Char) (htail : Ends tail)

namespace Ending

def text : Ending → List Char
  | string => []
  | line tail _ => crlf ++ tail

def closed : Ending → Bool
  | string => false
  | line _ _ => true

end Ending

structure CommandLine where
  head : Head
  tokens : List Token
  ending : Ending
  wellFormed : WellFormed head.state tokens
  takesParams : head.TakesParams ∨ tokens = []

namespace CommandLine

def text (l : CommandLine) : List Char := l.head.text ++ (tokensText l.tokens ++ l.ending.text)

def params (l : CommandLine) : List Param := .string l.head.name :: l.tokens.map Token.param

end CommandLine

def Allocated (alloc : Nat → Bool) : Param → Prop
  | .string s => alloc (s.length + 1) = true
  | .array vs => alloc (vs.length * 4) = true
  | _ => True

instance (alloc : Nat → Bool) : (p : Param) → Decidable (Allocated alloc p)
  | .string s => inferInstanceAs (Decidable (alloc (s.length + 1) = true))
  | .array vs => inferInstanceAs (Decidable (alloc (vs.length * 4) = true))
  | .invalid | .numShort _ | .numInt _ | .empty => inferInstanceAs (Decidable True)

def kept (alloc : Nat → Bool) (p : Param) : Param := if Allocated alloc p then p else .invalid

def storeAll (alloc : Nat → Bool) : ParamList → Nat → List Param → ParamList
  | list, _, [] => list
  | list, index, p :: ps => storeAll alloc (store alloc list index p) (index + 1) ps

theorem store_cleared (alloc : Nat → Bool) (stored : ParamList) (k : Nat) (p : Param) :
    store alloc (stored ++ List.replicate (k + 1) .invalid) stored.length p =
      (stored ++ [kept alloc p]) ++ List.replicate k .invalid := by
  have hput (q : Param) : put (stored ++ List.replicate (k + 1) .invalid) stored.length q =
      (stored ++ [q]) ++ List.replicate k .invalid := by
    rw [put, List.set_append_right _ _ (Nat.le_refl _), Nat.sub_self, List.replicate_succ,
      List.set_cons_zero, List.append_assoc, List.singleton_append]
  have hsame : stored ++ List.replicate (k + 1) .invalid =
      (stored ++ [.invalid]) ++ List.replicate k .invalid := by
    rw [List.replicate_succ, List.append_assoc, List.singleton_append]
  cases p with
  | string s =>
    by_cases h : alloc (s.length + 1) = true
    · simp only [store, stringPut, h, if_true, hput, kept, Allocated]
    · simp only [store, stringPut, h, if_false, hsame, kept, Allocated, Bool.false_eq_true]
  | array vs =>
    by_cases h : alloc (vs.length * 4) = true
    · simp only [store, arrayPut, h, if_true, hput, kept, Allocated]
    · simp only [store, arrayPut, h, if_false, hsame, kept, Allocated, Bool.false_eq_true]
  | invalid => exact hput .invalid
  | numShort v => exact hput (.numShort v)
  | numInt v => exact hput (.numInt v)
  | empty => exact hput .empty

theorem storeAll_cleared (alloc : Nat → Bool) (ps : List Param) :
    ∀ (stored : ParamList) (k : Nat), ps.length ≤ k →
      storeAll alloc (stored ++ List.replicate k .invalid) stored.length ps =
        stored ++ ps.map (kept alloc) ++ List.replicate (k - ps.length) .invalid := by
  induction ps with
  | nil =>
    intro stored k _
    simp [storeAll]
  | cons p ps ih =>
    intro stored k hk
    obtain ⟨k, rfl⟩ : ∃ n, k = n + 1 := ⟨k - 1, by simp only [List.length_cons] at hk; omega⟩
    have hlength : stored.length + 1 = (stored ++ [kept alloc p]).length := by simp
    rw [storeAll, store_cleared, hlength, ih (stored ++ [kept alloc p]) k (by simpa using hk)]
    simp

/-- The parameters behind the name that a run with enough room stores: an empty one at the very end
of the string is not seen. -/
def seen (closed : Bool) : List Token → List Param
  | [] => []
  | [t] => if t.param = .empty ∧ closed = false then [] else [t.param]
  | t :: t' :: ts => t.param :: seen closed (t' :: ts)

def LastEmpty (ts : List Token) : Prop := ts.getLast?.map Token.param = some .empty

instance (ts : List Token) : Decidable (LastEmpty ts) := inferInstanceAs (Decidable (_ = _))

def EndsName (c : Char) : Prop :=
  isSeparator c = true ∨ isLfcr c = true ∨ isTerminated c = true

theorem classes_of_endsName {c : Char} (h : EndsName c) :
    isValidNotificationChar c = false ∧ c ≠ '?' := by
  rcases h with h | h | h
  · rcases isSeparator_iff.mp h with rfl | rfl | rfl <;> exact ⟨by decide, by decide⟩
  · rcases isLfcr_iff.mp h with rfl | rfl <;> exact ⟨by decide, by decide⟩
  · rcases isTerminated_iff.mp h with rfl
    exact ⟨by decide, by decide⟩

theorem classes_of_separator {c : Char} (h : isSeparator c = true) :
    isSpace c = false ∧ isLfcr c = false ∧ isTerminated c = false ∧ c ≠ '?' := by
  rcases isSeparator_iff.mp h with rfl | rfl | rfl <;> exact ⟨rfl, rfl, rfl, by decide⟩

variable {rest : List Char} {e : Element}

theorem classes_of_element (h : Follows e rest) :
    isSpace (cur (e.text ++ rest)) = false ∧ isLfcr (cur (e.text ++ rest)) = false ∧
      isTerminated (cur (e.text ++ rest)) = false ∧ cur (e.text ++ rest) ≠ '?' := by
  cases e with
  | number n =>
    obtain ⟨c, cs, htext, hc⟩ := n.exists_cons
    have hcur : cur ((Element.number n).text ++ rest) = c := by rw [Element.text, htext]; rfl
    obtain ⟨hspace, hlfcr, -, -, hterm⟩ := classes_of_numeral hc
    have hne : c ≠ '?' := by
      rintro rfl
      rcases hc with hc | hc <;> cases hc
    rw [hcur]
    exact ⟨hspace, hlfcr, hterm, hne⟩
  | quoted s => exact ⟨rfl, rfl, rfl, show dblquote ≠ '?' by decide⟩
  | array i is => exact ⟨rfl, rfl, rfl, show '(' ≠ '?' by decide⟩
  | empty => exact classes_of_separator (h.resolve_right fun h => h.2 rfl)

theorem classes_of_blank {blank : Option Char}
    (hblank : ∀ b ∈ blank, isSpace b = true ∧ isLfcr b = false) (h : Follows e rest) :
    isLfcr (cur (blank.toList ++ (e.text ++ rest))) = false ∧
      isTerminated (cur (blank.toList ++ (e.text ++ rest))) = false ∧
      cur (blank.toList ++ (e.text ++ rest)) ≠ '?' ∧
      (if isSpace (cur (blank.toList ++ (e.text ++ rest)))
        then (blank.toList ++ (e.text ++ rest)).tail else blank.toList ++ (e.text ++ rest)) =
          e.text ++ rest := by
  cases blank with
  | none =>
    obtain ⟨hspace, hlfcr, hterm, hne⟩ := classes_of_element h
    exact ⟨hlfcr, hterm, hne, by simp [hspace]⟩
  | some b =>
    obtain ⟨hspace, hlfcr⟩ := hblank b rfl
    have hterm : isTerminated b = false := by
      rw [Bool.eq_false_iff]
      intro ht
      rw [isTerminated_iff.mp ht] at hspace
      cases hspace
    have hne : b ≠ '?' := by
      rintro rfl
      cases hspace
    exact ⟨hlfcr, hterm, hne, by simp [hspace]⟩

variable {ts : List Token}

theorem follows_of_wellFormed (h : WellFormed e.state ts) (hlast : ¬ (e = .empty ∧ ts = []))
    (ending : Ending) :
    Follows e (tokensText ts ++ ending.text) := by
  match ts with
  | [] =>
    have hne : e ≠ .empty := fun he => hlast ⟨he, rfl⟩
    cases ending with
    | string => exact .inr ⟨.inr rfl, hne⟩
    | line tail htail => exact .inr ⟨.inl rfl, hne⟩
  | .element separator blank e' :: ts =>
    rw [tokensText_cons]
    exact .inl h.1
  | .pdu digits :: ts =>
    have hne : e ≠ .empty := by
      rintro rfl
      cases h.1
    rw [tokensText_cons]
    exact .inr ⟨.inl rfl, hne⟩

theorem endsName_tokensText {state : State} (h : WellFormed state ts) (ending : Ending) :
    EndsName (cur (tokensText ts ++ ending.text)) := by
  match ts with
  | [] =>
    cases ending with
    | string => exact .inr (.inr rfl)
    | line tail htail => exact .inr (.inl rfl)
  | .element separator blank e :: ts =>
    rw [tokensText_cons]
    exact .inl h.1
  | .pdu digits :: ts =>
    rw [tokensText_cons]
    exact .inr (.inl rfl)

theorem skipReadTest_tokensText {state : State} (h : WellFormed state ts) (ending : Ending) :
    skipReadTest (tokensText ts ++ ending.text) = tokensText ts ++ ending.text := by
  have hne := (classes_of_endsName (endsName_tokensText h ending)).2
  have htest : ¬ (cur (tokensText ts ++ ending.text) = '=' ∧
      cur (tokensText ts ++ ending.text).tail = '?') := by
    rintro ⟨hcur, htail⟩
    match ts with
    | [] => cases ending <;> cases hcur
    | .pdu digits :: ts =>
      rw [tokensText_cons] at hcur
      cases hcur
    | .element separator blank e :: ts =>
      obtain ⟨-, hblank, he, hlast, hts⟩ := h
      have htext : (tokensText (.element separator blank e :: ts) ++ ending.text).tail =
          blank.toList ++ (e.text ++ (tokensText ts ++ ending.text)) := by
        simp [tokensText_cons, Token.text]
      rw [htext] at htail
      by_cases hempty : e = .empty ∧ ts = []
      · rw [hlast hempty, hempty.1, hempty.2] at htail
        cases ending <;> cases htail
      · exact (classes_of_blank hblank (follows_of_wellFormed hts hempty ending)).2.2.1 htail
  rw [skipReadTest, if_neg htest, if_neg hne]

theorem span_name {name rest : List Char} (hname : ∀ c ∈ name, c.isAlpha = true)
    (hrest : isValidNotificationChar (cur rest) = false) :
    (name ++ rest).takeWhile isValidNotificationChar = name ∧
      (name ++ rest).dropWhile isValidNotificationChar = rest := by
  have hvalid : ∀ c ∈ name, isValidNotificationChar c = true := fun c hc =>
    isValidNotificationChar_of_isAlpha (hname c hc)
  have htail : rest.takeWhile isValidNotificationChar = [] ∧
      rest.dropWhile isValidNotificationChar = rest := by
    cases rest with
    | nil => exact ⟨rfl, rfl⟩
    | cons r rs =>
      have hr : isValidNotificationChar r = false := hrest
      simp [hr]
  rw [List.takeWhile_append_of_pos hvalid, List.dropWhile_append_of_pos hvalid, htail.1, htail.2,
    List.append_nil]
  exact ⟨rfl, rfl⟩

theorem isCommand_special {a t : Char} (ha : a = 'A' ∨ a = 'a') (ht : t = 'T' ∨ t = 't')
    (h : cur rest = '+' ∨ cur rest = '%' ∨ cur rest = '#' ∨ isLfcr (cur rest) = true ∨
        isTerminated (cur rest) = true) :
    isCommand (a :: t :: rest) = true := by
  have hupper : a.toUpper = 'A' ∧ t.toUpper = 'T' := by
    rcases ha with rfl | rfl <;> rcases ht with rfl | rfl <;> decide
  simpa [isCommand, hupper, or_assoc] using h

theorem take_append_length (name rest : List Char) :
    (name ++ rest).take ((name ++ rest).length - rest.length) = name := by
  simp

theorem skipReadTest_marker (marker : Marker) (h : skipReadTest rest = rest) :
    skipReadTest (marker.text ++ rest) = rest := by
  cases marker with
  | set => exact h
  | read => rfl
  | test => rfl

theorem isValidNotificationChar_marker (marker : Marker)
    (h : isValidNotificationChar (cur rest) = false) :
    isValidNotificationChar (cur (marker.text ++ rest)) = false := by
  cases marker with
  | set => exact h
  | read => exact (show isValidNotificationChar '?' = false by decide)
  | test => exact (show isValidNotificationChar '=' = false by decide)

theorem parseElement_head (alloc : Nat → Bool) (h : Head) (state : State) (list : ParamList)
    (hends : EndsName (cur rest)) (hread : skipReadTest rest = rest)
    (hparams : h.TakesParams ∨ isLfcr (cur rest) = true ∨ isTerminated (cur rest) = true) :
    parseElement alloc ⟨state, 0, h.text ++ rest, list⟩ =
      (some (.at rest), ⟨h.state, 0, h.text ++ rest, store alloc list 0 (.string h.name)⟩) := by
  have hvalid := (classes_of_endsName hends).1
  cases h with
  | notification leader name hleader hname =>
    obtain ⟨htake, hdrop⟩ := span_name hname hvalid
    have hterm : isTerminated leader = false := by
      rcases isNotification_iff.mp hleader with h | h <;> rw [h] <;> rfl
    simp only [parseElement, Head.text, List.cons_append, detectType, cur_cons, hleader, true_and,
      if_true, processElement, hterm, Bool.false_eq_true, if_false, List.tail_cons, htake, hdrop]
    rfl
  | command a t lead name marker ha ht hlead hname =>
    obtain ⟨-, hdrop⟩ := span_name hname (isValidNotificationChar_marker marker hvalid)
    have htext : (Head.command a t lead name marker ha ht hlead hname).text ++ rest =
        a :: t :: lead :: (name ++ (marker.text ++ rest)) := by
      simp [Head.text]
    have hcommand : isCommand (a :: t :: lead :: (name ++ (marker.text ++ rest))) = true :=
      isCommand_special ha ht (hlead.imp_right fun h => h.imp_right .inl)
    have hfirst : isNotification a = false ∧ isTerminated a = false := by
      rcases ha with rfl | rfl <;> exact ⟨rfl, rfl⟩
    have hprefix : skipCommandPrefix (a :: t :: lead :: (name ++ (marker.text ++ rest))) =
        name ++ (marker.text ++ rest) := by
      rcases hlead with rfl | rfl | rfl <;> rfl
    have hname' := take_append_length (a :: t :: lead :: name) (marker.text ++ rest)
    simp only [List.cons_append] at hname'
    rw [htext]
    simp only [parseElement, detectType, cur_cons, hfirst, hcommand, Bool.false_eq_true, and_false,
      and_true, if_false, if_true, processElement, hprefix, hdrop, hname',
      skipReadTest_marker marker hread]
    rfl
  | attention a t ha ht =>
    have hlast := hparams.resolve_left id
    have hcommand : isCommand (a :: t :: rest) = true :=
      isCommand_special ha ht (.inr (.inr (.inr hlast)))
    have hfirst : isNotification a = false ∧ isTerminated a = false := by
      rcases ha with rfl | rfl <;> exact ⟨rfl, rfl⟩
    have hprefix : skipCommandPrefix (a :: t :: rest) = rest := by
      simp only [skipCommandPrefix, List.drop_succ_cons, List.drop_zero, if_pos hlast]
    have hdrop := (span_name (show ∀ c ∈ ([] : List Char), c.isAlpha = true by simp) hvalid).2
    have hname := take_append_length [a, t] rest
    simp only [List.nil_append, List.cons_append] at hdrop hname
    simp only [parseElement, Head.text, List.cons_append, List.nil_append, detectType, cur_cons,
      hfirst, hcommand, Bool.false_eq_true, and_false, and_true, if_false, if_true, processElement,
      hprefix, hdrop, hname, hread]
    rfl

def continueWith (alloc : Nat → Bool) (maxParams rounds : Nat) :
    Round → Except Fault (ParserState × Bool)
  | .done s oversized => .ok (s, oversized)
  | .next s => parseLoop alloc maxParams rounds s

theorem parseLoop_round {alloc : Nat → Bool} {maxParams : Nat} {s : ParserState} (rounds : Nat)
    (hstr : isTerminated (cur s.str) = false) (hindex : s.index < maxParams) :
    parseLoop alloc maxParams (rounds + 1) s =
      parseRound alloc maxParams s >>= continueWith alloc maxParams rounds := by
  rw [parseLoop, if_neg (by simp [hstr, hindex])]
  refine bind_congr fun r => ?_
  cases r <;> rfl

theorem parseLoop_ended (alloc : Nat → Bool) (maxParams rounds : Nat) {s : ParserState}
    (hstr : s.str = []) : parseLoop alloc maxParams rounds s = .ok (s, false) := by
  cases rounds with
  | zero => rfl
  | succ rounds => exact parseLoop_stop rounds (.inl (by rw [hstr]; rfl))

theorem peek_inside (maxParams : Nat) (s : ParserState) {str : List Char}
    (h : isLfcr (cur str) = false ∨ isTerminated (cur (str.dropWhile isLfcr)) = false ∧
      isNotification (cur (str.dropWhile isLfcr)) = false) :
    peek maxParams s (.at str) = .ok (if s.index + 1 = maxParams
      then .done { s with str, index := s.index + 1 } true
      else .next { s with str, index := s.index + 1 }) := by
  have hgo : ¬ (isLfcr (cur str) = true ∧ (isTerminated (cur (str.dropWhile isLfcr)) = true ∨
      isNotification (cur (str.dropWhile isLfcr)) = true)) := by
    rcases h with h | ⟨ht, hn⟩
    · simp [h]
    · simp [ht, hn]
  simp only [peek, Cursor.deref, bind, Except.bind, if_neg hgo]
  split <;> rfl

theorem afterElement_inside (alloc : Nat → Bool) (maxParams : Nat) (s : ParserState) {c : Char}
    (hsep : isSeparator c = true) (h : isLfcr (cur rest) = false) :
    afterElement alloc maxParams s (.at (c :: rest)) = peek maxParams s (.at rest) := by
  simp only [afterElement, Cursor.deref, bind, Except.bind, cur_cons, hsep, h, List.tail_cons,
    not_true_eq_false, if_false, Bool.false_eq_true, not_false_eq_true, if_true, skip]

theorem afterElement_other (alloc : Nat → Bool) (maxParams : Nat) (s : ParserState)
    (h : isSeparator (cur rest) = false) :
    afterElement alloc maxParams s (.at rest) = peek maxParams s (.at rest) := by
  simp only [afterElement, Cursor.deref, bind, Except.bind, h, Bool.false_eq_true,
    not_false_eq_true, if_true]

theorem Element.param_eq_empty : e.param = .empty ↔ e = .empty := by
  cases e with
  | number n =>
    simp only [param, numberParam, reduceCtorEq, iff_false]
    split <;> simp
  | quoted s => simp [param]
  | array i is => simp [param]
  | empty => simp [param]

theorem classes_of_isXDigit {c : Char} (h : isXDigit c = true) :
    isLfcr c = false ∧ isTerminated c = false ∧ isNotification c = false := by
  have hne (d : Char) (hd : isXDigit d = false) : c ≠ d := by
    rintro rfl
    rw [h] at hd
    cases hd
  simp [isLfcr, isTerminated, isNotification, hne carriageReturn (by decide),
    hne lineFeed (by decide), hne nul (by decide), hne '+' (by decide), hne '%' (by decide)]

theorem span_pdu {digits rest : List Char} (hdigits : ∀ c ∈ digits, isXDigit c = true)
    (hends : EndsName (cur rest)) :
    (digits ++ rest).takeWhile isXDigit = digits ∧ (digits ++ rest).dropWhile isXDigit = rest := by
  have htail : rest.takeWhile isXDigit = [] ∧ rest.dropWhile isXDigit = rest := by
    cases rest with
    | nil => exact ⟨rfl, rfl⟩
    | cons r rs =>
      have hr : isXDigit r = false := by
        rcases hends with h | h | h
        · rcases isSeparator_iff.mp h with hr | hr | hr <;> rw [show r = _ from hr] <;> decide
        · rcases isLfcr_iff.mp h with hr | hr <;> rw [show r = _ from hr] <;> decide
        · rw [show r = nul from isTerminated_iff.mp h]
          decide
      simp [hr]
  rw [List.takeWhile_append_of_pos hdigits, List.dropWhile_append_of_pos hdigits, htail.1, htail.2,
    List.append_nil]
  exact ⟨rfl, rfl⟩

theorem parseRound_pdu (alloc : Nat → Bool) (maxParams : Nat) {digits rest : List Char}
    (hne : digits ≠ []) (hdigits : ∀ c ∈ digits, isXDigit c = true) (hends : EndsName (cur rest))
    {index : Nat} (hindex : index ≠ 0) (list : ParamList) :
    parseRound alloc maxParams ⟨.number, index, crlf ++ (digits ++ rest), list⟩ =
      afterElement alloc maxParams
        ⟨.smsPdu, index, digits ++ rest, store alloc list index (.string digits)⟩ (.at rest) := by
  obtain ⟨c, cs, rfl⟩ := List.exists_cons_of_ne_nil hne
  obtain ⟨hlfcr, hterm, -⟩ := classes_of_isXDigit (hdigits c List.mem_cons_self)
  obtain ⟨htake, hdrop⟩ := span_pdu hdigits hends
  -- The carriage return is skipped as a blank, the line feed as a line break.
  have hskip : (lineFeed :: (c :: cs ++ rest)).dropWhile isLfcr = c :: cs ++ rest := by
    rw [List.dropWhile_cons_of_pos (by decide), List.cons_append,
      List.dropWhile_cons_of_neg (by simp [hlfcr])]
  have hdetect : detectType .number index (lineFeed :: (c :: cs ++ rest)) =
      some (.smsPdu, c :: cs ++ rest) := by
    have hline : isNotification (cur (lineFeed :: (c :: cs ++ rest))) = false := rfl
    rw [detectType_of_index hindex .number hline, cur_cons, hskip]
    rfl
  have hcur : cur (c :: cs ++ rest) = c := rfl
  have hround : (if isSpace (cur (crlf ++ (c :: cs ++ rest)))
      then (crlf ++ (c :: cs ++ rest)).tail else crlf ++ (c :: cs ++ rest)) =
        lineFeed :: (c :: cs ++ rest) := rfl
  simp only [parseRound, hround, parseElement, hdetect, processElement, hcur, hterm, htake, hdrop,
    Bool.false_eq_true, if_false, store]

theorem afterElement_token (alloc : Nat → Bool) (maxParams : Nat) (s : ParserState) {t : Token}
    (h : WellFormed s.state (t :: ts)) (hlast : ¬ (t.param = .empty ∧ ts = [])) (ending : Ending) :
    ∃ str, afterElement alloc maxParams s (.at (tokensText (t :: ts) ++ ending.text)) =
        .ok (if s.index + 1 = maxParams then .done { s with str, index := s.index + 1 } true
          else .next { s with str, index := s.index + 1 }) ∧
      isTerminated (cur str) = false ∧
      ∀ index ≠ 0, ∀ list, ∃ str', parseRound alloc maxParams ⟨s.state, index, str, list⟩ =
        afterElement alloc maxParams ⟨t.state, index, str', store alloc list index t.param⟩
          (.at (tokensText ts ++ ending.text)) := by
  rw [tokensText_cons, List.append_assoc]
  cases t with
  | element separator blank e =>
    obtain ⟨hsep, hblank, he, -, hts⟩ := h
    have hfollows : Follows e (tokensText ts ++ ending.text) :=
      follows_of_wellFormed hts (fun hempty => hlast (hempty.imp_left Element.param_eq_empty.mpr)) ending
    obtain ⟨hlfcr, hterm, -, hskip⟩ := classes_of_blank hblank hfollows
    have htext : (Token.element separator blank e).text ++ (tokensText ts ++ ending.text) =
        separator :: (blank.toList ++ (e.text ++ (tokensText ts ++ ending.text))) := by
      simp [Token.text]
    refine ⟨blank.toList ++ (e.text ++ (tokensText ts ++ ending.text)), ?_, hterm, ?_⟩
    · rw [htext, afterElement_inside alloc maxParams s hsep hlfcr, peek_inside maxParams s (.inl hlfcr)]
    · intro index hindex list
      obtain ⟨str, helement⟩ := parseElement_element alloc he hindex s.state list hfollows
      refine ⟨str, ?_⟩
      simp only [parseRound, hskip, helement]
      rfl
  | pdu digits =>
    obtain ⟨hstate, hne, hdigits, hts⟩ := h
    obtain ⟨c, cs, hcs⟩ := List.exists_cons_of_ne_nil hne
    obtain ⟨hlfcr, hterm, hnotification⟩ :=
      classes_of_isXDigit (hdigits c (hcs ▸ List.mem_cons_self))
    have hdrop : (crlf ++ (digits ++ (tokensText ts ++ ending.text))).dropWhile isLfcr =
        digits ++ (tokensText ts ++ ending.text) := by
      rw [List.dropWhile_append_of_pos (List.all_eq_true.mp (show crlf.all isLfcr = true from rfl)),
        hcs, List.cons_append, List.dropWhile_cons_of_neg (by simp [hlfcr])]
    have hcur : cur (digits ++ (tokensText ts ++ ending.text)) = c := by rw [hcs]; rfl
    have htext : (Token.pdu digits).text ++ (tokensText ts ++ ending.text) =
        crlf ++ (digits ++ (tokensText ts ++ ending.text)) := by
      simp [Token.text]
    refine ⟨crlf ++ (digits ++ (tokensText ts ++ ending.text)), ?_, rfl, ?_⟩
    · have hsep : isSeparator (cur (crlf ++ (digits ++ (tokensText ts ++ ending.text)))) = false := rfl
      rw [htext, afterElement_other alloc maxParams s hsep,
        peek_inside maxParams s (.inr (by rw [hdrop, hcur]; exact ⟨hterm, hnotification⟩))]
    · intro index hindex list
      refine ⟨digits ++ (tokensText ts ++ ending.text), ?_⟩
      rw [hstate]
      exact parseRound_pdu alloc maxParams hne hdigits (endsName_tokensText hts ending) hindex list

theorem seen_cons {closed : Bool} {t : Token} (hlast : ¬ (t.param = .empty ∧ ts = [])) :
    seen closed (t :: ts) = t.param :: seen closed ts := by
  cases ts with
  | nil => simp [seen, show t.param ≠ .empty from fun h => hlast ⟨h, rfl⟩]
  | cons t' ts => rfl

theorem lastEmpty_cons {t : Token} (hlast : ¬ (t.param = .empty ∧ ts = [])) :
    LastEmpty (t :: ts) ↔ LastEmpty ts := by
  cases ts with
  | nil => simp [LastEmpty, show t.param ≠ .empty from fun h => hlast ⟨h, rfl⟩]
  | cons t' ts => simp [LastEmpty]

/-- Whether the rest of a run reports that the list is too short. `index` entries are in use. -/
def Reports (closed : Bool) (ts : List Token) (index maxParams : Nat) : Prop :=
  maxParams < index + ts.length ∨
    maxParams = index + ts.length ∧ closed = false ∧ ¬ LastEmpty ts

theorem reports_cons {closed : Bool} {t : Token} {index maxParams : Nat}
    (hlast : ¬ (t.param = .empty ∧ ts = [])) :
    Reports closed (t :: ts) index maxParams ↔ Reports closed ts (index + 1) maxParams := by
  have hlength : index + (t :: ts).length = index + 1 + ts.length := by
    rw [List.length_cons]
    omega
  rw [Reports, Reports, lastEmpty_cons hlast, hlength]

theorem run_lastEmpty (alloc : Nat → Bool) {maxParams : Nat} (rounds : Nat) (s : ParserState)
    {separator : Char} (hsep : isSeparator separator = true) (ending : Ending)
    (hindex : s.index < maxParams) :
    ∃ s' oversized, (afterElement alloc maxParams s (.at (separator :: ending.text)) >>=
          continueWith alloc maxParams rounds) = .ok (s', oversized) ∧
      s'.list = storeAll alloc s.list (s.index + 1)
        ((if ending.closed then [.empty] else []).take (maxParams - (s.index + 1))) ∧
      (oversized = true ↔ maxParams = s.index + 1) := by
  by_cases hfull : s.index + 1 = maxParams
  · -- The list is full before the empty parameter is looked at.
    have htake (ps : List Param) : ps.take (maxParams - (s.index + 1)) = [] := by
      rw [show maxParams - (s.index + 1) = 0 by omega, List.take_zero]
    cases ending with
    | string =>
      rw [Ending.text, afterElement_inside alloc maxParams s hsep rfl,
        peek_inside maxParams s (.inl rfl), if_pos hfull]
      exact ⟨_, true, rfl, by rw [htake]; rfl, by simp [hfull]⟩
    | line tail htail =>
      have hround : afterElement alloc maxParams s (.at (separator :: (crlf ++ tail))) =
          .ok (.done ⟨s.state, s.index + 1, separator :: (crlf ++ tail), s.list⟩ true) := by
        have hlfcr : isLfcr (cur (crlf ++ tail)) = true := rfl
        simp only [afterElement, Cursor.deref, bind, Except.bind, cur_cons, hsep, hlfcr,
          List.tail_cons, not_true_eq_false, if_false, if_pos hfull]
        rfl
      rw [Ending.text, hround]
      exact ⟨_, true, rfl, by rw [htake]; rfl, by simp [hfull]⟩
  · cases ending with
    | string =>
      rw [Ending.text, afterElement_inside alloc maxParams s hsep rfl,
        peek_inside maxParams s (.inl rfl), if_neg hfull]
      refine ⟨_, false, parseLoop_ended alloc maxParams rounds rfl, ?_, ?_⟩
      · simp [Ending.closed, storeAll]
      · simpa using fun h => hfull h.symm
    | line tail htail =>
      rw [Ending.text, afterElement_separator_crlf alloc hfull hsep htail]
      refine ⟨_, false, rfl, ?_, ?_⟩
      · obtain ⟨n, hn⟩ : ∃ n, maxParams - (s.index + 1) = n + 1 :=
          ⟨maxParams - (s.index + 1) - 1, by omega⟩
        simp [hn, Ending.closed, storeAll, store]
      · simpa using fun h => hfull h.symm

/-- A run behind an element: what it stores, and when it reports that the list is too short. The
induction is on the tokens, each of which takes one round. -/
theorem run_tokens (alloc : Nat → Bool) {maxParams : Nat} (ending : Ending) (ts : List Token) :
    ∀ (rounds : Nat) (s : ParserState), WellFormed s.state ts → s.index < maxParams →
      maxParams ≤ s.index + 1 + rounds →
      ∃ s' oversized, (afterElement alloc maxParams s (.at (tokensText ts ++ ending.text)) >>=
            continueWith alloc maxParams rounds) = .ok (s', oversized) ∧
        s'.list = storeAll alloc s.list (s.index + 1)
          ((seen ending.closed ts).take (maxParams - (s.index + 1))) ∧
        (oversized = true ↔ Reports ending.closed ts (s.index + 1) maxParams) := by
  induction ts with
  | nil =>
    intro rounds s _ hindex _
    cases ending with
    | line tail htail =>
      rw [tokensText_nil, List.nil_append, Ending.text, afterElement_crlf alloc maxParams s htail]
      refine ⟨_, false, rfl, by simp [seen, storeAll], ?_⟩
      simp [Reports, Ending.closed]
      omega
    | string =>
      rw [tokensText_nil, List.nil_append, Ending.text, afterElement_other alloc maxParams s rfl,
        peek_inside maxParams s (.inl rfl)]
      by_cases hfull : s.index + 1 = maxParams
      · rw [if_pos hfull]
        exact ⟨_, true, rfl, by simp [seen, storeAll], by simp [Reports, Ending.closed, LastEmpty, hfull]⟩
      · rw [if_neg hfull]
        refine ⟨_, false, parseLoop_ended alloc maxParams rounds rfl, by simp [seen, storeAll], ?_⟩
        simp only [Bool.false_eq_true, Reports, List.length_nil, false_iff]
        omega
  | cons t ts ih =>
    intro rounds s hwell hindex hrounds
    by_cases hlast : t.param = .empty ∧ ts = []
    · obtain ⟨hparam, rfl⟩ := hlast
      cases t with
      | pdu digits => cases hparam
      | element separator blank e =>
        obtain ⟨hsep, -, -, hblank, -⟩ := hwell
        have he : e = .empty := Element.param_eq_empty.mp hparam
        have htext : tokensText [.element separator blank e] ++ ending.text =
            separator :: ending.text := by
          rw [tokensText_cons, Token.text, hblank ⟨he, rfl⟩, he]
          rfl
        obtain ⟨s', oversized, hrun, hlist, hreport⟩ :=
          run_lastEmpty alloc rounds s hsep ending hindex
        refine ⟨s', oversized, by rw [htext]; exact hrun, ?_, ?_⟩
        · rw [hlist, seen, hparam]
          cases ending.closed <;> rfl
        · rw [hreport]
          have hempty : LastEmpty [.element separator blank e] := by simp [LastEmpty, hparam]
          simp only [Reports, hempty, List.length_singleton, not_true_eq_false, and_false, or_false]
          omega
    · obtain ⟨str, hafter, hterm, hround⟩ :=
        afterElement_token alloc maxParams s hwell hlast ending
      by_cases hfull : s.index + 1 = maxParams
      · rw [hafter, if_pos hfull]
        have htake : maxParams - (s.index + 1) = 0 := by omega
        refine ⟨_, true, rfl, by rw [htake, List.take_zero]; rfl, ?_⟩
        simp only [Reports, List.length_cons, true_iff]
        omega
      · rw [hafter, if_neg hfull]
        obtain ⟨rounds, rfl⟩ : ∃ n, rounds = n + 1 := ⟨rounds - 1, by omega⟩
        obtain ⟨str', hnext⟩ := hround (s.index + 1) (Nat.succ_ne_zero _) s.list
        have hts : WellFormed t.state ts := by
          cases t with
          | element separator blank e => exact hwell.2.2.2.2
          | pdu digits => exact hwell.2.2.2
        have hroom : s.index + 1 < maxParams := by omega
        obtain ⟨s', oversized, hrun, hlist, hreport⟩ := ih rounds
          ⟨t.state, s.index + 1, str', store alloc s.list (s.index + 1) t.param⟩ hts hroom
          (show maxParams ≤ s.index + 1 + 1 + rounds by omega)
        refine ⟨s', oversized, ?_, ?_, ?_⟩
        · refine (parseLoop_round rounds hterm hroom).trans ?_
          rw [hnext]
          exact hrun
        · obtain ⟨n, hn⟩ : ∃ n, maxParams - (s.index + 1) = n + 1 :=
            ⟨maxParams - (s.index + 1) - 1, by omega⟩
          have hn' : maxParams - (s.index + 1 + 1) = n := by omega
          rw [hlist, hn', hn, seen_cons hlast, List.take_succ_cons]
          rfl
        · rw [hreport, reports_cons hlast]

/-- One call on a line: what the list holds, and when `-E2BIG` is returned. -/
theorem maxParamsFromStr_line (alloc : Nat → Bool) (l : CommandLine) (list : ParamList)
    {maxParamsCount : Nat} (hcapacity : 0 < min maxParamsCount list.length) :
    ∃ r, maxParamsFromStr alloc (some l.text) (some list) maxParamsCount = .ok r ∧
      r.list = ((Param.string l.head.name :: seen l.ending.closed l.tokens).take
          (min maxParamsCount list.length)).map (kept alloc) ++
        List.replicate (list.length - ((Param.string l.head.name :: seen l.ending.closed
          l.tokens).take (min maxParamsCount list.length)).length) .invalid ∧
      (r.code = .E2BIG ↔ Reports l.ending.closed l.tokens 1 (min maxParamsCount list.length)) := by
  set capacity := min maxParamsCount list.length with hdef
  obtain ⟨n, hn⟩ : ∃ n, capacity = n + 1 := ⟨capacity - 1, by omega⟩
  have hclear : listClear list = List.replicate list.length .invalid := by
    simp [listClear, List.map_const']
  set rest := tokensText l.tokens ++ l.ending.text with hrest
  -- The first round stores the name.
  have hends : EndsName (cur rest) := endsName_tokensText l.wellFormed l.ending
  have hparams : l.head.TakesParams ∨ isLfcr (cur rest) = true ∨ isTerminated (cur rest) = true := by
    refine l.takesParams.imp_right fun hnil => ?_
    rw [hrest, hnil]
    cases l.ending with
    | string => exact .inr rfl
    | line tail htail => exact .inl rfl
  have helement := parseElement_head alloc l.head .idle (listClear list) hends
    (skipReadTest_tokensText l.wellFormed l.ending) hparams
  have hfirst : isSpace (cur (l.head.text ++ rest)) = false ∧
      isTerminated (cur (l.head.text ++ rest)) = false := by
    cases l.head with
    | notification leader name hleader hname =>
      rcases isNotification_iff.mp hleader with h | h <;> subst h <;> exact ⟨rfl, rfl⟩
    | command a t lead name marker ha ht hlead hname =>
      rcases ha with rfl | rfl <;> exact ⟨rfl, rfl⟩
    | attention a t ha ht => rcases ha with rfl | rfl <;> exact ⟨rfl, rfl⟩
  have hround : parseRound alloc capacity ⟨.idle, 0, l.head.text ++ rest, listClear list⟩ =
      afterElement alloc capacity ⟨l.head.state, 0, l.head.text ++ rest,
        store alloc (listClear list) 0 (.string l.head.name)⟩ (.at rest) := by
    simp only [parseRound, hfirst.1, Bool.false_eq_true, if_false, helement]
  obtain ⟨s, oversized, hrun, hlist, hreport⟩ := run_tokens alloc l.ending l.tokens n
    ⟨l.head.state, 0, l.head.text ++ rest, store alloc (listClear list) 0 (.string l.head.name)⟩
    l.wellFormed hcapacity (show capacity ≤ 0 + 1 + n by omega)
  have hloop : parseLoop alloc capacity capacity ⟨.idle, 0, l.text, listClear list⟩ =
      .ok (s, oversized) := by
    have hnext : parseLoop alloc capacity (n + 1) ⟨.idle, 0, l.head.text ++ rest, listClear list⟩ =
        parseRound alloc capacity ⟨.idle, 0, l.head.text ++ rest, listClear list⟩ >>=
          continueWith alloc capacity n :=
      parseLoop_round n hfirst.2 hcapacity
    rw [hround] at hnext
    rw [← hn] at hnext
    exact hnext.trans hrun
  refine ⟨⟨if oversized then .E2BIG else if ¬ isTerminated (cur s.str) then .EAGAIN else .success,
    s.str, s.list⟩, ?_, ?_, ?_⟩
  · simp only [maxParamsFromStr, parseParam, ← hdef, hloop, bind, Except.bind]
    rfl
  · have hlen : ((Param.string l.head.name :: seen l.ending.closed l.tokens).take
        capacity).length ≤ list.length := by
      rw [List.length_take]
      omega
    have hall := storeAll_cleared alloc ((Param.string l.head.name ::
      seen l.ending.closed l.tokens).take capacity) [] list.length hlen
    rw [List.nil_append, List.nil_append, ← hclear] at hall
    rw [← hall, hlist, hn, List.take_succ_cons]
    rfl
  · rw [← hreport]
    cases oversized with
    | true => simp
    | false =>
      simp only [Bool.false_eq_true, if_false, iff_false]
      split <;> simp

end SdkNrf.AtParser
