import SdkNrf.AtParser.Parser

/-!
# The parser inside its string

Three of the parser states step over a closing delimiter without looking at it.
-/

namespace SdkNrf.AtParser

/-- The loop over an array of which `n` numbers have been read ends in front of a character: at
the closing parenthesis, at a separator without a number behind it, or at the last number that
fits. -/
inductive ArrayClosed : Nat → List Char → Prop
  | stop (n : Nat) (cs : List Char) : ArrayClosed n (')' :: cs)
  | noNumber {n : Nat} {c : Char} {cs : List Char} (hc : isSeparator c = true)
      (hread : (strtoul cs).2 = cs) (hne : cs ≠ []) : ArrayClosed n (c :: cs)
  | full {n : Nat} {c : Char} {cs : List Char} (hc : isSeparator c = true)
      (hread : (strtoul cs).2 ≠ cs) (hn : n + 1 = cmdMaxArraySize) (hne : (strtoul cs).2 ≠ []) :
      ArrayClosed n (c :: cs)
  | number {n : Nat} {c : Char} {cs : List Char} (hc : isSeparator c = true)
      (hread : (strtoul cs).2 ≠ cs) (hn : n + 1 ≠ cmdMaxArraySize)
      (hrest : ArrayClosed (n + 1) (strtoul cs).2) : ArrayClosed n (c :: cs)
  | skip {n : Nat} {c : Char} {cs : List Char} (hc : c ≠ ')') (hsep : isSeparator c = false)
      (hrest : ArrayClosed n cs) : ArrayClosed n (c :: cs)

/-- The element that starts at `str` is closed before the NUL. -/
def ElementClosed : State → List Char → Prop
  | .string, str => ∃ c ∈ str, isLfcr c = true
  | .quotedString, str => dblquote ∈ str
  | .array, str => ArrayClosed 1 (strtoul str).2
  | _, _ => True

theorem arrayLoop_suffix (values : List Nat) (str : List Char) :
    (arrayLoop values str).2 <:+ str := by
  fun_induction arrayLoop values str with
  | case1 values => exact List.suffix_rfl
  | case2 values c cs h => exact List.suffix_rfl
  | case3 values c cs h hsep next values' hlen => exact List.suffix_cons _ _
  | case4 values c cs h hsep next values' hlen hfull =>
    exact (strtoul_suffix cs).trans (List.suffix_cons _ _)
  | case5 values c cs h hsep next values' hlen hfull ih =>
    exact (ih.trans (strtoul_suffix cs)).trans (List.suffix_cons _ _)
  | case6 values c cs h hsep hfull => exact List.suffix_cons _ _
  | case7 values c cs h hsep hfull ih => exact ih.trans (List.suffix_cons _ _)

private theorem suffix_eq_iff {l l' : List Char} (h : l' <:+ l) :
    l.length = l'.length ↔ l' = l :=
  ⟨fun hlen => h.eq_of_length hlen.symm, fun he => he ▸ rfl⟩

theorem arrayLoop_closed (values : List Nat) (str : List Char) (hnul : nul ∉ str)
    (hlen : values.length < cmdMaxArraySize) :
    (arrayLoop values str).2 ≠ [] ↔ ArrayClosed values.length str := by
  fun_induction arrayLoop values str with
  | case1 values =>
    refine ⟨fun h => absurd rfl h, fun h => ?_⟩
    cases h
  | case2 values c cs h =>
    have hc : c = ')' := by
      rcases h with h | h
      · simpa [isArrayStop] using h
      · exact absurd (isTerminated_iff.mp h ▸ List.mem_cons_self) hnul
    subst hc
    exact ⟨fun _ => .stop _ _, fun _ => List.cons_ne_nil _ _⟩
  | case3 values c cs h hsep next values' heq =>
    have hread := (suffix_eq_iff (strtoul_suffix cs)).mp heq
    refine ⟨fun hne => .noNumber hsep hread hne, fun hclosed => ?_⟩
    cases hclosed with
    | stop => cases hsep
    | noNumber _ _ hne => exact hne
    | full _ hread' => exact absurd hread hread'
    | number _ hread' => exact absurd hread hread'
    | skip _ hsep' => rw [hsep] at hsep'; cases hsep'
  | case4 values c cs h hsep next values' heq hfull =>
    have hread := fun he => heq ((suffix_eq_iff (strtoul_suffix cs)).mpr he)
    have hn : values.length + 1 = cmdMaxArraySize := by simpa [values'] using hfull
    refine ⟨fun hne => .full hsep hread hn hne, fun hclosed => ?_⟩
    cases hclosed with
    | stop => cases hsep
    | noNumber _ hread' => exact absurd hread' hread
    | full _ _ _ hne => exact hne
    | number _ _ hn' => exact absurd hn hn'
    | skip _ hsep' => rw [hsep] at hsep'; cases hsep'
  | case5 values c cs h hsep next values' heq hfull ih =>
    have hread := fun he => heq ((suffix_eq_iff (strtoul_suffix cs)).mpr he)
    have hlength : values'.length = values.length + 1 := by simp [values']
    rw [hlength] at hfull ih
    have hcs : nul ∉ cs := fun h => hnul (List.mem_cons_of_mem c h)
    rw [ih (fun h => hcs ((strtoul_suffix cs).subset h)) (by omega)]
    refine ⟨fun hrest => .number hsep hread hfull hrest, fun hclosed => ?_⟩
    cases hclosed with
    | stop => cases hsep
    | noNumber _ hread' => exact absurd hread' hread
    | full _ _ hn' => exact absurd hn' hfull
    | number _ _ _ hrest => exact hrest
    | skip _ hsep' => rw [hsep] at hsep'; cases hsep'
  | case6 values c cs h hsep hfull => omega
  | case7 values c cs h hsep hfull ih =>
    rw [ih (fun h => hnul (List.mem_cons_of_mem c h)) hlen]
    have hc : c ≠ ')' := fun he => h (.inl (by simpa [isArrayStop] using he))
    refine ⟨fun hrest => .skip hc (by simpa using hsep) hrest, fun hclosed => ?_⟩
    cases hclosed with
    | stop => exact absurd rfl hc
    | noNumber hsep' => exact absurd hsep' hsep
    | full hsep' => exact absurd hsep' hsep
    | number hsep' => exact absurd hsep' hsep
    | skip _ _ hrest => exact hrest

theorem detectType_suffix {state state' : State} {index : Nat} {str str' : List Char}
    (h : detectType state index str = some (state', str')) : str' <:+ str := by
  unfold detectType at h
  repeat' split at h
  all_goals first
    | (cases h; exact List.suffix_rfl)
    | (cases h; exact List.tail_suffix _)
    | (cases h; exact List.dropWhile_suffix _)
    | cases h
variable {str : List Char}

private theorem dropWhile_eq_nil_iff (hnul : nul ∉ str) (p : Char → Bool) :
    str.dropWhile (fun c => !p c && !isTerminated c) = [] ↔ ¬ ∃ c ∈ str, p c = true := by
  rw [List.dropWhile_eq_nil_iff]
  constructor
  · rintro h ⟨c, hc, hp⟩
    have := h c hc
    simp [hp] at this
  · intro h c hc
    have hp : p c = false := by
      rw [Bool.eq_false_iff]
      exact fun hp => h ⟨c, hc, hp⟩
    have ht : isTerminated c = false := by
      rw [Bool.eq_false_iff]
      exact fun ht => hnul (isTerminated_iff.mp ht ▸ hc)
    simp [hp, ht]

private theorem skipCommandPrefix_suffix (str : List Char) : skipCommandPrefix str <:+ str := by
  simp only [skipCommandPrefix]
  split
  · exact List.drop_suffix _ _
  · exact (List.tail_suffix _).trans (List.drop_suffix _ _)

private theorem skipReadTest_suffix (str : List Char) : skipReadTest str <:+ str := by
  unfold skipReadTest
  repeat' split
  · exact List.drop_suffix _ _
  · exact List.tail_suffix _
  · exact List.suffix_rfl

private theorem isTerminated_cur (hnul : nul ∉ str) :
    isTerminated (cur str) = true ↔ str = [] := by
  cases str with
  | nil => exact ⟨fun _ => rfl, fun _ => rfl⟩
  | cons c cs =>
    rw [isTerminated_iff, cur_cons]
    exact ⟨fun h => absurd (h ▸ List.mem_cons_self) hnul, fun h => absurd h (List.cons_ne_nil c cs)⟩

def LeftAt (closed : Prop) (str : List Char) (cursor : Cursor) : Prop :=
  cursor = .past ∧ ¬ closed ∨ ∃ after, cursor = .at after ∧ closed ∧ after <:+ str

private theorem leftAt_skip {closed : Prop} {str after : List Char} (h : after ≠ [] ↔ closed)
    (hafter : after <:+ str) : LeftAt closed str (skip after) := by
  cases after with
  | nil => exact .inl ⟨rfl, fun hc => h.mpr hc rfl⟩
  | cons c cs =>
    exact .inr ⟨cs, rfl, h.mp (List.cons_ne_nil c cs), (List.suffix_cons c cs).trans hafter⟩

private theorem leftAt_delimiter (hnul : nul ∉ str) (p : Char → Bool) :
    LeftAt (∃ c ∈ str, p c = true) str (skip (str.dropWhile fun c => !p c && !isTerminated c)) :=
  leftAt_skip (by rw [Ne, dropWhile_eq_nil_iff hnul, not_not]) (List.dropWhile_suffix _)

variable {alloc : Nat → Bool}

theorem processElement_leftAt {state : State} {index : Nat} {list list' : ParamList}
    {cursor : Cursor} (hnul : nul ∉ str)
    (h : processElement alloc state index str list = some (cursor, list')) :
    LeftAt (ElementClosed state str) str cursor := by
  unfold processElement at h
  split at h
  · cases h
  · cases state with
    | idle =>
      cases h
      exact .inr ⟨str, rfl, trivial, List.suffix_rfl⟩
    | notification =>
      cases h
      exact .inr ⟨_, rfl, trivial, (List.dropWhile_suffix _).trans (List.tail_suffix _)⟩
    | command =>
      cases h
      exact .inr ⟨_, rfl, trivial, ((skipReadTest_suffix _).trans (List.dropWhile_suffix _)).trans
        (skipCommandPrefix_suffix _)⟩
    | optional =>
      cases h
      exact .inr ⟨str, rfl, trivial, List.suffix_rfl⟩
    | number =>
      cases h
      exact .inr ⟨_, rfl, trivial, strtoul_suffix str⟩
    | smsPdu =>
      cases h
      exact .inr ⟨_, rfl, trivial, List.dropWhile_suffix _⟩
    | string =>
      cases h
      exact leftAt_delimiter hnul isLfcr
    | quotedString =>
      cases h
      have := leftAt_delimiter hnul isDblquote
      simpa [ElementClosed, isDblquote] using this
    | array =>
      cases h
      have hnext : nul ∉ (strtoul str).2 := fun hn => hnul ((strtoul_suffix str).subset hn)
      exact leftAt_skip (arrayLoop_closed [_] _ hnext (show 1 < cmdMaxArraySize by decide))
        ((arrayLoop_suffix _ _).trans (strtoul_suffix str))

theorem processElement_eq_none {state : State} {index : Nat} {list : ParamList} (hnul : nul ∉ str)
    (h : processElement alloc state index str list = none) : str = [] := by
  unfold processElement at h
  split at h
  · next hterm => exact (isTerminated_cur hnul).mp hterm
  · cases state <;> cases h

def elementStart (s : ParserState) : List Char :=
  if isSpace (cur s.str) then s.str.tail else s.str

def RoundClosed (s : ParserState) : Prop :=
  ∀ state str, detectType s.state s.index (elementStart s) = some (state, str) →
    str = [] ∨ ElementClosed state str

def Round.state : Round → ParserState
  | .next s => s
  | .done s _ => s

def Advances (s : ParserState) (r : Round) : Prop :=
  r.state.str <:+ s.str ∧ ∀ s', r = .next s' → s.index < s'.index

theorem elementStart_suffix (s : ParserState) : elementStart s <:+ s.str := by
  unfold elementStart
  split
  · exact List.tail_suffix _
  · exact List.suffix_rfl

theorem peek_at (maxParams : Nat) (s : ParserState) (str : List Char) :
    ∃ r, peek maxParams s (.at str) = .ok r ∧ r.state.str <:+ str ∧
      ∀ s', r = .next s' → s'.index = s.index + 1 := by
  simp only [peek, Cursor.deref, bind, Except.bind]
  repeat' split
  · exact ⟨_, rfl, List.dropWhile_suffix _, fun _ h => by cases h⟩
  · exact ⟨_, rfl, List.suffix_rfl, fun _ h => by cases h⟩
  · exact ⟨_, rfl, List.suffix_rfl, fun _ h => by cases h; rfl⟩

private theorem isSeparator_cur (h : isSeparator (cur str) = true) :
    ∃ c cs, str = c :: cs := by
  cases str with
  | nil => cases h
  | cons c cs => exact ⟨c, cs, rfl⟩

theorem afterElement_at (alloc : Nat → Bool) (maxParams : Nat) (s : ParserState)
    (str : List Char) :
    ∃ r, afterElement alloc maxParams s (.at str) = .ok r ∧ r.state.str <:+ str ∧
      ∀ s', r = .next s' → s.index < s'.index := by
  simp only [afterElement, Cursor.deref, bind, Except.bind]
  split
  · obtain ⟨r, hr, hsuffix, hindex⟩ := peek_at maxParams s str
    exact ⟨r, hr, hsuffix, fun s' h => by have := hindex s' h; omega⟩
  · next hsep =>
    obtain ⟨c, cs, rfl⟩ := isSeparator_cur (not_not.mp hsep)
    split
    · obtain ⟨r, hr, hsuffix, hindex⟩ := peek_at maxParams s cs
      exact ⟨r, hr, hsuffix.trans (List.suffix_cons c cs), fun s' h => by have := hindex s' h; omega⟩
    · split
      · exact ⟨_, rfl, List.suffix_rfl, fun s' h => by cases h⟩
      · -- The separator itself is the empty parameter.
        rw [parseElement_separator alloc (Nat.succ_ne_zero s.index) s.state s.list (not_not.mp hsep)]
        obtain ⟨r, hr, hsuffix, hindex⟩ := peek_at maxParams
          ⟨.optional, s.index + 1, c :: cs, put s.list (s.index + 1) .empty⟩ cs
        exact ⟨r, hr, hsuffix.trans (List.suffix_cons c cs), fun s' h => by
          have := hindex s' h
          simp only at this
          omega⟩

theorem parseRound_cases (alloc : Nat → Bool) (maxParams : Nat) {s : ParserState}
    (hnul : nul ∉ s.str) :
    parseRound alloc maxParams s = .error .pastNul ∧ ¬ RoundClosed s ∨
      ∃ r, parseRound alloc maxParams s = .ok r ∧ RoundClosed s ∧ Advances s r := by
  have hstart : nul ∉ elementStart s := fun h => hnul ((elementStart_suffix s).subset h)
  have hfold : (if isSpace (cur s.str) then s.str.tail else s.str) = elementStart s := rfl
  simp only [parseRound, parseElement, hfold]
  cases hdetect : detectType s.state s.index (elementStart s) with
  | none =>
    refine .inr ⟨_, rfl, ?_, elementStart_suffix s, fun s' h => by cases h⟩
    intro state str h
    rw [hdetect] at h
    cases h
  | some p =>
    obtain ⟨state, str⟩ := p
    have hsuffix := (detectType_suffix hdetect).trans (elementStart_suffix s)
    have hstr : nul ∉ str := fun h => hnul (hsuffix.subset h)
    have hclosed : RoundClosed s ↔ str = [] ∨ ElementClosed state str := by
      refine ⟨fun h => h state str hdetect, fun h state' str' h' => ?_⟩
      rw [hdetect] at h'
      cases h'
      exact h
    rw [hclosed]
    simp only
    cases helement : processElement alloc state s.index str s.list with
    | none =>
      have hnil := processElement_eq_none hstr helement
      exact .inr ⟨_, rfl, .inl hnil, hsuffix, fun s' h => by cases h⟩
    | some q =>
      obtain ⟨cursor, list⟩ := q
      have hne : str ≠ [] := by
        rintro rfl
        cases helement
      rcases processElement_leftAt hstr helement with ⟨rfl, hopen⟩ | ⟨after, rfl, hc, hafter⟩
      · exact .inl ⟨rfl, fun h => h.elim hne hopen⟩
      · obtain ⟨r, hr, hrsuffix, hindex⟩ := afterElement_at alloc maxParams
          ⟨state, s.index, str, list⟩ after
        exact .inr ⟨r, hr, .inr hc, (hrsuffix.trans hafter).trans hsuffix, hindex⟩

def Live (maxParams : Nat) (s : ParserState) : Prop :=
  isTerminated (cur s.str) = false ∧ s.index < maxParams

variable {maxParams : Nat}

theorem not_live {s : ParserState} (h : ¬ Live maxParams s) :
    isTerminated (cur s.str) = true ∨ ¬ s.index < maxParams := by
  rw [Live, not_and_or, Bool.not_eq_false] at h
  exact h

def NextRound (alloc : Nat → Bool) (maxParams : Nat) (s s' : ParserState) : Prop :=
  Live maxParams s ∧ parseRound alloc maxParams s = .ok (.next s')

/-- In every round that is reached from `s`, the element is closed. -/
def RunClosed (alloc : Nat → Bool) (maxParams : Nat) (s : ParserState) : Prop :=
  ∀ s', Relation.ReflTransGen (NextRound alloc maxParams) s s' → Live maxParams s' → RoundClosed s'

theorem runClosed_of_not_live {s : ParserState} (h : ¬ Live maxParams s) :
    RunClosed alloc maxParams s := by
  intro s' hreach hlive
  rcases hreach.cases_head with rfl | ⟨s₁, hnext, -⟩
  · exact absurd hlive h
  · exact absurd hnext.1 h

theorem runClosed_iff_of_next {s s₁ : ParserState} (hlive : Live maxParams s)
    (h : parseRound alloc maxParams s = .ok (.next s₁)) :
    RunClosed alloc maxParams s ↔ RoundClosed s ∧ RunClosed alloc maxParams s₁ := by
  constructor
  · intro hrun
    exact ⟨hrun s .refl hlive, fun s' hreach => hrun s' (.head ⟨hlive, h⟩ hreach)⟩
  · rintro ⟨hround, hrun⟩ s' hreach hlive'
    rcases hreach.cases_head with rfl | ⟨s₂, hnext, htail⟩
    · exact hround
    · have := hnext.2
      rw [h] at this
      cases this
      exact hrun s' htail hlive'

theorem runClosed_iff_of_done {s s₁ : ParserState} {oversized : Bool} (hlive : Live maxParams s)
    (h : parseRound alloc maxParams s = .ok (.done s₁ oversized)) :
    RunClosed alloc maxParams s ↔ RoundClosed s := by
  refine ⟨fun hrun => hrun s .refl hlive, fun hround s' hreach _ => ?_⟩
  rcases hreach.cases_head with rfl | ⟨s₂, hnext, -⟩
  · exact hround
  · have := hnext.2
    rw [h] at this
    cases this

theorem parseLoop_suffix (alloc : Nat → Bool) (maxParams : Nat) :
    ∀ (rounds : Nat) (s : ParserState), nul ∉ s.str → ∀ r,
      parseLoop alloc maxParams rounds s = .ok r → r.1.str <:+ s.str := by
  intro rounds
  induction rounds with
  | zero =>
    intro s _ r h
    cases h
    exact List.suffix_rfl
  | succ rounds ih =>
    intro s hnul r h
    by_cases hlive : Live maxParams s
    · rcases parseRound_cases alloc maxParams hnul with ⟨hfault, -⟩ | ⟨round, hround, -, hsuffix, -⟩
      · rw [parseLoop_fault rounds hlive.1 hlive.2 hfault] at h
        cases h
      · cases round with
        | next s₁ =>
          rw [parseLoop_next rounds hlive.1 hlive.2 hround] at h
          exact (ih s₁ (fun hn => hnul (hsuffix.subset hn)) r h).trans hsuffix
        | done s₁ oversized =>
          rw [parseLoop_done rounds hlive.1 hlive.2 hround] at h
          cases h
          exact hsuffix
    · rw [parseLoop_stop rounds (not_live hlive)] at h
      cases h
      exact List.suffix_rfl

theorem parseLoop_iff (alloc : Nat → Bool) (maxParams : Nat) :
    ∀ (rounds : Nat) (s : ParserState), nul ∉ s.str → maxParams ≤ s.index + rounds →
      ((∃ r, parseLoop alloc maxParams rounds s = .ok r) ↔ RunClosed alloc maxParams s) := by
  intro rounds
  induction rounds with
  | zero =>
    intro s _ hrounds
    have hdead : ¬ Live maxParams s := fun h => by have := h.2; omega
    exact ⟨fun _ => runClosed_of_not_live hdead, fun _ => ⟨_, rfl⟩⟩
  | succ rounds ih =>
    intro s hnul hrounds
    by_cases hlive : Live maxParams s
    · rcases parseRound_cases alloc maxParams hnul with
        ⟨hfault, hopen⟩ | ⟨round, hround, hclosed, hsuffix, hindex⟩
      · rw [parseLoop_fault rounds hlive.1 hlive.2 hfault]
        exact ⟨fun ⟨r, h⟩ => (by cases h), fun hrun => absurd (hrun s .refl hlive) hopen⟩
      · cases round with
        | next s₁ =>
          have hlt := hindex s₁ rfl
          rw [runClosed_iff_of_next hlive hround, parseLoop_next rounds hlive.1 hlive.2 hround,
            ih s₁ (fun hn => hnul (hsuffix.subset hn)) (by omega)]
          exact ⟨fun hrun => ⟨hclosed, hrun⟩, fun hrun => hrun.2⟩
        | done s₁ oversized =>
          rw [runClosed_iff_of_done hlive hround, parseLoop_done rounds hlive.1 hlive.2 hround]
          exact ⟨fun _ => hclosed, fun _ => ⟨_, rfl⟩⟩
    · rw [parseLoop_stop rounds (not_live hlive)]
      exact ⟨fun _ => runClosed_of_not_live hlive, fun _ => ⟨_, rfl⟩⟩

/-- The parser reads no character behind the NUL, and returns a pointer into its string. -/
def StaysInside (alloc : Nat → Bool) (str : List Char) (list : ParamList) (maxParams : Nat) :
    Prop :=
  ∃ r, parseParam alloc str list maxParams = .ok r ∧ r.next <:+ str

/-- The parser stays inside its string exactly if every element that one of its rounds meets is
closed before the NUL: a plain string by a line break, a quoted string by a quote, an array by a
parenthesis or by what else ends the loop over it. -/
theorem staysInside_iff (alloc : Nat → Bool) (str : List Char) (hnul : nul ∉ str)
    (list : ParamList) (maxParams : Nat) :
    StaysInside alloc str list maxParams ↔
      RunClosed alloc maxParams ⟨.idle, 0, str, list⟩ := by
  rw [← parseLoop_iff alloc maxParams maxParams ⟨.idle, 0, str, list⟩ hnul (by simp)]
  constructor
  · rintro ⟨r, hr, -⟩
    cases hloop : parseLoop alloc maxParams maxParams ⟨.idle, 0, str, list⟩ with
    | error e => simp [parseParam, hloop, bind, Except.bind] at hr
    | ok p => exact ⟨p, rfl⟩
  · rintro ⟨p, hloop⟩
    refine ⟨_, by simp only [parseParam, hloop, bind, Except.bind]; rfl, ?_⟩
    exact parseLoop_suffix alloc maxParams maxParams _ hnul p hloop

/-- A quoted string and an array that are closed, with a line break at the end. -/
theorem closedLine_staysInside :
    StaysInside (fun _ => true) "+A: \x22b\x22,(1,2)\r\n".toList [.invalid, .invalid, .invalid] 3 ∧
      RunClosed (fun _ => true) 3
        ⟨.idle, 0, "+A: \x22b\x22,(1,2)\r\n".toList, [.invalid, .invalid, .invalid]⟩ := by
  have h : StaysInside (fun _ => true) "+A: \x22b\x22,(1,2)\r\n".toList
      [.invalid, .invalid, .invalid] 3 :=
    ⟨⟨.success, [], [.string "+A".toList, .string "b".toList, .array [1, 2]]⟩, by decide +kernel,
      List.nil_suffix⟩
  exact ⟨h, (staysInside_iff _ _ (by decide) _ _).mp h⟩

/-- `OK` without a line break: the pointer steps over the NUL, and is read there. -/
theorem ok_not_staysInside : ¬ StaysInside (fun _ => true) "OK".toList [.invalid] 1 := by
  rintro ⟨r, hr, -⟩
  cases hr

end SdkNrf.AtParser
