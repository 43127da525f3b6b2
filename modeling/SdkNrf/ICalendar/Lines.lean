import SdkNrf.ICalendar.Parser

/-!
# Content lines at the beginning of a text

A content line that is followed by the first character of another line is read in the same way
whatever follows.
-/

namespace SdkNrf.ICalendar

open CString

variable {cfg : Config}

inductive LineEnds : List UInt8 → Prop
  | last {line : List UInt8} {eol : Nat} (h : find crlf line = some eol)
      (hlt : eol + 2 < line.length) (hfold : ¬ bytes "\r\n " <+: line.drop eol) : LineEnds line
  | fold {line : List UInt8} {eol : Nat} (h : find crlf line = some eol)
      (hfold : bytes "\r\n " <+: line.drop eol) (hrest : LineEnds (line.drop (eol + 3))) :
      LineEnds line

theorem find_crlf_le (pre rest : List UInt8) :
    ∃ eol ≤ pre.length, find crlf (pre ++ 13 :: 10 :: rest) = some eol := by
  apply find_le
  · simp
  · rw [List.drop_left]
    exact ⟨rest, rfl⟩

theorem lineEnds_append (pre : List UInt8) {c : UInt8} (hc : c ≠ 32) (rest : List UInt8) :
    LineEnds (pre ++ 13 :: 10 :: c :: rest) := by
  induction hn : pre.length using Nat.strongRecOn generalizing pre with
  | ind n ih =>
    obtain ⟨eol, hle, hfind⟩ := find_crlf_le pre (c :: rest)
    by_cases hfold : bytes "\r\n " <+: (pre ++ 13 :: 10 :: c :: rest).drop eol
    · obtain ⟨tail, htail⟩ := hfold
      have hspace : (pre ++ 13 :: 10 :: c :: rest)[eol + 2]? = some 32 := by
        rw [← List.getElem?_drop, ← htail]
        rfl
      -- the space of the fold is none of the last three characters
      have hlt : eol + 3 ≤ pre.length := by
        rw [List.getElem?_append] at hspace
        split at hspace
        next hlt => omega
        next hge =>
          obtain h | h | h : eol + 2 - pre.length = 0 ∨ eol + 2 - pre.length = 1 ∨
            eol + 2 - pre.length = 2 := by omega
          · simp [h] at hspace
          · simp [h] at hspace
          · simp [h, hc] at hspace
      have hdrop : (pre ++ 13 :: 10 :: c :: rest).drop (eol + 3) =
          pre.drop (eol + 3) ++ 13 :: 10 :: c :: rest := List.drop_append_of_le_length hlt
      refine LineEnds.fold hfind ⟨tail, htail⟩ ?_
      rw [hdrop]
      exact ih _ (by rw [List.length_drop]; omega) _ rfl
    · refine LineEnds.last hfind ?_ hfold
      simp only [List.length_append, List.length_cons]
      omega

theorem prefix_append_iff {pat line : List UInt8} (h : pat.length ≤ line.length)
    (rest : List UInt8) : pat <+: line ++ rest ↔ pat <+: line :=
  ⟨fun hpre => List.prefix_of_prefix_length_le hpre (List.prefix_append line rest) h,
    fun hpre => hpre.trans (List.prefix_append line rest)⟩

variable {line : List UInt8}

theorem unfoldLoop_round {eol : Nat} (h : find crlf line = some eol) (rest : List UInt8)
    (hfold : bytes "\r\n " <+: line.drop eol ++ rest ↔ bytes "\r\n " <+: line.drop eol)
    (fuel fuel' : Nat) (propBuf : Scratch) (total done : Nat)
    (hrest : bytes "\r\n " <+: line.drop eol → ∀ propBuf total done,
        unfoldLoop cfg fuel ((line ++ rest).drop (eol + 3)) propBuf total done =
        unfoldLoop cfg fuel' (line.drop (eol + 3)) propBuf total done) :
    unfoldLoop cfg (fuel + 1) (line ++ rest) propBuf total done =
      unfoldLoop cfg (fuel' + 1) line propBuf total done := by
  have hle := find_length_le h
  have hdrop : (line ++ rest).drop eol = line.drop eol ++ rest :=
    List.drop_append_of_le_length (by omega)
  have htake : (line ++ rest).take (eol % 2 ^ 16) = line.take (eol % 2 ^ 16) := by
    have hmod := Nat.mod_le eol (2 ^ 16)
    exact List.take_append_of_le_length (by omega)
  rw [unfoldLoop, unfoldLoop, find_append h rest, h]
  simp only [htake, hdrop, List.isPrefixOf_iff_prefix, hfold]
  split
  · split
    next hspace => exact hrest hspace ..
    next => rfl
  · rfl

theorem unfoldLoop_append (h : LineEnds line) (rest : List UInt8) {fuel fuel' : Nat}
    (hfuel : line.length ≤ fuel) (hfuel' : line.length ≤ fuel') (propBuf : Scratch)
    (total done : Nat) :
    unfoldLoop cfg fuel (line ++ rest) propBuf total done =
      unfoldLoop cfg fuel' line propBuf total done := by
  induction h generalizing fuel fuel' propBuf total done with
  | @last line eol h hlt hfold =>
    cases fuel with
    | zero => omega
    | succ fuel =>
      cases fuel' with
      | zero => omega
      | succ fuel' =>
        have hlong : (bytes "\r\n ").length ≤ (line.drop eol).length := by
          have hthree : (bytes "\r\n ").length = 3 := rfl
          rw [List.length_drop]
          omega
        exact unfoldLoop_round h rest (prefix_append_iff hlong rest) fuel fuel' propBuf total done
          fun hspace => absurd hspace hfold
  | @fold line eol h hfold hrest ih =>
    have hle := hfold.length_le
    have hthree : (bytes "\r\n ").length = 3 := rfl
    rw [List.length_drop] at hle
    cases fuel with
    | zero => omega
    | succ fuel =>
      cases fuel' with
      | zero => omega
      | succ fuel' =>
        have hlong : (bytes "\r\n ").length ≤ (line.drop eol).length := by
          rw [List.length_drop]
          omega
        refine unfoldLoop_round h rest (prefix_append_iff hlong rest) fuel fuel' propBuf total done ?_
        intro _ propBuf total done
        rw [List.drop_append_of_le_length (by omega)]
        exact ih (by rw [List.length_drop]; omega) (by rw [List.length_drop]; omega) ..

theorem unfoldContentline_append (h : LineEnds line) (rest : List UInt8) :
    unfoldContentline cfg (line ++ rest) = unfoldContentline cfg line := by
  have hloop (propBuf : Scratch) :
      unfoldLoop cfg ((line ++ rest).length + 1) (line ++ rest) propBuf 0 0 =
        unfoldLoop cfg (line.length + 1) line propBuf 0 0 :=
    unfoldLoop_append h rest (by rw [List.length_append]; omega) (by omega) ..
  rw [unfoldContentline, unfoldContentline, hloop]

theorem parseDescProps_append (h : LineEnds line) (rest : List UInt8) (nameSize maxValueLen : Nat) :
    parseDescProps cfg (line ++ rest) nameSize maxValueLen =
      parseDescProps cfg line nameSize maxValueLen := by
  rw [parseDescProps, parseDescProps, unfoldContentline_append h]

theorem parseDatetimeProps_append (h : LineEnds line) (rest : List UInt8)
    (nameSize maxValueLen : Nat) :
    parseDatetimeProps cfg (line ++ rest) nameSize maxValueLen =
      parseDatetimeProps cfg line nameSize maxValueLen := by
  rw [parseDatetimeProps, parseDatetimeProps, unfoldContentline_append h]

theorem isPrefixOf_append {pat line : List UInt8} (h : pat.length ≤ line.length)
    (rest : List UInt8) : pat.isPrefixOf (line ++ rest) = pat.isPrefixOf line := by
  rw [Bool.eq_iff_iff, List.isPrefixOf_iff_prefix, List.isPrefixOf_iff_prefix,
    prefix_append_iff h]

theorem next_line {pre rest : List UInt8} {parsed eol : Nat} (hparsed : parsed ≤ pre.length)
    (hfind : find crlf ((pre ++ 13 :: 10 :: rest).drop parsed) = some eol) :
    parsed + eol + 2 ≤ pre.length ∨ parsed + eol + 2 = pre.length + 2 := by
  rw [List.drop_append_of_le_length hparsed] at hfind
  obtain ⟨eol', hle, hfind'⟩ := find_crlf_le (pre.drop parsed) rest
  rw [hfind, Option.some.injEq] at hfind'
  subst hfind'
  rw [List.length_drop] at hle
  by_contra hother
  -- the line feed would be where the carriage return is
  have heol : eol + 1 = (pre.drop parsed).length := by
    rw [List.length_drop]
    omega
  obtain ⟨tail, htail⟩ := find_prefix hfind
  have hten : (pre.drop parsed ++ 13 :: 10 :: rest)[eol + 1]? = some 10 := by
    rw [← List.getElem?_drop, ← htail]
    rfl
  rw [heol, List.getElem?_append_right le_rfl] at hten
  simp at hten

def AtLine (pre : List UInt8) (parsed : Nat) : Prop :=
  parsed ≤ pre.length ∨ parsed = pre.length + 2

theorem line_at (pre : List UInt8) {c : UInt8} (hc : c ≠ 32) (tail rest : List UInt8)
    {parsed : Nat} (hle : parsed ≤ pre.length) :
    ∃ line eol, (pre ++ 13 :: 10 :: c :: tail).drop parsed = line ∧
      (pre ++ 13 :: 10 :: c :: tail ++ rest).drop parsed = line ++ rest ∧ LineEnds line ∧
      tail.length + 3 ≤ line.length ∧ find crlf line = some eol ∧
      AtLine pre (parsed + eol + 2) := by
  have hline : (pre ++ 13 :: 10 :: c :: tail).drop parsed =
      pre.drop parsed ++ 13 :: 10 :: c :: tail := List.drop_append_of_le_length hle
  obtain ⟨eol, -, hfind⟩ := find_crlf_le (pre.drop parsed) (c :: tail)
  refine ⟨_, eol, hline, ?_, lineEnds_append _ hc tail, ?_, hfind, next_line hle (hline ▸ hfind)⟩
  · rw [List.drop_append_of_le_length (by simp only [List.length_append]; omega), hline]
  · simp only [List.length_append, List.length_cons]
    omega

theorem calpropsLoop_append (pre : List UInt8) {c : UInt8} (hc : c ≠ 32) {tail : List UInt8}
    (htail : 4 ≤ tail.length) (rest : List UInt8) (fuel : Nat) {parsed : Nat}
    (hparsed : AtLine pre parsed) :
    calpropsLoop cfg (pre ++ 13 :: 10 :: c :: tail ++ rest) (pre.length + 2) fuel parsed =
      calpropsLoop cfg (pre ++ 13 :: 10 :: c :: tail) (pre.length + 2) fuel parsed := by
  induction fuel generalizing parsed with
  | zero => rfl
  | succ fuel ih =>
    rw [calpropsLoop, calpropsLoop]
    split
    next hlt =>
      have hle : parsed ≤ pre.length := by
        rcases hparsed with h | h <;> omega
      obtain ⟨line, eol, hline, happend, hends, hlen, hfind, hnext⟩ := line_at pre hc tail rest hle
      have hprodid : (bytes "PRODID").length ≤ line.length :=
        (show (bytes "PRODID").length ≤ 7 by decide).trans (by omega)
      have hversion : (bytes "VERSION").length ≤ line.length :=
        (show (bytes "VERSION").length ≤ 7 by decide).trans (by omega)
      simp only [hline, happend, isPrefixOf_append hprodid, isPrefixOf_append hversion,
        parseDescProps_append hends, hfind, find_append hfind, Option.bind_some, ih hnext]
    next => rfl

theorem calpropsLoop_eq (pre : List UInt8) {c : UInt8} (hc : c ≠ 32) (tail : List UInt8)
    {fuel parsed n : Nat} (hparsed : AtLine pre parsed) (hfuel : pre.length + 2 ≤ parsed + fuel)
    (h : calpropsLoop cfg (pre ++ 13 :: 10 :: c :: tail) (pre.length + 2) fuel parsed = some n) :
    n = pre.length + 2 := by
  induction fuel generalizing parsed with
  | zero =>
    rw [calpropsLoop, Option.some.injEq] at h
    rcases hparsed with hle | heq <;> omega
  | succ fuel ih =>
    rw [calpropsLoop] at h
    split at h
    next hlt =>
      have hle : parsed ≤ pre.length := by
        rcases hparsed with h | h <;> omega
      obtain ⟨line, eol, hline, -, -, -, hfind, hnext⟩ := line_at pre hc tail [] hle
      obtain ⟨prop, -, hrest⟩ := Option.bind_eq_some_iff.mp h
      rw [hline, hfind, Option.bind_some] at hrest
      exact ih hnext (by omega) hrest
    next hge =>
      rw [Option.some.injEq] at h
      rcases hparsed with hle | heq <;> omega

variable {text : List UInt8}

theorem parseCalprops_append {n : Nat} (h : parseCalprops cfg text = some n) (hn : 0 < n)
    (rest : List UInt8) :
    parseCalprops cfg (text ++ rest) = some n ∧ n ≤ text.length := by
  rw [parseCalprops] at h
  split at h
  next =>
    rw [Option.some.injEq] at h
    omega
  next start hstart =>
    have hstartLe := find_length_le hstart
    rw [show (bytes "BEGIN:VCALENDAR\r\n").length = 17 from rfl] at hstartLe
    simp only at h
    split at h
    next =>
      rw [Option.some.injEq] at h
      omega
    next stop hstop =>
      have hdrop : (text ++ rest).drop (start + 17) = text.drop (start + 17) ++ rest :=
        List.drop_append_of_le_length hstartLe
      obtain ⟨mid, post, hmid, rfl⟩ := find_split hstop
      set pre := text.take (start + 17) ++ mid with hpre
      have hlen : pre.length = start + 17 + mid.length := by
        rw [hpre, List.length_append, List.length_take_of_le hstartLe]
      have htext : text = pre ++ 13 :: 10 :: 66 :: (bytes "EGIN:" ++ post) := by
        rw [hpre, List.append_assoc]
        exact (List.take_append_drop (start + 17) text).symm.trans (congrArg _ hmid)
      have htail : 4 ≤ (bytes "EGIN:" ++ post).length := by
        rw [List.length_append]
        exact (show 4 ≤ (bytes "EGIN:").length by decide).trans (Nat.le_add_right ..)
      have hplace : AtLine pre (start + 17) := Or.inl (by omega)
      have hloop : calpropsLoop cfg (text ++ rest) (start + 17 + mid.length + 2)
          (start + 17 + mid.length + 2) (start + 17) = some n := by
        rw [← h, htext, ← hlen]
        exact calpropsLoop_append pre (by decide) htail rest _ hplace
      constructor
      · rw [parseCalprops, find_append hstart]
        simp only [hdrop, find_append hstop, hloop]
      · rw [htext, ← hlen] at h
        have hn := calpropsLoop_eq pre (by decide) _ hplace (by omega) h
        rw [hn, htext]
        simp only [List.length_append, List.length_cons]
        omega

theorem hasName_append {name line : List UInt8} (h : name.length ≤ line.length)
    (rest : List UInt8) : hasName name (line ++ rest) = hasName name line := by
  rw [hasName, hasName, List.take_append_of_le_length h]

theorem eventProp_append (h : LineEnds line) (hlen : 11 ≤ line.length) (rest : List UInt8)
    (com : Component) :
    eventProp cfg (line ++ rest) com = eventProp cfg line com := by
  have hname (name : List UInt8) (hle : name.length ≤ 11) :
      hasName name (line ++ rest) = hasName name line := hasName_append (hle.trans hlen) rest
  rw [eventProp, eventProp, hname (bytes "SUMMARY") (by decide),
    hname (bytes "LOCATION") (by decide), hname (bytes "DESCRIPTION") (by decide),
      hname (bytes "DTSTART") (by decide),
    hname (bytes "DTEND") (by decide)]
  simp only [parseDescProps_append h, parseDatetimeProps_append h]

theorem eventProp_end (post : List UInt8) (com : Component) :
    eventProp cfg (bytes "END:VEVENT\r\n" ++ post) com = some (.ok com) := by
  have hname (name : List UInt8) (hle : name.length ≤ (bytes "END:VEVENT\r\n").length)
      (hno : hasName name (bytes "END:VEVENT\r\n") = false) :
      hasName name (bytes "END:VEVENT\r\n" ++ post) = false :=
    (hasName_append hle post).trans hno
  simp only [eventProp, hname (bytes "SUMMARY") (by decide) (by decide),
    hname (bytes "LOCATION") (by decide) (by decide),
    hname (bytes "DESCRIPTION") (by decide) (by decide),
    hname (bytes "DTSTART") (by decide) (by decide),
    hname (bytes "DTEND") (by decide) (by decide), Bool.false_eq_true, if_false]

section Event

variable {pre post : List UInt8} {comEnd : Nat}

def eventText (pre post : List UInt8) : List UInt8 :=
  pre ++ 13 :: 10 :: (bytes "END:VEVENT\r\n" ++ post)

theorem length_eventText : (eventText pre post).length = pre.length + 14 + post.length := by
  have htwelve : (bytes "END:VEVENT\r\n").length = 12 := rfl
  simp only [eventText, List.length_append, List.length_cons, htwelve]
  omega

theorem eventText_append (rest : List UInt8) :
    eventText pre post ++ rest = eventText pre (post ++ rest) := by
  simp [eventText]

theorem eventLine (cfg : Config) (rest : List UInt8) {parsed : Nat} (hparsed : AtLine pre parsed)
    (com : Component) :
    eventProp cfg ((eventText pre post ++ rest).drop parsed) com =
        eventProp cfg ((eventText pre post).drop parsed) com ∧
      ∃ eol, find crlf ((eventText pre post).drop parsed) = some eol ∧
        find crlf ((eventText pre post ++ rest).drop parsed) = some eol ∧
        (AtLine pre (parsed + eol + 2) ∨ parsed + eol + 2 = pre.length + 14) := by
  rcases hparsed with hle | rfl
  · obtain ⟨line, eol, hline, happend, hends, hlen, hfind, hnext⟩ :=
      line_at pre (c := 69) (by decide) (bytes "ND:VEVENT\r\n" ++ post) rest hle
    change (eventText pre post).drop parsed = line at hline
    change (eventText pre post ++ rest).drop parsed = line ++ rest at happend
    have hlong : 11 ≤ line.length := by
      have heleven : (bytes "ND:VEVENT\r\n").length = 11 := rfl
      rw [List.length_append] at hlen
      omega
    rw [hline, happend]
    exact ⟨eventProp_append hends hlong rest com, eol, hfind, find_append hfind rest,
      Or.inl hnext⟩
  · have hdrop (tail : List UInt8) : (eventText pre tail).drop (pre.length + 2) =
        bytes "END:VEVENT\r\n" ++ tail := by
      rw [eventText, ← List.drop_drop, List.drop_left]
      rfl
    have hten : find crlf (bytes "END:VEVENT\r\n") = some 10 := by decide
    rw [eventText_append, hdrop, hdrop, eventProp_end, eventProp_end]
    exact ⟨rfl, 10, find_append hten _, find_append hten _, Or.inr (by omega)⟩

theorem eventLoop_append (rest : List UInt8) {fuel parsed : Nat} {com : Component} {r : Evt × Nat}
    (hparsed : AtLine pre parsed ∨ parsed = pre.length + 14)
    (h : eventLoop cfg (eventText pre post) (pre.length + 14) fuel parsed com = some r) :
    eventLoop cfg (eventText pre post ++ rest) (pre.length + 14) fuel parsed com = some r := by
  induction fuel generalizing parsed com with
  | zero => exact h
  | succ fuel ih =>
    rw [eventLoop] at h ⊢
    split at h
    next hlt =>
      have hplace : AtLine pre parsed := by
        rcases hparsed with hplace | rfl
        · exact hplace
        · omega
      obtain ⟨hprop, eol, hfind, hfind', hnext⟩ := eventLine cfg rest hplace com
      rw [if_pos hlt, hprop]
      obtain ⟨prop, hsome, hthen⟩ := Option.bind_eq_some_iff.mp h
      rw [hsome, Option.bind_some]
      cases prop with
      | ok com =>
        simp only [hfind, Option.bind_some] at hthen
        simp only [hfind', Option.bind_some]
        exact ih hnext hthen
      | error error =>
        obtain ⟨eol, hend, hr⟩ := Option.map_eq_some_iff.mp hthen
        have hdrop : (eventText pre post ++ rest).drop (pre.length + 14) =
            (eventText pre post).drop (pre.length + 14) ++ rest :=
          List.drop_append_of_le_length (by rw [length_eventText]; omega)
        simp only [hdrop, find_append hend, Option.map_some, hr]
    next hge =>
      rw [if_neg hge]
      exact h

theorem eventLoop_bounds {buf : List UInt8} {fuel parsed comEnd : Nat} {com : Component}
    {r : Evt × Nat} (hcom : comEnd ≤ buf.length) (hparsed : parsed ≤ buf.length)
    (hfuel : comEnd ≤ parsed + fuel)
    (h : eventLoop cfg buf comEnd fuel parsed com = some r) :
    comEnd ≤ r.2 ∧ r.2 ≤ buf.length := by
  have hbreak {start eol : Nat} (hstart : start ≤ buf.length)
      (hfind : find crlf (buf.drop start) = some eol) : start + eol + 2 ≤ buf.length := by
    have hle := find_length_le hfind
    rw [show crlf.length = 2 from rfl, List.length_drop] at hle
    omega
  induction fuel generalizing parsed com with
  | zero =>
    rw [eventLoop, Option.some.injEq] at h
    subst h
    exact ⟨hfuel, hparsed⟩
  | succ fuel ih =>
    rw [eventLoop] at h
    split at h
    next hlt =>
      obtain ⟨prop, -, hthen⟩ := Option.bind_eq_some_iff.mp h
      cases prop with
      | ok com =>
        obtain ⟨eol, hfind, hrest⟩ := Option.bind_eq_some_iff.mp hthen
        exact ih (hbreak hparsed hfind) (by omega) hrest
      | error error =>
        obtain ⟨eol, hend, rfl⟩ := Option.map_eq_some_iff.mp hthen
        exact ⟨by simp only; omega, hbreak hcom hend⟩
    next hge =>
      rw [Option.some.injEq] at h
      subst h
      exact ⟨by simp only; omega, hparsed⟩

end Event

def EndLines (text : List UInt8) : Prop :=
  ∀ pre post, text = pre ++ (bytes "END:VEVENT\r\n" ++ post) → 2 ≤ pre.length → crlf <:+ pre

theorem EndLines.of_append {text rest : List UInt8} (h : EndLines (text ++ rest)) :
    EndLines text := by
  intro pre post htext
  exact h pre (post ++ rest) (by simp [htext])

theorem EndLines.drop (h : EndLines text) (n : Nat) :
    EndLines (text.drop n) := by
  intro pre post htext hpre
  have hwhole : text = text.take n ++ pre ++ (bytes "END:VEVENT\r\n" ++ post) := by
    rw [List.append_assoc, ← htext, List.take_append_drop]
  obtain ⟨before, hbefore⟩ := h _ post hwhole (by rw [List.length_append]; omega)
  exact List.suffix_of_suffix_length_le ⟨before, hbefore⟩ (List.suffix_append _ pre) hpre

theorem EndLines.drop_left {text rest : List UInt8} (h : EndLines (text ++ rest)) (n : Nat) :
    EndLines (text.drop n ++ rest) := by
  rcases Nat.le_total n text.length with hle | hle
  · rw [← List.drop_append_of_le_length hle]
    exact h.drop n
  · have hrest := h.drop text.length
    rw [List.drop_left] at hrest
    rwa [List.drop_of_length_le hle, List.nil_append]

theorem exists_eventText {comEnd : Nat} (hbegin : bytes "BEGIN:VEVENT\r\n" <+: text)
    (hlines : EndLines text) (hcomEnd : find (bytes "END:VEVENT\r\n") text = some comEnd) :
    ∃ pre post, text = eventText pre post ∧ comEnd = pre.length + 2 := by
  obtain ⟨before, post, htext, rfl⟩ := find_split hcomEnd
  obtain ⟨tail, htail⟩ := hbegin
  have hlong : 2 ≤ before.length := by
    rw [← htail] at htext
    rcases before with _ | ⟨x, _ | ⟨y, before⟩⟩
    · exact absurd (List.cons.inj htext).1 (by decide)
    · exact absurd (List.cons.inj (List.cons.inj (List.cons.inj htext).2).2).1 (by decide)
    · simp
  obtain ⟨pre, rfl⟩ := hlines before post htext hlong
  refine ⟨pre, post, ?_, ?_⟩
  · rw [htext, eventText, List.append_assoc]
    rfl
  · rw [List.length_append]
    rfl

theorem parseEventprop_append {r : Evt × Nat} (hbegin : bytes "BEGIN:VEVENT\r\n" <+: text)
    (hlines : EndLines text) (h : parseEventprop cfg text = some r) (hr : 0 < r.2)
    (rest : List UInt8) :
    parseEventprop cfg (text ++ rest) = some r ∧ r.2 ≤ text.length := by
  rw [parseEventprop] at h
  split at h
  next =>
    rw [Option.some.injEq] at h
    simp [← h] at hr
  next comEnd hcomEnd =>
    have hle := find_length_le hcomEnd
    rw [show (bytes "END:VEVENT\r\n").length = 12 from rfl] at hle
    refine ⟨?_, (eventLoop_bounds hle (Nat.zero_le _) (by omega) h).2⟩
    rw [parseEventprop, find_append hcomEnd]
    obtain ⟨pre, post, rfl, rfl⟩ := exists_eventText hbegin hlines hcomEnd
    exact eventLoop_append rest (Or.inl (Or.inl (Nat.zero_le _))) h

theorem skipComponent_append {stop text : List UInt8} {id : EvtId}
    (h : 0 < (skipComponent stop id text).2) (rest : List UInt8) :
    skipComponent stop id (text ++ rest) = skipComponent stop id text ∧
      (skipComponent stop id text).2 ≤ text.length := by
  cases hfind : find stop text with
  | none => simp [skipComponent, hfind] at h
  | some comEnd =>
    simp only [skipComponent, find_append hfind, hfind, true_and]
    exact find_length_le hfind

def componentBegins : List (List UInt8) :=
  [bytes "BEGIN:VEVENT\r\n", bytes "BEGIN:VTODO\r\n", bytes "BEGIN:VJOURNAL\r\n",
    bytes "BEGIN:VFREEBUSY\r\n", bytes "BEGIN:VTIMEZONE\r\n"]

theorem begins_unique {a b text : List UInt8} (ha : a ∈ componentBegins)
    (hb : b ∈ componentBegins) (hta : a <+: text) (htb : b <+: text) : a = b := by
  have hpair : ∀ a ∈ componentBegins, ∀ b ∈ componentBegins, a <+: b → a = b := by decide
  rcases Nat.le_total a.length b.length with hle | hle
  · exact hpair a ha b hb (List.prefix_of_prefix_length_le hta htb hle)
  · exact (hpair b hb a ha (List.prefix_of_prefix_length_le htb hta hle)).symm

theorem parseComponent_append {r : Evt × Nat} (hlines : EndLines text)
    (h : parseComponent cfg text = some r) (hr : 0 < r.2) (rest : List UInt8) :
    parseComponent cfg (text ++ rest) = some r ∧ r.2 ≤ text.length := by
  have hkeep {a : List UInt8} (ha : a.isPrefixOf text = true) :
      a.isPrefixOf (text ++ rest) = true :=
    List.isPrefixOf_iff_prefix.mpr
      ((List.isPrefixOf_iff_prefix.mp ha).trans (List.prefix_append text rest))
  have hnot {a b : List UInt8} (ha : a ∈ componentBegins) (hb : b ∈ componentBegins)
      (hne : a ≠ b) (htext : b.isPrefixOf text = true) :
      a.isPrefixOf (text ++ rest) = false := by
    rw [Bool.eq_false_iff]
    exact fun hpre => hne (begins_unique ha hb (List.isPrefixOf_iff_prefix.mp hpre)
      (List.isPrefixOf_iff_prefix.mp (hkeep htext)))
  have hskip {stop : List UInt8} {id : EvtId} (h : some (skipComponent stop id text) = some r) :
      some (skipComponent stop id (text ++ rest)) = some r ∧ r.2 ≤ text.length := by
    obtain rfl := Option.some.inj h
    obtain ⟨happend, hle⟩ := skipComponent_append hr rest
    exact ⟨congrArg some happend, hle⟩
  rw [parseComponent] at h ⊢
  split at h
  next hb =>
    rw [if_pos (hkeep hb)]
    exact parseEventprop_append (List.isPrefixOf_iff_prefix.mp hb) hlines h hr rest
  next =>
    -- the first lines of the other components cannot appear by what follows
    have hno {b : List UInt8} (hb : b ∈ componentBegins) (htext : b.isPrefixOf text = true) :
        ∀ a ∈ componentBegins, a ≠ b → ¬ a.isPrefixOf (text ++ rest) = true := by
      intro a ha hne
      simp [hnot ha hb hne htext]
    split at h
    next hb =>
      have hno := hno (by decide) hb
      rw [if_neg (hno _ (by decide) (by decide)), if_pos (hkeep hb)]
      exact hskip h
    next =>
      split at h
      next hb =>
        have hno := hno (by decide) hb
        rw [if_neg (hno _ (by decide) (by decide)), if_neg (hno _ (by decide) (by decide)),
          if_pos (hkeep hb)]
        exact hskip h
      next =>
        split at h
        next hb =>
          have hno := hno (by decide) hb
          rw [if_neg (hno _ (by decide) (by decide)), if_neg (hno _ (by decide) (by decide)),
            if_neg (hno _ (by decide) (by decide)), if_pos (hkeep hb)]
          exact hskip h
        next =>
          split at h
          next hb =>
            have hno := hno (by decide) hb
            rw [if_neg (hno _ (by decide) (by decide)), if_neg (hno _ (by decide) (by decide)),
              if_neg (hno _ (by decide) (by decide)), if_neg (hno _ (by decide) (by decide)),
              if_pos (hkeep hb)]
            exact hskip h
          next =>
            obtain rfl := Option.some.inj h
            exact absurd hr (lt_irrefl 0)

end SdkNrf.ICalendar
