import SdkNrf.ICalendar.Lines

/-!
# Feeding a calendar in chunks

As long as no data is dropped, the calls of the parser give the events that it gives for the whole text.
-/

namespace SdkNrf.ICalendar

open CString

variable {cfg : Config}

inductive Parses (cfg : Config) : List UInt8 → List Evt → List UInt8 → Prop
  | done {text : List UInt8} {evt : Evt} (h : parseComponent cfg text = some (evt, 0)) :
      Parses cfg text [] text
  | next {text rest : List UInt8} {evt : Evt} {n : Nat} {evts : List Evt}
      (h : parseComponent cfg text = some (evt, n)) (hn : 0 < n)
      (hrest : Parses cfg (text.drop n) evts rest) : Parses cfg text (evt :: evts) rest

theorem Parses.rest {text rest : List UInt8} {evts : List Evt} (h : Parses cfg text evts rest) :
    Parses cfg rest [] rest := by
  induction h with
  | done h => exact .done h
  | next _ _ _ ih => exact ih

theorem Parses.append {text rest rest' more : List UInt8} {evts evts' : List Evt}
    (hlines : EndLines text) (h : Parses cfg text evts rest)
    (h' : Parses cfg (rest ++ more) evts' rest') :
    Parses cfg (text ++ more) (evts ++ evts') rest' := by
  induction h with
  | done h => exact h'
  | @next text rest evt n evts h hn hrest ih =>
    obtain ⟨happend, hle⟩ := parseComponent_append hlines h hn more
    refine .next happend hn ?_
    rw [List.drop_append_of_le_length hle]
    exact ih (hlines.drop n) h'

theorem length_drop_lt {text : List UInt8} {evt : Evt} {n : Nat}
    (h : parseComponent cfg text = some (evt, n)) (hn : 0 < n) :
    (text.drop n).length < text.length := by
  have hpos : 0 < text.length := by
    rw [List.length_pos_iff]
    rintro rfl
    have hnil : parseComponent cfg [] = some (⟨.VEVENT, .NONE, emptyComponent⟩, 0) := rfl
    rw [hnil, Option.some.injEq, Prod.mk.injEq] at h
    omega
  rw [List.length_drop]
  omega

theorem Parses.length_lt {text rest : List UInt8} {evts : List Evt}
    (h : Parses cfg text evts rest) : evts = [] ∨ rest.length < text.length := by
  induction h with
  | done h => exact Or.inl rfl
  | next h hn hrest ih =>
    have hlt := length_drop_lt h hn
    rcases ih with rfl | hless
    · cases hrest
      exact Or.inr hlt
    · exact Or.inr (hless.trans hlt)

theorem parseIcalbody_parses {text : List UInt8} {fuel : Nat} {body : List Evt × Nat}
    (hfuel : text.length < fuel) (h : parseIcalbody cfg fuel text = some body) :
    Parses cfg text body.1 (text.drop body.2) := by
  induction fuel generalizing text body with
  | zero => omega
  | succ fuel ih =>
    rw [parseIcalbody] at h
    obtain ⟨⟨evt, n⟩, hcomponent, hthen⟩ := Option.bind_eq_some_iff.mp h
    simp only at hthen
    split at hthen
    next hzero =>
      obtain rfl := Option.some.inj hthen
      exact .done (hzero ▸ hcomponent)
    next hpos =>
      have hn : 0 < n := Nat.pos_of_ne_zero hpos
      obtain ⟨body, hbody, rfl⟩ := Option.map_eq_some_iff.mp hthen
      have hlt := length_drop_lt hcomponent hn
      refine .next hcomponent hn ?_
      rw [← List.drop_drop]
      exact ih (by omega) hbody

theorem Parses.icalbody {text rest : List UInt8} {evts : List Evt}
    (h : Parses cfg text evts rest) {fuel : Nat} (hfuel : text.length < fuel) :
    ∃ n, parseIcalbody cfg fuel text = some (evts, n) := by
  induction h generalizing fuel with
  | @done text evt h =>
    cases fuel with
    | zero => omega
    | succ fuel => exact ⟨0, by simp [parseIcalbody, h]⟩
  | @next text rest evt n evts h hn hrest ih =>
    cases fuel with
    | zero => omega
    | succ fuel =>
      have hlt := length_drop_lt h hn
      obtain ⟨m, hbody⟩ := ih (show (text.drop n).length < fuel by omega)
      exact ⟨n + m, by simp [parseIcalbody, h, hbody, hn.ne']⟩

def Header (cfg : Config) (begun : Bool) (text : List UInt8) (header : Nat) : Prop :=
  begun = true ∧ header = 0 ∨
    begun = false ∧ 0 < header ∧ parseCalprops cfg text = some header

def Gives (cfg : Config) (begun : Bool) (text : List UInt8) (evts : List Evt) : Prop :=
  ∃ parsed, parseText cfg begun text = some parsed ∧ parsed.evts = evts

variable {begun : Bool}

theorem parseText_of_header {text : List UInt8} {header : Nat} (h : Header cfg begun text header) :
    parseText cfg begun text =
      (parseIcalbody cfg (text.length + 1) (text.drop header)).map fun body =>
        ⟨true, body.1, header + body.2⟩ := by
  rcases h with ⟨rfl, rfl⟩ | ⟨rfl, hpos, hprops⟩
  · rfl
  · simp [parseText, hprops, hpos]

theorem gives_of_parses {text rest : List UInt8} {header : Nat} {evts : List Evt}
    (hheader : Header cfg begun text header) (h : Parses cfg (text.drop header) evts rest) :
    Gives cfg begun text evts := by
  have hlt : (text.drop header).length < text.length + 1 := by
    rw [List.length_drop]
    omega
  obtain ⟨n, hbody⟩ := h.icalbody hlt
  exact ⟨_, by rw [parseText_of_header hheader, hbody]; rfl, rfl⟩

variable {parsed : Parsed}

theorem parseText_cases {text : List UInt8} (h : parseText cfg begun text = some parsed) :
    begun = false ∧ parsed = ⟨false, [], 0⟩ ∨
      ∃ header, Header cfg begun text header ∧ parsed.begun = true ∧ header ≤ parsed.offset ∧
        Parses cfg (text.drop header) parsed.evts (text.drop parsed.offset) := by
  have hbody {header : Nat} (hheader : Header cfg begun text header) :
      parsed.begun = true ∧ header ≤ parsed.offset ∧
        Parses cfg (text.drop header) parsed.evts (text.drop parsed.offset) := by
    rw [parseText_of_header hheader] at h
    obtain ⟨body, hbody, rfl⟩ := Option.map_eq_some_iff.mp h
    have hlt : (text.drop header).length < text.length + 1 := by
      rw [List.length_drop]
      omega
    have hparses := parseIcalbody_parses hlt hbody
    rw [List.drop_drop] at hparses
    exact ⟨rfl, Nat.le_add_right .., hparses⟩
  cases begun with
  | true => exact Or.inr ⟨0, Or.inl ⟨rfl, rfl⟩, hbody (Or.inl ⟨rfl, rfl⟩)⟩
  | false =>
    cases hprops : parseCalprops cfg text with
    | none => simp [parseText, hprops] at h
    | some header =>
      rcases Nat.eq_zero_or_pos header with rfl | hpos
      · simp only [parseText, hprops, Bool.false_eq_true, if_false, Option.bind_some, lt_irrefl,
          decide_false, Bool.or_false, Option.some.injEq] at h
        exact Or.inl ⟨rfl, h.symm⟩
      · exact Or.inr ⟨header, Or.inr ⟨rfl, hpos, hprops⟩, hbody (Or.inr ⟨rfl, hpos, hprops⟩)⟩

theorem Header.append {text : List UInt8} {header : Nat} (h : Header cfg begun text header)
    (more : List UInt8) :
    Header cfg begun (text ++ more) header ∧ header ≤ text.length := by
  rcases h with ⟨rfl, rfl⟩ | ⟨rfl, hpos, hprops⟩
  · exact ⟨Or.inl ⟨rfl, rfl⟩, Nat.zero_le _⟩
  · obtain ⟨happend, hle⟩ := parseCalprops_append hprops hpos more
    exact ⟨Or.inr ⟨rfl, hpos, happend⟩, hle⟩

theorem gives_append {text more : List UInt8} {evts : List Evt} (hlines : EndLines text)
    (h : parseText cfg begun text = some parsed) (hpos : 0 < parsed.offset)
    (hmore : Gives cfg true (text.drop parsed.offset ++ more) evts) :
    parsed.begun = true ∧ Gives cfg begun (text ++ more) (parsed.evts ++ evts) := by
  rcases parseText_cases h with ⟨-, rfl⟩ | ⟨header, hheader, hbegun, -, hparses⟩
  · exact absurd hpos (lt_irrefl 0)
  · obtain ⟨rest, hrest, rfl⟩ := hmore
    obtain ⟨hheader', hle⟩ := hheader.append more
    rcases parseText_cases hrest with ⟨habs, -⟩ | ⟨before, hbefore, -, -, hparses'⟩
    · exact absurd habs (by decide)
    · obtain ⟨-, rfl⟩ | ⟨habs, -⟩ := hbefore
      · have hwhole := Parses.append (hlines.drop header) hparses hparses'
        rw [← List.drop_append_of_le_length hle] at hwhole
        exact ⟨hbegun, gives_of_parses hheader' hwhole⟩
      · exact absurd habs (by decide)

theorem parseText_nothing {text : List UInt8} (h : parseText cfg begun text = some parsed)
    (hzero : parsed.offset = 0) :
    parsed.begun = begun ∧ parsed.evts = [] := by
  rcases parseText_cases h with ⟨rfl, rfl⟩ | ⟨header, hheader, hbegun, hle, hparses⟩
  · exact ⟨rfl, rfl⟩
  · obtain ⟨rfl, rfl⟩ | ⟨-, hpos, -⟩ := hheader
    · rw [hzero] at hparses
      rcases hparses.length_lt with hnil | hlt
      · exact ⟨hbegun, hnil⟩
      · exact absurd hlt (lt_irrefl _)
    · omega

def Parser.pending (ical : Parser) : List UInt8 := ical.buf.take ical.offset

structure Parser.Valid (bufferSize : Nat) (ical : Parser) : Prop where
  bufLen : ical.buf.length = bufferSize + 1
  offset_le : ical.offset ≤ bufferSize

section Call

variable {bufferSize : Nat} {ical : Parser} {data : List UInt8}

theorem Parser.Valid.length_pending (h : ical.Valid bufferSize) :
    ical.pending.length = ical.offset := by
  have hlen := h.bufLen
  have hle := h.offset_le
  exact List.length_take_of_le (by omega)

theorem Parser.received_eq (data : List UInt8) :
    ical.received data =
      ical.pending ++ data ++ 0 :: ical.buf.drop (ical.offset + (data.length + 1)) := by
  simp [Parser.received, Memory.write, Parser.pending]

theorem cstr_received (hnul : 0 ∉ ical.pending ++ data) :
    cstr (ical.received data) = ical.pending ++ data := by
  rw [Parser.received_eq, cstr_append hnul, cstr, List.takeWhile_cons_of_neg (by simp),
    List.append_nil]

theorem Parser.Valid.length_received (h : ical.Valid bufferSize)
    (hfits : ical.offset + data.length ≤ bufferSize) :
    (ical.received data).length = bufferSize + 1 := by
  have hlen := h.bufLen
  have hpending := h.length_pending
  simp only [Parser.received_eq, List.length_append, List.length_cons, List.length_drop, hpending]
  omega

/-- After a call what has not been parsed is pending; but when nothing has been parsed, the new data
is not. -/
theorem Parser.Valid.proceed (h : ical.Valid bufferSize)
    (hfits : ical.offset + data.length ≤ bufferSize) (parsed : Parsed) :
    (ical.proceed (ical.received data) data.length parsed).Valid bufferSize ∧
      (ical.proceed (ical.received data) data.length parsed).pending =
        if parsed.offset = 0 then ical.pending
        else (ical.pending ++ data).drop parsed.offset := by
  have hbufLen := h.length_received hfits
  have hpending := h.length_pending
  rw [Parser.proceed]
  split
  next hzero =>
    refine ⟨⟨hbufLen, h.offset_le⟩, ?_⟩
    rw [Parser.pending, Parser.received_eq, List.append_assoc, List.take_left' hpending]
  next hpos =>
    have hslice : Memory.slice (ical.received data) parsed.offset
        (ical.offset + data.length - parsed.offset) =
          (ical.pending ++ data).drop parsed.offset := by
      have htext : (ical.pending ++ data).length = ical.offset + data.length := by
        rw [List.length_append, hpending]
      rw [Memory.slice, ← List.drop_take, Parser.received_eq, List.take_left' htext]
    have hsliceLen : ((ical.pending ++ data).drop parsed.offset).length =
        ical.offset + data.length - parsed.offset := by
      rw [List.length_drop, List.length_append, hpending]
    simp only [hslice]
    refine ⟨⟨?_, by simp only; omega⟩, ?_⟩
    · simp only [Memory.write, List.take_zero, List.nil_append, List.length_append,
        List.length_drop, hbufLen, hpending]
      omega
    · rw [Parser.pending, Memory.write, List.take_zero, List.nil_append,
        List.take_left' hsliceLen]

theorem icalParserParse_eq (hfits : ical.offset + data.length ≤ bufferSize)
    (hnul : 0 ∉ ical.pending ++ data) :
    icalParserParse cfg bufferSize ical data =
      (parseText cfg ical.icalobjectBegin (ical.pending ++ data)).map fun parsed =>
        (ical.proceed (ical.received data) data.length parsed, parsed.evts, (parsed.offset : Int)) := by
  rw [icalParserParse, if_neg (by omega), cstr_received hnul]

end Call

def components : List (List UInt8 × List UInt8) :=
  [(bytes "BEGIN:VEVENT\r\n", bytes "END:VEVENT\r\n"),
    (bytes "BEGIN:VTODO\r\n", bytes "END:VTODO\r\n"),
    (bytes "BEGIN:VJOURNAL\r\n", bytes "END:VJOURNAL\r\n"),
    (bytes "BEGIN:VFREEBUSY\r\n", bytes "END:VFREEBUSY\r\n"),
    (bytes "BEGIN:VTIMEZONE\r\n", bytes "END:VTIMEZONE\r\n")]

def Complete (begun : Bool) (text : List UInt8) : Prop :=
  if begun then ∃ c ∈ components, c.1 <+: text ∧ (find c.2 text).isSome
  else ∃ start ∈ find (bytes "BEGIN:VCALENDAR\r\n") text,
    (find (bytes "\r\nBEGIN:") (text.drop (start + 17))).isSome

instance (begun : Bool) (text : List UInt8) : Decidable (Complete begun text) := by
  unfold Complete
  infer_instance

def Stuck (text : List UInt8) : Prop := ∀ b ∈ componentBegins, ¬ b <+: text ∧ ¬ text <+: b

instance (text : List UInt8) : Decidable (Stuck text) := by
  unfold Stuck
  infer_instance

/-- No data is dropped that would be missed: each chunk fits into the buffer, completes a component
or the beginning of the calendar, is empty or the last one, or nothing can be parsed any more. And
the text that is parsed is one that keeps the parser in its memory: no folded line is too long with
its folds, and behind an event with a refused property there is a line. -/
def Kept (cfg : Config) (bufferSize : Nat) : Parser → List (List UInt8) → Prop
  | _, [] => True
  | ical, data :: chunks =>
    ical.offset + data.length ≤ bufferSize ∧
      (Complete ical.icalobjectBegin (ical.pending ++ data) ∨ data = [] ∨ chunks.flatten = [] ∨
        ical.icalobjectBegin = true ∧ Stuck ical.pending) ∧
      ∃ parsed, parseText cfg ical.icalobjectBegin (ical.pending ++ data) = some parsed ∧
        Kept cfg bufferSize (ical.proceed (ical.received data) data.length parsed) chunks

instance (cfg : Config) (bufferSize : Nat) :
    ∀ ical chunks, Decidable (Kept cfg bufferSize ical chunks)
  | _, [] => isTrue trivial
  | ical, data :: chunks =>
    match hparsed : parseText cfg ical.icalobjectBegin (ical.pending ++ data) with
    | none => isFalse fun ⟨_, _, parsed, h, _⟩ => by simp [hparsed] at h
    | some parsed =>
      have := instDecidableKept cfg bufferSize
        (ical.proceed (ical.received data) data.length parsed) chunks
      decidable_of_iff (ical.offset + data.length ≤ bufferSize ∧
        (Complete ical.icalobjectBegin (ical.pending ++ data) ∨ data = [] ∨ chunks.flatten = [] ∨
          ical.icalobjectBegin = true ∧ Stuck ical.pending) ∧
        Kept cfg bufferSize (ical.proceed (ical.received data) data.length parsed) chunks) <| by
          rw [Kept, hparsed]
          simp

theorem Stuck.parseComponent {text : List UInt8} (h : Stuck text) (more : List UInt8) :
    parseComponent cfg (text ++ more) = some (⟨.VEVENT, .NONE, emptyComponent⟩, 0) := by
  have hno : ∀ b ∈ componentBegins, ¬ b.isPrefixOf (text ++ more) = true := by
    intro b hb hpre
    rw [List.isPrefixOf_iff_prefix] at hpre
    rcases Nat.le_total b.length text.length with hle | hle
    · exact (h b hb).1 (List.prefix_of_prefix_length_le hpre (List.prefix_append text more) hle)
    · exact (h b hb).2 (List.prefix_of_prefix_length_le (List.prefix_append text more) hpre hle)
  rw [ICalendar.parseComponent, if_neg (hno _ (by decide)), if_neg (hno _ (by decide)),
    if_neg (hno _ (by decide)), if_neg (hno _ (by decide)), if_neg (hno _ (by decide))]

theorem gives_true_iff {text : List UInt8} {evts : List Evt} :
    Gives cfg true text evts ↔ ∃ rest, Parses cfg text evts rest := by
  constructor
  · rintro ⟨parsed, h, rfl⟩
    rcases parseText_cases h with ⟨habs, -⟩ | ⟨header, hheader, -, -, hparses⟩
    · exact absurd habs (by decide)
    · obtain ⟨-, rfl⟩ | ⟨habs, -⟩ := hheader
      · exact ⟨_, hparses⟩
      · exact absurd habs (by decide)
  · rintro ⟨rest, h⟩
    exact gives_of_parses (Or.inl ⟨rfl, rfl⟩) h

theorem Stuck.parseText {text : List UInt8} (h : Stuck text) (more : List UInt8) :
    parseText cfg true (text ++ more) = some ⟨true, [], 0⟩ := by
  rw [parseText_of_header (Or.inl ⟨rfl, rfl⟩), List.drop_zero, parseIcalbody, h.parseComponent]
  rfl

theorem calpropsLoop_ge {buf : List UInt8} {stop fuel parsed n : Nat}
    (h : calpropsLoop cfg buf stop fuel parsed = some n) : parsed ≤ n := by
  induction fuel generalizing parsed with
  | zero =>
    rw [calpropsLoop, Option.some.injEq] at h
    exact h.le
  | succ fuel ih =>
    rw [calpropsLoop] at h
    split at h
    next =>
      obtain ⟨prop, -, hthen⟩ := Option.bind_eq_some_iff.mp h
      obtain ⟨eol, -, hrest⟩ := Option.bind_eq_some_iff.mp hthen
      have hge := ih hrest
      omega
    next =>
      rw [Option.some.injEq] at h
      exact h.le

theorem parseEventprop_pos {text : List UInt8} {r : Evt × Nat}
    (hstop : (find (bytes "END:VEVENT\r\n") text).isSome)
    (h : parseEventprop cfg text = some r) : 0 < r.2 := by
  obtain ⟨comEnd, hcomEnd⟩ := Option.isSome_iff_exists.mp hstop
  have hle := find_length_le hcomEnd
  rw [show (bytes "END:VEVENT\r\n").length = 12 from rfl] at hle
  rw [parseEventprop, hcomEnd] at h
  have hbounds := (eventLoop_bounds hle (Nat.zero_le _) (by omega) h).1
  omega

theorem skipComponent_pos {stop text : List UInt8} {id : EvtId} {r : Evt × Nat}
    (hstop : (find stop text).isSome) (hlen : 0 < stop.length)
    (h : some (skipComponent stop id text) = some r) : 0 < r.2 := by
  obtain ⟨comEnd, hcomEnd⟩ := Option.isSome_iff_exists.mp hstop
  obtain rfl := Option.some.inj h
  simp only [skipComponent, hcomEnd]
  omega

theorem parseComponent_pos {text : List UInt8} {c : List UInt8 × List UInt8} {r : Evt × Nat}
    (hc : c ∈ components) (hbegin : c.1 <+: text) (hstop : (find c.2 text).isSome)
    (h : parseComponent cfg text = some r) : 0 < r.2 := by
  have hmem : ∀ c ∈ components, c.1 ∈ componentBegins := by decide
  have hsame {a b : List UInt8} (hb : b.isPrefixOf text = true) (hbegins : b ∈ componentBegins)
      (ha : ∀ c ∈ components, c.1 = b → c.2 = a) : (find a text).isSome := by
    have heq := begins_unique (hmem c hc) hbegins hbegin (List.isPrefixOf_iff_prefix.mp hb)
    rwa [ha c hc heq] at hstop
  rw [parseComponent] at h
  split at h
  next hb => exact parseEventprop_pos (hsame hb (by decide) (by decide)) h
  next hevent =>
    split at h
    next hb => exact skipComponent_pos (hsame hb (by decide) (by decide)) (by decide) h
    next htodo =>
      split at h
      next hb => exact skipComponent_pos (hsame hb (by decide) (by decide)) (by decide) h
      next hjour =>
        split at h
        next hb => exact skipComponent_pos (hsame hb (by decide) (by decide)) (by decide) h
        next hfb =>
          split at h
          next hb => exact skipComponent_pos (hsame hb (by decide) (by decide)) (by decide) h
          next htz =>
            rw [List.isPrefixOf_iff_prefix] at hevent htodo hjour hfb htz
            simp only [components, List.mem_cons, List.not_mem_nil, or_false] at hc
            rcases hc with rfl | rfl | rfl | rfl | rfl <;> contradiction

theorem Complete.pos {text : List UInt8} (h : Complete begun text)
    (hparsed : parseText cfg begun text = some parsed) :
    0 < parsed.offset := by
  cases begun with
  | true =>
    obtain ⟨c, hc, hbegin, hstop⟩ := h
    by_contra hzero
    obtain ⟨-, hnil⟩ := parseText_nothing hparsed (by omega)
    obtain ⟨rest, hparses⟩ := gives_true_iff.mp ⟨parsed, hparsed, hnil⟩
    cases hparses with
    | done hcomponent => exact absurd (parseComponent_pos hc hbegin hstop hcomponent) (lt_irrefl 0)
  | false =>
    obtain ⟨start, hstart, hstop⟩ := h
    obtain ⟨stop, hstop⟩ := Option.isSome_iff_exists.mp hstop
    cases hprops : parseCalprops cfg text with
    | none => simp [parseText, hprops] at hparsed
    | some header =>
      have hloop := hprops
      rw [Option.mem_def] at hstart
      simp only [parseCalprops, hstart, hstop] at hloop
      have hge := calpropsLoop_ge hloop
      rw [parseText_of_header (Or.inr ⟨rfl, by omega, hprops⟩)] at hparsed
      obtain ⟨body, -, rfl⟩ := Option.map_eq_some_iff.mp hparsed
      exact Nat.add_pos_left (by omega) _

theorem Gives.unique {text : List UInt8} {evts evts' : List Evt} (h : Gives cfg begun text evts)
    (h' : Gives cfg begun text evts') : evts = evts' := by
  obtain ⟨parsed, hparsed, rfl⟩ := h
  obtain ⟨parsed', hparsed', rfl⟩ := h'
  rw [hparsed, Option.some.injEq] at hparsed'
  rw [hparsed']

theorem parseText_idle {text : List UInt8} (h : parseText cfg begun text = some parsed)
    (hpos : 0 < parsed.offset) :
    parsed.begun = true ∧ Gives cfg true (text.drop parsed.offset) [] := by
  rcases parseText_cases h with ⟨-, rfl⟩ | ⟨header, -, hbegun, -, hparses⟩
  · exact absurd hpos (lt_irrefl 0)
  · exact ⟨hbegun, gives_true_iff.mpr ⟨_, hparses.rest⟩⟩

section Feed

variable {bufferSize : Nat} {ical : Parser} {data : List UInt8} {chunks : List (List UInt8)}

theorem feed_cons {parsed : Parsed} {evts : List Evt} {ical' : Parser}
    (hfits : ical.offset + data.length ≤ bufferSize) (hnul : 0 ∉ ical.pending ++ data)
    (hparsed : parseText cfg ical.icalobjectBegin (ical.pending ++ data) = some parsed)
    (h : feed cfg bufferSize (ical.proceed (ical.received data) data.length parsed) chunks =
      some (ical', evts)) :
    feed cfg bufferSize ical (data :: chunks) = some (ical', parsed.evts ++ evts) := by
  rw [feed, icalParserParse_eq hfits hnul, hparsed]
  simp [h]

theorem notMem_append {b : UInt8} {pending rest : List UInt8} (h : b ∉ pending ++ data ++ rest) :
    b ∉ pending ++ rest := by
  simp only [List.mem_append, not_or] at h ⊢
  exact ⟨h.1.1, h.2⟩

theorem feed_stuck (hvalid : ical.Valid bufferSize) (hbegun : ical.icalobjectBegin = true)
    (hstuck : Stuck ical.pending) (hnul : 0 ∉ ical.pending ++ chunks.flatten)
    (hkept : Kept cfg bufferSize ical chunks) :
    ∃ ical', feed cfg bufferSize ical chunks = some (ical', []) := by
  induction chunks generalizing ical with
  | nil => exact ⟨ical, rfl⟩
  | cons data chunks ih =>
    obtain ⟨hfits, -, parsed, hparsed, hrest⟩ := hkept
    rw [List.flatten_cons, ← List.append_assoc] at hnul
    have hnulData : 0 ∉ ical.pending ++ data := fun h => hnul (List.mem_append_left _ h)
    obtain rfl : parsed = ⟨true, [], 0⟩ := by
      rw [hbegun, hstuck.parseText, Option.some.injEq] at hparsed
      exact hparsed.symm
    obtain ⟨hvalid', hpending⟩ := hvalid.proceed hfits ⟨true, [], 0⟩
    rw [if_pos rfl] at hpending
    have hnulRest := notMem_append hnul
    obtain ⟨ical', hfeed⟩ := ih hvalid' rfl (hpending ▸ hstuck) (hpending ▸ hnulRest) hrest
    exact ⟨ical', feed_cons hfits hnulData hparsed hfeed⟩

theorem feed_gives (hvalid : ical.Valid bufferSize) (hnul : 0 ∉ ical.pending ++ chunks.flatten)
    (hlines : EndLines (ical.pending ++ chunks.flatten))
    (hidle : Gives cfg ical.icalobjectBegin ical.pending [])
    (hkept : Kept cfg bufferSize ical chunks) :
    ∃ ical' evts, feed cfg bufferSize ical chunks = some (ical', evts) ∧
      Gives cfg ical.icalobjectBegin (ical.pending ++ chunks.flatten) evts := by
  induction chunks generalizing ical with
  | nil => exact ⟨ical, [], rfl, by simpa using hidle⟩
  | cons data chunks ih =>
    have hkept' := hkept
    obtain ⟨hfits, hdata, parsed, hparsed, hrest⟩ := hkept'
    by_cases hstuck : ical.icalobjectBegin = true ∧ Stuck ical.pending
    · obtain ⟨ical', hfeed⟩ := feed_stuck hvalid hstuck.1 hstuck.2 hnul hkept
      rw [hstuck.1]
      exact ⟨ical', [], hfeed, _, hstuck.2.parseText _, rfl⟩
    rw [List.flatten_cons, ← List.append_assoc] at hnul hlines ⊢
    have hnulData : 0 ∉ ical.pending ++ data := fun h => hnul (List.mem_append_left _ h)
    obtain ⟨hvalid', hpending⟩ := hvalid.proceed hfits parsed
    rcases Nat.eq_zero_or_pos parsed.offset with hzero | hpos
    · -- nothing is parsed, so the data is empty or the last
      obtain ⟨hbegun, hevts⟩ := parseText_nothing hparsed hzero
      have hbegun' : (ical.proceed (ical.received data) data.length parsed).icalobjectBegin =
          ical.icalobjectBegin := by
        rw [Parser.proceed, if_pos hzero, hbegun]
      rw [if_pos hzero] at hpending
      have hlast : data = [] ∨ chunks.flatten = [] := by
        rcases hdata with hcomplete | hdata | hdata | hdata
        · exact absurd (hcomplete.pos hparsed) (by omega)
        · exact Or.inl hdata
        · exact Or.inr hdata
        · exact absurd hdata hstuck
      have hnulRest := notMem_append hnul
      have hlinesRest : EndLines (ical.pending ++ chunks.flatten) := by
        rcases hlast with rfl | hnil
        · simpa using hlines
        · rw [hnil, List.append_nil] at hlines ⊢
          exact hlines.of_append
      obtain ⟨ical', evts, hfeed, hgives⟩ := ih hvalid' (hpending ▸ hnulRest)
        (hpending ▸ hlinesRest) (by rwa [hpending, hbegun']) hrest
      rw [hpending, hbegun'] at hgives
      refine ⟨ical', _, feed_cons hfits hnulData hparsed hfeed, ?_⟩
      rcases hlast with rfl | hnil
      · simpa [hevts] using hgives
      · rw [hnil, List.append_nil] at hgives ⊢
        rw [hevts, hgives.unique hidle]
        exact ⟨parsed, hparsed, hevts⟩
    · obtain ⟨hbegun, hidle'⟩ := parseText_idle hparsed hpos
      have hbegun' : (ical.proceed (ical.received data) data.length parsed).icalobjectBegin =
          true := by
        rw [Parser.proceed, if_neg hpos.ne', hbegun]
      rw [if_neg hpos.ne'] at hpending
      have hnulRest : 0 ∉ (ical.pending ++ data).drop parsed.offset ++ chunks.flatten := by
        intro h
        rcases List.mem_append.mp h with h | h
        · exact hnul (List.mem_append_left _ (List.mem_of_mem_drop h))
        · exact hnul (List.mem_append_right _ h)
      have hlinesRest : EndLines ((ical.pending ++ data).drop parsed.offset ++ chunks.flatten) :=
        hlines.drop_left parsed.offset
      obtain ⟨ical', evts, hfeed, hgives⟩ := ih hvalid' (hpending ▸ hnulRest)
        (hpending ▸ hlinesRest) (by rwa [hpending, hbegun']) hrest
      rw [hpending, hbegun'] at hgives
      exact ⟨ical', _, feed_cons hfits hnulData hparsed hfeed,
        (gives_append hlines.of_append hparsed hpos hgives).2⟩

end Feed

theorem EndLines.of_places {text : List UInt8}
    (h : ∀ i ≤ text.length, bytes "END:VEVENT\r\n" <+: text.drop i → 2 ≤ i →
      crlf <:+ text.take i) : EndLines text := by
  intro pre post htext hpre
  have hplace := h pre.length (by rw [htext, List.length_append]; omega)
  rw [htext, List.drop_left, List.take_left] at hplace
  exact hplace (List.prefix_append _ post) hpre

def teaConfig : Config := ⟨64, 32, 32, 32, 16, 16⟩

def teaHeader : List UInt8 := bytes "BEGIN:VCALENDAR\r\nVERSION:2.0\r\nBEGIN:"

def teaEvent : List UInt8 := bytes "VEVENT\r\nSUMMARY:Tea\r\nEND:VEVENT\r\nBEGIN:VTO"

def teaEnd : List UInt8 := bytes "DO\r\nEND:VTODO\r\nEND:VCALENDAR\r\n"

def teaEvts : List Evt :=
  [⟨.VEVENT, .NONE, { emptyComponent with summary := some ((bytes "Tea").map some) }⟩,
    ⟨.VTODO, .COM_NOT_SUPPORTED, emptyComponent⟩]

end SdkNrf.ICalendar
