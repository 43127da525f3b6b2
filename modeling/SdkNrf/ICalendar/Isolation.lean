import SdkNrf.ICalendar.Lines
import SdkNrf.ICalendar.Unfolding

/-!
# Components of a calendar body

A component is a BEGIN line, any lines, and an END line.
-/

namespace SdkNrf.ICalendar

open CString

def linesText (lines : List (List UInt8)) : List UInt8 := lines.flatMap (· ++ crlf)

@[simp] theorem linesText_nil : linesText [] = [] := rfl

@[simp] theorem linesText_cons (line : List UInt8) (lines : List (List UInt8)) :
    linesText (line :: lines) = line ++ (crlf ++ linesText lines) := by
  simp [linesText]

@[simp] theorem linesText_append (lines more : List (List UInt8)) :
    linesText (lines ++ more) = linesText lines ++ linesText more := by
  simp [linesText]

/-- A component with the lines between its first and its last one. -/
structure Delimited where
  name : List UInt8
  lines : List (List UInt8)
  unbroken_name : ¬ crlf <:+: name
  unbroken : ∀ line ∈ lines, ¬ crlf <:+: line
  notEnd : bytes "END:" ++ name ∉ lines

namespace Delimited

def beginLine (c : Delimited) : List UInt8 := bytes "BEGIN:" ++ c.name

def endLine (c : Delimited) : List UInt8 := bytes "END:" ++ c.name

def body (c : Delimited) : List (List UInt8) := c.beginLine :: c.lines

def text (c : Delimited) : List UInt8 := linesText (c.body ++ [c.endLine])

def kinds : List (List UInt8 × EvtId) :=
  [(bytes "VEVENT", .VEVENT), (bytes "VTODO", .VTODO), (bytes "VJOURNAL", .VJOURNAL),
    (bytes "VFREEBUSY", .VFREEBUSY), (bytes "VTIMEZONE", .VTIMEZONE)]

def kind (c : Delimited) : Option EvtId := kinds.lookup c.name

end Delimited

def componentsText (comps : List Delimited) (tail : List UInt8) : List UInt8 :=
  comps.flatMap Delimited.text ++ tail

inductive Reports (cfg : Config) (tail : List UInt8) : List Delimited → List Evt → Prop
  | nil : Reports cfg tail [] []
  | cons {c : Delimited} {comps : List Delimited} {evt : Evt} {evts : List Evt}
      (hkind : c.kind = some evt.id)
      (hparse : parseComponent cfg (componentsText (c :: comps) tail) = some (evt, c.text.length))
      (hrest : Reports cfg tail comps evts) : Reports cfg tail (c :: comps) (evt :: evts)

/-- The body is parsed without leaving the text, with the events of its components. -/
def IsolatesRight (cfg : Config) (comps : List Delimited) (tail : List UInt8) : Prop :=
  ∃ evts, Reports cfg tail comps evts ∧
    parseIcalbody cfg ((componentsText comps tail).length + 1) (componentsText comps tail) =
      some (evts, (comps.flatMap Delimited.text).length)

section Conditions

variable (cfg : Config)

/-- The property at the beginning of the text, if there is one, is taken. -/
def Accepts (text : List UInt8) : Prop := ∃ com, eventProp cfg text emptyComponent = some (.ok com)

def Refuses (text : List UInt8) : Prop :=
  ∃ error, eventProp cfg text emptyComponent = some (.error error)

def AllAccepted (after : List UInt8) : List (List UInt8) → Prop
  | [] => True
  | line :: lines => Accepts cfg (linesText (line :: lines) ++ after) ∧ AllAccepted after lines

def SomeRefused (after : List UInt8) : List (List UInt8) → Prop
  | [] => False
  | line :: lines => Refuses cfg (linesText (line :: lines) ++ after) ∨
      Accepts cfg (linesText (line :: lines) ++ after) ∧ SomeRefused after lines

def Delimited.EndsFirst (c : Delimited) : Prop := ∀ line ∈ c.lines, ¬ c.endLine <:+ line

def Delimited.EndsSecond (c : Delimited) : Prop :=
  ∃ lines last, c.lines = lines ++ [last] ∧ c.endLine <:+ last ∧ ∀ line ∈ lines, ¬ c.endLine <:+ line

/-- The END line is the first one that ends like it and no property is refused; or the line in front of it is
taken for it, and it is itself skipped after a property that is refused. -/
def Delimited.EventExact (c : Delimited) (rest : List UInt8) : Prop :=
  c.EndsFirst ∧ AllAccepted cfg rest (c.body ++ [c.endLine]) ∨
    c.EndsSecond ∧ SomeRefused cfg (linesText [c.endLine] ++ rest) c.body

def Delimited.Exact (c : Delimited) (rest : List UInt8) : Prop :=
  match c.kind with
  | none => False
  | some .VEVENT => c.EventExact cfg rest
  | some _ => c.EndsFirst

def AllExact (tail : List UInt8) : List Delimited → Prop
  | [] => True
  | c :: comps => c.Exact cfg (componentsText comps tail) ∧ AllExact tail comps

end Conditions

variable {cfg : Config}

section Lines

variable {e line : List UInt8}

theorem not_infix_of_notMem (he : 13 ∉ e) : ¬ crlf <:+: e := by
  intro h
  exact he (h.subset (by decide))

theorem eq_of_isPrefix_crlf (he : ¬ crlf <:+: e) (hline : ¬ crlf <:+: line) {tail : List UInt8}
    (h : e ++ crlf <+: line ++ (crlf ++ tail)) : e = line := by
  obtain ⟨tail', htail'⟩ := h
  rw [List.append_assoc] at htail'
  have hlength := find_crlf_part he tail'
  rw [htail', find_crlf_part hline tail, Option.some.injEq] at hlength
  exact (List.append_inj htail' hlength.symm).1

/-- The first line that ends in `e` is found, at its end. -/
theorem find_line (hcr : 13 ∉ e) (hlf : 10 ∉ e) (hne : e ≠ []) (hline : ¬ crlf <:+: line)
    (tail : List UInt8) :
    find (e ++ crlf) (line ++ (crlf ++ tail)) =
      if e <:+ line then some (line.length - e.length)
      else (find (e ++ crlf) tail).map (· + (line.length + 2)) := by
  induction line with
  | nil =>
    obtain ⟨c, e', rfl⟩ := List.exists_cons_of_ne_nil hne
    simp only [List.mem_cons, not_or] at hcr hlf
    have hno : ¬ c :: e' <:+ [] := by simp
    rw [if_neg hno]
    simp [crlf, bytes, find, Ne.symm hcr.1, Ne.symm hlf.1, Function.comp_def]
  | cons x line ih =>
    have hline' : ¬ crlf <:+: line := fun h => hline (h.trans (List.suffix_cons x line).isInfix)
    rw [List.cons_append, find]
    by_cases heq : e = x :: line
    · have hpre : (e ++ crlf).isPrefixOf (x :: (line ++ (crlf ++ tail))) = true := by
        rw [List.isPrefixOf_iff_prefix]
        exact ⟨tail, by simp [heq]⟩
      rw [if_pos hpre, if_pos (heq ▸ List.suffix_rfl), heq, Nat.sub_self]
    · have hpre : ¬ (e ++ crlf).isPrefixOf (x :: (line ++ (crlf ++ tail))) = true := by
        rw [List.isPrefixOf_iff_prefix]
        exact fun h => heq (eq_of_isPrefix_crlf (not_infix_of_notMem hcr) hline h)
      rw [if_neg hpre, ih hline']
      by_cases hsuf : e <:+ line
      · have hle := hsuf.length_le
        rw [if_pos hsuf, if_pos (hsuf.trans (List.suffix_cons x line)), Option.map_some,
          List.length_cons, Nat.sub_add_comm hle]
      · have hsuf' : ¬ e <:+ x :: line := by
          rw [List.suffix_cons_iff]
          exact fun h => h.elim heq hsuf
        rw [if_neg hsuf, if_neg hsuf', Option.map_map]
        rfl

/-- The first line that ends in `e`. -/
theorem find_lines {lines : List (List UInt8)} {last : List UInt8} (hcr : 13 ∉ e) (hlf : 10 ∉ e)
    (hne : e ≠ []) (hlines : ∀ line ∈ lines, ¬ crlf <:+: line ∧ ¬ e <:+ line)
    (hlast : ¬ crlf <:+: last) (hend : e <:+ last) (tail : List UInt8) :
    find (e ++ crlf) (linesText (lines ++ [last]) ++ tail) =
      some ((linesText (lines ++ [last])).length - (e.length + 2)) := by
  have hle := hend.length_le
  have htwo : crlf.length = 2 := rfl
  induction lines with
  | nil =>
    simp only [List.nil_append, linesText_cons, linesText_nil, List.append_nil, List.append_assoc]
    rw [find_line hcr hlf hne hlast, if_pos hend, List.length_append, htwo, Nat.add_sub_add_right]
  | cons line lines ih =>
    have hline := hlines line (List.mem_cons_self ..)
    simp only [List.cons_append, linesText_cons, List.append_assoc]
    rw [find_line hcr hlf hne hline.1, if_neg hline.2,
      ih fun l hl => hlines l (List.mem_cons_of_mem _ hl), Option.map_some]
    simp only [List.length_append, htwo, linesText_append, linesText_cons, linesText_nil,
      List.append_nil]
    congr 1
    omega

end Lines

section Component

variable {c : Delimited}

theorem isPrefixOf_begin (c : Delimited) {name : List UInt8} (hname : 13 ∉ name)
    (rest : List UInt8) :
    (bytes "BEGIN:" ++ (name ++ crlf)).isPrefixOf (c.text ++ rest) = decide (c.name = name) := by
  have htext : c.text ++ rest = bytes "BEGIN:" ++
      (c.name ++ (crlf ++ (linesText (c.lines ++ [c.endLine]) ++ rest))) := by
    simp [Delimited.text, Delimited.body, Delimited.beginLine]
  rw [Bool.eq_iff_iff, List.isPrefixOf_iff_prefix, decide_eq_true_eq, htext,
    List.prefix_append_right_inj]
  constructor
  · exact fun h => (eq_of_isPrefix_crlf (not_infix_of_notMem hname) c.unbroken_name h).symm
  · rintro rfl
    rw [← List.append_assoc c.name]
    exact List.prefix_append ..

theorem parseComponent_eq (c : Delimited) (rest : List UInt8) :
    parseComponent cfg (c.text ++ rest) =
      match c.kind with
      | none => some (⟨.VEVENT, .NONE, emptyComponent⟩, 0)
      | some .VEVENT => parseEventprop cfg (c.text ++ rest)
      | some id => some (skipComponent (c.endLine ++ crlf) id (c.text ++ rest)) := by
  have htest (name : List UInt8) (hname : 13 ∉ name) := isPrefixOf_begin c hname rest
  have hevent := htest (bytes "VEVENT") (by decide)
  have htodo := htest (bytes "VTODO") (by decide)
  have hjournal := htest (bytes "VJOURNAL") (by decide)
  have hbusy := htest (bytes "VFREEBUSY") (by decide)
  have hzone := htest (bytes "VTIMEZONE") (by decide)
  rw [show bytes "BEGIN:" ++ (bytes "VEVENT" ++ crlf) = bytes "BEGIN:VEVENT\r\n" from rfl] at hevent
  rw [show bytes "BEGIN:" ++ (bytes "VTODO" ++ crlf) = bytes "BEGIN:VTODO\r\n" from rfl] at htodo
  rw [show bytes "BEGIN:" ++ (bytes "VJOURNAL" ++ crlf) = bytes "BEGIN:VJOURNAL\r\n" from rfl]
    at hjournal
  rw [show bytes "BEGIN:" ++ (bytes "VFREEBUSY" ++ crlf) = bytes "BEGIN:VFREEBUSY\r\n" from rfl]
    at hbusy
  rw [show bytes "BEGIN:" ++ (bytes "VTIMEZONE" ++ crlf) = bytes "BEGIN:VTIMEZONE\r\n" from rfl]
    at hzone
  rw [parseComponent, hevent, htodo, hjournal, hbusy, hzone]
  simp only [decide_eq_true_eq, Delimited.kind, Delimited.kinds, Delimited.endLine]
  by_cases h₁ : c.name = bytes "VEVENT"
  · rw [if_pos h₁, h₁]
    rfl
  rw [if_neg h₁]
  by_cases h₂ : c.name = bytes "VTODO"
  · rw [if_pos h₂, h₂]
    rfl
  rw [if_neg h₂]
  by_cases h₃ : c.name = bytes "VJOURNAL"
  · rw [if_pos h₃, h₃]
    rfl
  rw [if_neg h₃]
  by_cases h₄ : c.name = bytes "VFREEBUSY"
  · rw [if_pos h₄, h₄]
    rfl
  rw [if_neg h₄]
  by_cases h₅ : c.name = bytes "VTIMEZONE"
  · rw [if_pos h₅, h₅]
    rfl
  rw [if_neg h₅]
  simp [List.lookup_cons, beq_eq_false_iff_ne.mpr h₁, beq_eq_false_iff_ne.mpr h₂,
    beq_eq_false_iff_ne.mpr h₃, beq_eq_false_iff_ne.mpr h₄, beq_eq_false_iff_ne.mpr h₅]

theorem name_of_kind {id : EvtId} (h : c.kind = some id) : (c.name, id) ∈ Delimited.kinds := by
  rw [Delimited.kind, List.lookup_eq_some_iff] at h
  obtain ⟨before, after, heq, -⟩ := h
  rw [heq]
  simp

theorem not_ends_beginLine (c : Delimited) : ¬ c.endLine <:+ c.beginLine := by
  rintro ⟨before, heq⟩
  have hlength := congrArg List.length heq
  simp only [Delimited.endLine, Delimited.beginLine, List.length_append] at hlength
  rw [show (bytes "END:").length = 4 from rfl, show (bytes "BEGIN:").length = 6 from rfl] at hlength
  have htwo : before.length = 2 := by omega
  have hthird := congrArg (·[2]?) heq
  simp [Delimited.endLine, Delimited.beginLine, htwo, bytes] at hthird

theorem unbroken_endLine (c : Delimited) (hcr : 13 ∉ c.name) : ¬ crlf <:+: c.endLine := by
  apply not_infix_of_notMem
  rw [Delimited.endLine, List.mem_append, not_or]
  exact ⟨by decide, hcr⟩

theorem first_or_none (e : List UInt8) (lines : List (List UInt8)) :
    (∀ line ∈ lines, ¬ e <:+ line) ∨ ∃ before first after, lines = before ++ first :: after ∧
      e <:+ first ∧ ∀ line ∈ before, ¬ e <:+ line := by
  induction lines with
  | nil => exact Or.inl (by simp)
  | cons line lines ih =>
    by_cases hline : e <:+ line
    · exact Or.inr ⟨[], line, lines, rfl, hline, by simp⟩
    · rcases ih with hnone | ⟨before, first, after, heq, hfirst, hbefore⟩
      · exact Or.inl (List.forall_mem_cons.mpr ⟨hline, hnone⟩)
      · exact Or.inr ⟨line :: before, first, after, by rw [heq]; rfl, hfirst,
          List.forall_mem_cons.mpr ⟨hline, hbefore⟩⟩

theorem find_endLine (hcr : 13 ∉ c.name) (hlf : 10 ∉ c.name) {before after : List (List UInt8)}
    {first : List UInt8} (heq : c.body ++ [c.endLine] = before ++ first :: after)
    (hfirst : c.endLine <:+ first) (hbefore : ∀ line ∈ before, ¬ c.endLine <:+ line)
    (rest : List UInt8) : find (c.endLine ++ crlf) (c.text ++ rest) =
      some ((linesText (before ++ [first])).length - (c.endLine.length + 2)) := by
  have hunbroken : ∀ line ∈ c.body ++ [c.endLine], ¬ crlf <:+: line := by
    intro line hline
    rcases List.mem_append.mp hline with hbody | hend
    · rcases List.mem_cons.mp hbody with rfl | hin
      · apply not_infix_of_notMem
        rw [Delimited.beginLine, List.mem_append, not_or]
        exact ⟨by decide, hcr⟩
      · exact c.unbroken line hin
    · rw [List.mem_singleton.mp hend]
      exact unbroken_endLine c hcr
  rw [heq] at hunbroken
  have htext : c.text ++ rest = linesText (before ++ [first]) ++ (linesText after ++ rest) := by
    rw [Delimited.text, heq]
    simp
  have hcr' : 13 ∉ c.endLine := by
    rw [Delimited.endLine, List.mem_append, not_or]
    exact ⟨by decide, hcr⟩
  have hlf' : 10 ∉ c.endLine := by
    rw [Delimited.endLine, List.mem_append, not_or]
    exact ⟨by decide, hlf⟩
  rw [htext]
  apply find_lines hcr' hlf' (by simp [Delimited.endLine, bytes])
  · exact fun line hline => ⟨hunbroken line (by simp [hline]), hbefore line hline⟩
  · exact hunbroken first (by simp)
  · exact hfirst

end Component

def scan (cfg : Config) (after : List UInt8) :
    List (List UInt8) → Component → Option (Evt × Bool)
  | [], com => some (⟨.VEVENT, .NONE, com⟩, false)
  | line :: lines, com =>
    (eventProp cfg (linesText (line :: lines) ++ after) com).bind fun
      | .ok com => scan cfg after lines com
      | .error error => some (⟨.VEVENT, error, com⟩, true)

theorem eventLoop_lines (cfg : Config) (after : List UInt8) {lines : List (List UInt8)}
    (hlines : ∀ line ∈ lines, ¬ crlf <:+: line) (pre : List UInt8) {fuel : Nat}
    (hfuel : lines.length ≤ fuel) (com : Component) :
    eventLoop cfg (pre ++ (linesText lines ++ after)) (pre.length + (linesText lines).length) fuel
        pre.length com =
      (scan cfg after lines com).bind fun found =>
        if found.2 then (find crlf after).map fun eol =>
          (found.1, pre.length + (linesText lines).length + eol + 2)
        else some (found.1, pre.length + (linesText lines).length) := by
  induction lines generalizing pre fuel com with
  | nil =>
    cases fuel with
    | zero => rfl
    | succ fuel =>
      rw [eventLoop, if_neg (by simp)]
      rfl
  | cons line lines ih =>
    cases fuel with
    | zero => simp at hfuel
    | succ fuel =>
      have hbuf : pre ++ (linesText (line :: lines) ++ after) =
          (pre ++ (line ++ crlf)) ++ (linesText lines ++ after) := by simp
      have hlength : pre.length + (linesText (line :: lines)).length =
          (pre ++ (line ++ crlf)).length + (linesText lines).length := by
        simp only [linesText_cons, List.length_append]
        omega
      have hnext : (pre ++ (line ++ crlf)).length = pre.length + line.length + 2 := by
        simp only [List.length_append]
        rfl
      have hfind : find crlf (linesText (line :: lines) ++ after) = some line.length := by
        rw [linesText_cons, List.append_assoc, List.append_assoc]
        exact find_crlf_part (hlines line (List.mem_cons_self ..)) _
      have hcomEnd : (pre ++ (linesText (line :: lines) ++ after)).drop
          (pre.length + (linesText (line :: lines)).length) = after := by
        rw [← List.append_assoc]
        exact List.drop_left' (by rw [List.length_append])
      rw [eventLoop, if_pos (by rw [hlength, hnext]; omega), scan, List.drop_left]
      cases eventProp cfg (linesText (line :: lines) ++ after) com with
      | none => rfl
      | some prop =>
        cases prop with
        | ok com =>
          simp only [Option.bind_some, hfind]
          rw [hbuf, hlength, ← hnext]
          exact ih (fun l hl => hlines l (List.mem_cons_of_mem _ hl)) _
            (Nat.le_of_succ_le_succ hfuel) com
        | error error =>
          simp only [Option.bind_some, hcomEnd]
          rfl

theorem eventProp_status (cfg : Config) (text : List UInt8) (com com' : Component) :
    ((eventProp cfg text com).map fun
      | .ok _ => none
      | .error error => some error) =
    (eventProp cfg text com').map fun
      | .ok _ => none
      | .error error => some error := by
  have hstore (error : ErrorId) (store store' : Scratch → Component)
      (value : Option (Option Scratch)) :
      ((value.map (storeProp error store)).map fun
        | .ok _ => none
        | .error error => some error) =
      (value.map (storeProp error store')).map fun
        | .ok _ => none
        | .error error => some error := by
    rcases value with _ | _ | value <;> rfl
  rw [eventProp, eventProp]
  split_ifs
  · exact hstore ..
  · exact hstore ..
  · exact hstore ..
  · exact hstore ..
  · exact hstore ..
  · rfl

theorem accepts_iff {text : List UInt8} (com : Component) :
    (∃ com', eventProp cfg text com = some (.ok com')) ↔ Accepts cfg text := by
  have hstatus := eventProp_status cfg text com emptyComponent
  rw [Accepts]
  rcases h : eventProp cfg text com with _ | _ | _ <;>
    rcases h' : eventProp cfg text emptyComponent with _ | _ | _ <;> simp_all

theorem refuses_iff {text : List UInt8} (com : Component) :
    (∃ error, eventProp cfg text com = some (.error error)) ↔ Refuses cfg text := by
  have hstatus := eventProp_status cfg text com emptyComponent
  rw [Refuses]
  rcases h : eventProp cfg text com with _ | _ | _ <;>
    rcases h' : eventProp cfg text emptyComponent with _ | _ | _ <;> simp_all

theorem scan_accepted_iff {after : List UInt8} (lines : List (List UInt8)) (com : Component) :
    (∃ evt : Evt, evt.id = .VEVENT ∧ scan cfg after lines com = some (evt, false)) ↔
      AllAccepted cfg after lines := by
  induction lines generalizing com with
  | nil => simp [scan, AllAccepted]
  | cons line lines ih =>
    rw [AllAccepted, ← accepts_iff com, scan]
    rcases eventProp cfg (linesText (line :: lines) ++ after) com with _ | _ | com'
    · simp
    · simp
    · simpa using ih com'

theorem scan_refused_iff {after : List UInt8} (lines : List (List UInt8)) (com : Component) :
    (∃ evt : Evt, evt.id = .VEVENT ∧ scan cfg after lines com = some (evt, true)) ↔
      SomeRefused cfg after lines := by
  induction lines generalizing com with
  | nil => simp [scan, SomeRefused]
  | cons line lines ih =>
    rw [SomeRefused, ← accepts_iff com, ← refuses_iff com, scan]
    rcases eventProp cfg (linesText (line :: lines) ++ after) com with _ | _ | com'
    · simp
    · simp
    · simpa using ih com'

section Exact

variable {c : Delimited}

theorem length_le_linesText (lines : List (List UInt8)) :
    lines.length ≤ (linesText lines).length := by
  induction lines with
  | nil => exact Nat.le_refl 0
  | cons line lines ih =>
    simp only [linesText_cons, List.length_append, List.length_cons]
    rw [show crlf.length = 2 from rfl]
    omega

theorem parseEventprop_taken (hname : c.name = bytes "VEVENT")
    {before after : List (List UInt8)} {first : List UInt8}
    (heq : c.body ++ [c.endLine] = before ++ first :: after) (hfirst : c.endLine <:+ first)
    (hbefore : ∀ line ∈ before, ¬ c.endLine <:+ line) (rest : List UInt8) :
    parseEventprop cfg (c.text ++ rest) =
      (scan cfg (linesText after ++ rest) (before ++ [first]) emptyComponent).bind fun found =>
        if found.2 then (find crlf (linesText after ++ rest)).map fun eol =>
          (found.1, (linesText (before ++ [first])).length + eol + 2)
        else some (found.1, (linesText (before ++ [first])).length) := by
  have hend : c.endLine ++ crlf = bytes "END:VEVENT\r\n" := by
    rw [Delimited.endLine, hname]
    rfl
  have hten : c.endLine.length = 10 := by
    rw [Delimited.endLine, hname]
    rfl
  have hfind := find_endLine (by rw [hname]; decide) (by rw [hname]; decide) heq hfirst hbefore rest
  rw [hend, hten] at hfind
  have hlong : 12 ≤ (linesText (before ++ [first])).length := by
    have hle := hfirst.length_le
    rw [linesText_append, linesText_cons, linesText_nil]
    simp only [List.length_append, List.append_nil]
    rw [show crlf.length = 2 from rfl]
    omega
  have htext : c.text ++ rest = [] ++ (linesText (before ++ [first]) ++ (linesText after ++ rest)) := by
    rw [Delimited.text, heq]
    simp
  have hlines : ∀ line ∈ before ++ [first], ¬ crlf <:+: line := by
    intro line hline
    have hin : line ∈ c.body ++ [c.endLine] := by
      rw [heq]
      simp only [List.mem_append, List.mem_cons] at hline ⊢
      tauto
    rcases List.mem_append.mp hin with hbody | hlast
    · rcases List.mem_cons.mp hbody with rfl | hin
      · apply not_infix_of_notMem
        rw [Delimited.beginLine, hname]
        decide
      · exact c.unbroken line hin
    · rw [List.mem_singleton.mp hlast]
      exact unbroken_endLine c (by rw [hname]; decide)
  have hloop := eventLoop_lines cfg (linesText after ++ rest) hlines []
    (length_le_linesText _) emptyComponent
  rw [parseEventprop, hfind]
  simp only [List.length_nil, Nat.zero_add] at hloop
  simp only [Nat.sub_add_cancel hlong, htext]
  exact hloop

theorem endsFirst_or (c : Delimited) :
    c.EndsFirst ∨ ∃ before first after, c.lines = before ++ first :: after ∧
      c.endLine <:+ first ∧ ∀ line ∈ before, ¬ c.endLine <:+ line :=
  first_or_none c.endLine c.lines

theorem endsSecond_iff {before after : List (List UInt8)} {first : List UInt8}
    (heq : c.lines = before ++ first :: after) (hfirst : c.endLine <:+ first)
    (hbefore : ∀ line ∈ before, ¬ c.endLine <:+ line) : c.EndsSecond ↔ after = [] := by
  constructor
  · rintro ⟨lines, last, heq', -, hlines⟩
    obtain hnil | ⟨after', x, rfl⟩ := List.eq_nil_or_concat' after
    · exact hnil
    rw [heq] at heq'
    have hsplit : (before ++ first :: after') ++ [x] = lines ++ [last] := by simpa using heq'
    obtain ⟨hinit, -⟩ := List.append_inj' hsplit rfl
    exact absurd hfirst (hlines first (by simp [← hinit]))
  · rintro rfl
    exact ⟨before, first, heq, hfirst, hbefore⟩

theorem endsFirst_body (h : c.EndsFirst) : ∀ line ∈ c.body, ¬ c.endLine <:+ line :=
  List.forall_mem_cons.mpr ⟨not_ends_beginLine c, h⟩

theorem parseEventprop_exact (hname : c.name = bytes "VEVENT") (rest : List UInt8) :
    (∃ evt : Evt, evt.id = .VEVENT ∧
      parseEventprop cfg (c.text ++ rest) = some (evt, c.text.length)) ↔ c.EventExact cfg rest := by
  rcases endsFirst_or c with hfirst | ⟨before, first, after, heq, hfirst, hbefore⟩
  · have hsecond : ¬ c.EndsSecond := by
      rintro ⟨lines, last, heq, hlast, -⟩
      exact hfirst last (by simp [heq]) hlast
    rw [parseEventprop_taken hname rfl List.suffix_rfl (endsFirst_body hfirst) rest, Delimited.EventExact,
      ← scan_accepted_iff _ emptyComponent]
    change _ ↔ c.EndsFirst ∧ _ ∨ _
    simp only [hfirst, hsecond, true_and, false_and, or_false, linesText_nil, List.nil_append]
    refine exists_congr fun evt => and_congr_right fun _ => ?_
    have hlength : (linesText (c.body ++ [c.endLine])).length = c.text.length := rfl
    rcases scan cfg rest (c.body ++ [c.endLine]) emptyComponent with _ | ⟨evt', _ | _⟩
    · simp
    · simp only [Option.bind_some, Bool.false_eq_true, if_false, Option.some.injEq, Prod.mk.injEq,
        hlength, and_true]
    · simp only [Option.bind_some, if_true, Option.map_eq_some_iff, Prod.mk.injEq, hlength,
        Option.some.injEq, Bool.true_eq_false, and_false, iff_false]
      rintro ⟨eol, -, -, hlong⟩
      omega
  · have hnot : ¬ c.EndsFirst := fun h => h first (by simp [heq]) hfirst
    have hbody : c.body ++ [c.endLine] = (c.beginLine :: before) ++ first :: (after ++ [c.endLine]) := by
      simp [Delimited.body, heq]
    have hlength : c.text.length = (linesText (c.beginLine :: before ++ [first])).length +
        (linesText (after ++ [c.endLine])).length := by
      rw [Delimited.text, hbody, ← List.length_append, ← linesText_append]
      simp
    rw [parseEventprop_taken hname hbody hfirst
      (List.forall_mem_cons.mpr ⟨not_ends_beginLine c, hbefore⟩) rest, Delimited.EventExact,
      ← scan_refused_iff _ emptyComponent, endsSecond_iff heq hfirst hbefore]
    simp only [hnot, false_and, false_or]
    cases after with
    | nil =>
      have hten : c.endLine.length + 2 = (linesText [c.endLine]).length := by simp; rfl
      have hfind : find crlf (linesText ([] ++ [c.endLine]) ++ rest) = some c.endLine.length := by
        rw [List.nil_append, linesText_cons, List.append_assoc, List.append_assoc]
        exact find_crlf_part (unbroken_endLine c (by rw [hname]; decide)) _
      have hsame : c.beginLine :: before ++ [first] = c.body := by simp [Delimited.body, heq]
      rw [hfind, hlength, hsame, List.nil_append]
      simp only [true_and]
      refine exists_congr fun evt => and_congr_right fun _ => ?_
      rcases scan cfg (linesText [c.endLine] ++ rest) c.body emptyComponent with _ | ⟨evt', _ | _⟩
      · simp
      · refine iff_of_false (fun hparse => ?_) (by simp)
        simp only [Option.bind_some, Bool.false_eq_true, if_false, Option.some.injEq,
          Prod.mk.injEq] at hparse
        omega
      · simp [hten, Nat.add_assoc]
    | cons x after =>
      have hx : ¬ crlf <:+: x := c.unbroken x (by simp [heq])
      have hfind : find crlf (linesText ((x :: after) ++ [c.endLine]) ++ rest) = some x.length := by
        rw [List.cons_append, linesText_cons, List.append_assoc, List.append_assoc]
        exact find_crlf_part hx _
      have htwo : crlf.length = 2 := rfl
      have hlonger : (linesText ((x :: after) ++ [c.endLine])).length ≥ x.length + 2 + 2 := by
        simp only [List.cons_append, linesText_cons, linesText_append, linesText_nil,
          List.length_append, htwo]
        omega
      simp only [reduceCtorEq, false_and, iff_false]
      rintro ⟨evt, -, hparse⟩
      obtain ⟨⟨evt', refused⟩, -, hthen⟩ := Option.bind_eq_some_iff.mp hparse
      cases refused with
      | false =>
        simp only [Bool.false_eq_true, if_false, Option.some.injEq, Prod.mk.injEq] at hthen
        omega
      | true =>
        simp only [hfind, if_true, Option.map_some, Option.some.injEq, Prod.mk.injEq] at hthen
        omega

theorem skipComponent_exact (hcr : 13 ∉ c.name) (hlf : 10 ∉ c.name) (id : EvtId)
    (rest : List UInt8) :
    (skipComponent (c.endLine ++ crlf) id (c.text ++ rest)).2 = c.text.length ↔ c.EndsFirst := by
  have htwo : crlf.length = 2 := rfl
  have hparsed {before after : List (List UInt8)} {first : List UInt8}
      (heq : c.body ++ [c.endLine] = before ++ first :: after) (hfirst : c.endLine <:+ first)
      (hbefore : ∀ line ∈ before, ¬ c.endLine <:+ line) :
      (skipComponent (c.endLine ++ crlf) id (c.text ++ rest)).2 =
        (linesText (before ++ [first])).length := by
    have hle := hfirst.length_le
    rw [skipComponent, find_endLine hcr hlf heq hfirst hbefore rest]
    simp only [List.length_append, linesText_append, linesText_cons, linesText_nil, htwo,
      List.append_nil]
    omega
  rcases endsFirst_or c with hfirst | ⟨before, first, after, heq, hfirst, hbefore⟩
  · rw [hparsed rfl List.suffix_rfl (endsFirst_body hfirst)]
    exact iff_of_true rfl hfirst
  · have hbody : c.body ++ [c.endLine] = (c.beginLine :: before) ++ first :: (after ++ [c.endLine]) := by
      simp [Delimited.body, heq]
    rw [hparsed hbody hfirst (List.forall_mem_cons.mpr ⟨not_ends_beginLine c, hbefore⟩)]
    refine iff_of_false ?_ (fun h => h first (by simp [heq]) hfirst)
    rw [Delimited.text, hbody]
    simp only [linesText_append, linesText_cons, linesText_nil, List.length_append, htwo]
    omega

theorem parseComponent_exact (c : Delimited) (rest : List UInt8) :
    (∃ evt : Evt, c.kind = some evt.id ∧
      parseComponent cfg (c.text ++ rest) = some (evt, c.text.length)) ↔ c.Exact cfg rest := by
  rw [parseComponent_eq, Delimited.Exact]
  cases hkind : c.kind with
  | none => simp
  | some id =>
    have hmem := name_of_kind hkind
    have hclean : ∀ kind ∈ Delimited.kinds, 13 ∉ kind.1 ∧ 10 ∉ kind.1 := by decide
    obtain ⟨hcr, hlf⟩ := hclean _ hmem
    have hskip : (∃ evt : Evt, some id = some evt.id ∧
        some (skipComponent (c.endLine ++ crlf) id (c.text ++ rest)) = some (evt, c.text.length)) ↔
        c.EndsFirst := by
      rw [← skipComponent_exact hcr hlf id rest]
      constructor
      · rintro ⟨evt, -, hparse⟩
        rw [Option.some.inj hparse]
      · intro hlength
        exact ⟨_, rfl, by rw [← hlength]⟩
    cases id with
    | VEVENT =>
      have hname : c.name = bytes "VEVENT" := by simpa [Delimited.kinds] using hmem
      rw [← parseEventprop_exact hname rest]
      simp [eq_comm]
    | VTODO => exact hskip
    | VJOURNAL => exact hskip
    | VTIMEZONE => exact hskip
    | VFREEBUSY => exact hskip

end Exact

theorem componentsText_cons (c : Delimited) (comps : List Delimited) (tail : List UInt8) :
    componentsText (c :: comps) tail = c.text ++ componentsText comps tail := by
  simp [componentsText]

theorem length_text_pos (c : Delimited) : 0 < c.text.length := by
  simp [Delimited.text, Delimited.body, Delimited.beginLine, bytes]

theorem reports_iff {tail : List UInt8} (comps : List Delimited) :
    (∃ evts, Reports cfg tail comps evts) ↔ AllExact cfg tail comps := by
  induction comps with
  | nil => exact iff_of_true ⟨[], .nil⟩ trivial
  | cons c comps ih =>
    rw [AllExact, ← ih, ← parseComponent_exact c, ← componentsText_cons]
    constructor
    · rintro ⟨_, hreports⟩
      cases hreports with
      | cons hkind hparse hrest => exact ⟨⟨_, hkind, hparse⟩, _, hrest⟩
    · rintro ⟨⟨evt, hkind, hparse⟩, evts, hrest⟩
      exact ⟨_, .cons hkind hparse hrest⟩

theorem Reports.icalbody {tail : List UInt8} (htail : ∀ start ∈ componentBegins, ¬ start <+: tail)
    {comps : List Delimited} {evts : List Evt} (h : Reports cfg tail comps evts) {fuel : Nat}
    (hfuel : comps.length < fuel) : parseIcalbody cfg fuel (componentsText comps tail) =
      some (evts, (comps.flatMap Delimited.text).length) := by
  induction h generalizing fuel with
  | nil =>
    obtain ⟨fuel, rfl⟩ := Nat.exists_eq_add_of_lt hfuel
    have hno {start : List UInt8} (hstart : start ∈ componentBegins) :
        ¬ start.isPrefixOf tail = true := fun h => htail start hstart (List.isPrefixOf_iff_prefix.mp h)
    rw [parseIcalbody, show componentsText [] tail = tail from rfl, parseComponent,
      if_neg (hno (by decide)), if_neg (hno (by decide)), if_neg (hno (by decide)),
      if_neg (hno (by decide)), if_neg (hno (by decide))]
    rfl
  | @cons c comps evt evts hkind hparse hrest ih =>
    cases fuel with
    | zero => simp at hfuel
    | succ fuel =>
      have hpos := length_text_pos c
      rw [parseIcalbody, hparse, Option.bind_some, if_neg (by simp only; omega)]
      have hdrop : (componentsText (c :: comps) tail).drop c.text.length =
          componentsText comps tail := by rw [componentsText_cons, List.drop_left]
      simp only [hdrop, ih (Nat.lt_of_succ_lt_succ hfuel)]
      simp

theorem length_le_componentsText (comps : List Delimited) (tail : List UInt8) :
    comps.length ≤ (componentsText comps tail).length := by
  induction comps with
  | nil => exact Nat.zero_le _
  | cons c comps ih =>
    have hpos := length_text_pos c
    rw [componentsText_cons, List.length_append, List.length_cons]
    omega

/-- A body of components is parsed component by component exactly when every one of them is isolated. -/
theorem isolates_iff (cfg : Config) (comps : List Delimited) {tail : List UInt8}
    (htail : ∀ start ∈ componentBegins, ¬ start <+: tail) :
    IsolatesRight cfg comps tail ↔ AllExact cfg tail comps := by
  rw [← reports_iff comps]
  constructor
  · rintro ⟨evts, hreports, -⟩
    exact ⟨evts, hreports⟩
  · rintro ⟨evts, hreports⟩
    exact ⟨evts, hreports,
      hreports.icalbody htail (Nat.lt_succ_of_le (length_le_componentsText comps tail))⟩

theorem taskName_unbroken : ¬ crlf <:+: bytes "VTODO" := by decide

theorem taskLines_unbroken : ∀ line ∈ [bytes "UID:1"], ¬ crlf <:+: line := by decide

theorem taskLines_notEnd : bytes "END:" ++ bytes "VTODO" ∉ [bytes "UID:1"] := by decide

def taskComponent : Delimited where
  name := bytes "VTODO"
  lines := [bytes "UID:1"]
  unbroken_name := taskName_unbroken
  unbroken := taskLines_unbroken
  notEnd := taskLines_notEnd

theorem eventName_unbroken : ¬ crlf <:+: bytes "VEVENT" := by decide

theorem eventLines_unbroken : ∀ line ∈ [bytes "SUMMARY;X=1:Tea"], ¬ crlf <:+: line := by decide

theorem eventLines_notEnd : bytes "END:" ++ bytes "VEVENT" ∉ [bytes "SUMMARY;X=1:Tea"] := by decide

def badEvent : Delimited where
  name := bytes "VEVENT"
  lines := [bytes "SUMMARY;X=1:Tea"]
  unbroken_name := eventName_unbroken
  unbroken := eventLines_unbroken
  notEnd := eventLines_notEnd

theorem taskComponent_isolated :
    IsolatesRight ⟨64, 32, 32, 32, 16, 16⟩ [taskComponent] (bytes "END:VCALENDAR\r\n") := by
  have hfirst : taskComponent.EndsFirst := by
    unfold Delimited.EndsFirst
    decide
  exact (isolates_iff _ _ (by decide)).mpr ⟨hfirst, trivial⟩

/-- The task behind the event is lost: its first line is skipped. -/
theorem badEvent_wrong : ¬ IsolatesRight ⟨64, 32, 32, 32, 16, 16⟩ [badEvent, taskComponent]
    (bytes "END:VCALENDAR\r\n") := by
  rintro ⟨evts, hreports, hbody⟩
  have hlost : parseIcalbody ⟨64, 32, 32, 32, 16, 16⟩
      ((componentsText [badEvent, taskComponent] (bytes "END:VCALENDAR\r\n")).length + 1)
      (componentsText [badEvent, taskComponent] (bytes "END:VCALENDAR\r\n")) =
        some ([⟨.VEVENT, .SUMMARY, emptyComponent⟩], 56) := by decide
  rw [hlost, Option.some.injEq, Prod.mk.injEq] at hbody
  rw [← hbody.1] at hreports
  cases hreports with
  | cons _ _ hrest => cases hrest

end SdkNrf.ICalendar
