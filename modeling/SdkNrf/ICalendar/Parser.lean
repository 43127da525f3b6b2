import SdkNrf.Framework.Bytes
import SdkNrf.Framework.CString

/-!
# The iCalendar parser

`icalendar_parser.c`.
-/

namespace SdkNrf.ICalendar

open CString

structure Config where
  maxPropertySize : Nat
  summarySize : Nat
  locationSize : Nat
  descriptionSize : Nat
  dtstartSize : Nat
  dtendSize : Nat

/-- `enum ical_parser_evt_id`. -/
inductive EvtId
  | VEVENT
  | VTODO
  | VJOURNAL
  | VTIMEZONE
  | VFREEBUSY
  deriving DecidableEq, Repr

/-- `enum ical_parser_error_id`. -/
inductive ErrorId
  | NONE
  | SUMMARY
  | LOCATION
  | DESCRIPTION
  | DTSTART
  | DTEND
  | COM_NOT_SUPPORTED
  deriving DecidableEq, Repr

/-- Bytes on the stack; those that were never written are `none`. -/
abbrev Scratch := List (Option UInt8)

/-- `struct ical_component`. A property that is not written is `none`. -/
structure Component where
  summary : Option Scratch
  location : Option Scratch
  description : Option Scratch
  dtstart : Option Scratch
  dtend : Option Scratch
  deriving DecidableEq

/-- `struct ical_parser_evt`. -/
structure Evt where
  id : EvtId
  error : ErrorId
  icalCom : Component
  deriving DecidableEq

def crlf : List UInt8 := bytes "\r\n"

section ContentLine

variable (cfg : Config)

/-- Copy `line` to offset `off` of the scratch buffer. -/
def Scratch.write (propBuf : Scratch) (off : Nat) (line : List UInt8) : Scratch :=
  propBuf.take off ++ line.map some ++ propBuf.drop (off + line.length)

/-- The loop of `unfold_contentline` at `sol`, when `done` bytes of the content line are behind it
and `total` bytes of it have been copied: the size when the end of the line is reached. The line
lengths are 16 bits wide. -/
def unfoldLoop : Nat → List UInt8 → Scratch → Nat → Nat → Option Nat × Scratch
  | 0, _, propBuf, _, _ => (none, propBuf)
  | fuel + 1, sol, propBuf, total, done =>
    match find crlf sol with
    | none => (none, propBuf)
    | some eol =>
      let single := eol % 2 ^ 16
      if total + single ≤ cfg.maxPropertySize then
        let propBuf := propBuf.write total (sol.take single)
        if (bytes "\r\n ").isPrefixOf (sol.drop eol) then
          unfoldLoop fuel (sol.drop (eol + 3)) propBuf ((total + single) % 2 ^ 16) (done + eol + 3)
        else (some (done + eol), propBuf)
      else (none, propBuf)

/-- `unfold_contentline`: the size and the buffer. The size counts the folds, which are not
copied. -/
def unfoldContentline (buf : List UInt8) : Option (Nat × Scratch) :=
  let unfolded := unfoldLoop cfg (buf.length + 1) buf
    (List.replicate (cfg.maxPropertySize + 1) none) 0 0
  match unfolded.1 with
  | none => some (0, unfolded.2)
  | some size =>
    if size ≤ cfg.maxPropertySize then some (size, unfolded.2.set size (some 0)) else none

def propValue (unfolded : Nat × Scratch) (start maxValueLen : Nat) : Option Scratch :=
  if unfolded.1 - start ≤ maxValueLen then
    some ((unfolded.2.drop start).take (unfolded.1 - start))
  else none

/-- `parse_desc_props`: the value, or `none` for `false`. Parameters are not supported. -/
def parseDescProps (buf : List UInt8) (nameSize maxValueLen : Nat) : Option (Option Scratch) :=
  (unfoldContentline cfg buf).bind fun unfolded =>
    if unfolded.1 = 0 then some none
    else
      match unfolded.2[nameSize]? with
      | some (some 58) => some (propValue unfolded (nameSize + 1) maxValueLen)
      | some (some _) => some none
      | _ => none

/-- `strchr` on a scratch buffer. -/
def scratchChr (c : UInt8) : Scratch → Option (Option Nat)
  | [] => none
  | none :: _ => none
  | some b :: rest =>
    if b = c then some (some 0)
    else if b = 0 then some none
    else (scratchChr c rest).map fun i => i.map (· + 1)

/-- `parse_datetime_props`: as `parse_desc_props`, but parameters are skipped. -/
def parseDatetimeProps (buf : List UInt8) (nameSize maxValueLen : Nat) :
    Option (Option Scratch) :=
  (unfoldContentline cfg buf).bind fun unfolded =>
    if unfolded.1 = 0 then some none
    else
      match unfolded.2[nameSize]? with
      | some (some 58) => some (propValue unfolded (nameSize + 1) maxValueLen)
      | some (some 59) => (scratchChr 58 unfolded.2).map fun colon =>
          colon.bind fun i => propValue unfolded (i + 1) maxValueLen
      | some (some _) => some none
      | _ => none

end ContentLine

section Calprops

variable (cfg : Config)

/-- The loop of `parse_calprops` up to `end`; what it reads is only logged. -/
def calpropsLoop (buf : List UInt8) (stop : Nat) : Nat → Nat → Option Nat
  | 0, parsed => some parsed
  | fuel + 1, parsed =>
    if parsed < stop then
      let line := buf.drop parsed
      let prop :=
        if (bytes "PRODID").isPrefixOf line then
          parseDescProps cfg line 6 (cfg.maxPropertySize + 1)
        else if (bytes "VERSION").isPrefixOf line then
          parseDescProps cfg line 7 (cfg.maxPropertySize + 1)
        else some none
      prop.bind fun _ => (find crlf line).bind fun eol =>
        calpropsLoop buf stop fuel (parsed + eol + 2)
    else some parsed

/-- `parse_calprops`: how many bytes the beginning of the calendar has, or 0. -/
def parseCalprops (buf : List UInt8) : Option Nat :=
  match find (bytes "BEGIN:VCALENDAR\r\n") buf with
  | none => some 0
  | some start =>
    let parsed := start + 17
    match find (bytes "\r\nBEGIN:") (buf.drop parsed) with
    | none => some 0
    | some stop => calpropsLoop cfg buf (parsed + stop + 2) (parsed + stop + 2) parsed

end Calprops

section Components

variable (cfg : Config)

/-- `!strncasecmp(parsed, name, strlen(name))`. -/
def hasName (name : List UInt8) (parsed : List UInt8) : Bool :=
  (parsed.take name.length).map toLower == name.map toLower

def storeProp (error : ErrorId) (store : Scratch → Component) (value : Option Scratch) :
    Except ErrorId Component :=
  match value with
  | some value => .ok (store value)
  | none => .error error

/-- The property at `parsed`, if it is one of those that an event has. -/
def eventProp (parsed : List UInt8) (com : Component) : Option (Except ErrorId Component) :=
  if hasName (bytes "SUMMARY") parsed then
    (parseDescProps cfg parsed 7 cfg.summarySize).map
      (storeProp .SUMMARY fun value => { com with summary := some value })
  else if hasName (bytes "LOCATION") parsed then
    (parseDescProps cfg parsed 8 cfg.locationSize).map
      (storeProp .LOCATION fun value => { com with location := some value })
  else if hasName (bytes "DESCRIPTION") parsed then
    (parseDescProps cfg parsed 11 cfg.descriptionSize).map
      (storeProp .DESCRIPTION fun value => { com with description := some value })
  else if hasName (bytes "DTSTART") parsed then
    (parseDatetimeProps cfg parsed 7 cfg.dtstartSize).map
      (storeProp .DTSTART fun value => { com with dtstart := some value })
  else if hasName (bytes "DTEND") parsed then
    (parseDatetimeProps cfg parsed 5 cfg.dtendSize).map
      (storeProp .DTEND fun value => { com with dtend := some value })
  else some (.ok com)

/-- The loop of `parse_eventprop` up to `com_end`. After an error it goes on from `com_end`, so
that one more line is skipped. -/
def eventLoop (buf : List UInt8) (comEnd : Nat) : Nat → Nat → Component → Option (Evt × Nat)
  | 0, parsed, com => some (⟨.VEVENT, .NONE, com⟩, parsed)
  | fuel + 1, parsed, com =>
    if parsed < comEnd then
      (eventProp cfg (buf.drop parsed) com).bind fun
        | .ok com => (find crlf (buf.drop parsed)).bind fun eol =>
            eventLoop buf comEnd fuel (parsed + eol + 2) com
        | .error error => (find crlf (buf.drop comEnd)).map fun eol =>
            (⟨.VEVENT, error, com⟩, comEnd + eol + 2)
    else some (⟨.VEVENT, .NONE, com⟩, parsed)

def emptyComponent : Component := ⟨none, none, none, none, none⟩

/-- `parse_eventprop`: the event and how many bytes it has; 0 when its end is missing. -/
def parseEventprop (buf : List UInt8) : Option (Evt × Nat) :=
  match find (bytes "END:VEVENT\r\n") buf with
  | none => some (⟨.VEVENT, .NONE, emptyComponent⟩, 0)
  | some comEnd => eventLoop cfg buf (comEnd + 12) (comEnd + 12) 0 emptyComponent

def skipComponent (stop : List UInt8) (id : EvtId) (buf : List UInt8) : Evt × Nat :=
  (⟨id, .COM_NOT_SUPPORTED, emptyComponent⟩,
    match find stop buf with
    | none => 0
    | some comEnd => comEnd + stop.length)

def parseTodoprop : List UInt8 → Evt × Nat := skipComponent (bytes "END:VTODO\r\n") .VTODO

def parseJourprop : List UInt8 → Evt × Nat := skipComponent (bytes "END:VJOURNAL\r\n") .VJOURNAL

def parseFbprop : List UInt8 → Evt × Nat := skipComponent (bytes "END:VFREEBUSY\r\n") .VFREEBUSY

def parseTzprop : List UInt8 → Evt × Nat := skipComponent (bytes "END:VTIMEZONE\r\n") .VTIMEZONE

/-- `parse_component`. When nothing is parsed the event does not matter. -/
def parseComponent (buf : List UInt8) : Option (Evt × Nat) :=
  if (bytes "BEGIN:VEVENT\r\n").isPrefixOf buf then parseEventprop cfg buf
  else if (bytes "BEGIN:VTODO\r\n").isPrefixOf buf then some (parseTodoprop buf)
  else if (bytes "BEGIN:VJOURNAL\r\n").isPrefixOf buf then some (parseJourprop buf)
  else if (bytes "BEGIN:VFREEBUSY\r\n").isPrefixOf buf then some (parseFbprop buf)
  else if (bytes "BEGIN:VTIMEZONE\r\n").isPrefixOf buf then some (parseTzprop buf)
  else some (⟨.VEVENT, .NONE, emptyComponent⟩, 0)

/-- `parse_icalbody`: the events and how many bytes they have. -/
def parseIcalbody : Nat → List UInt8 → Option (List Evt × Nat)
  | 0, _ => some ([], 0)
  | fuel + 1, buf =>
    (parseComponent cfg buf).bind fun component =>
      if component.2 = 0 then some ([], 0)
      else (parseIcalbody fuel (buf.drop component.2)).map fun body =>
        (component.1 :: body.1, component.2 + body.2)

end Components

/-- `struct icalendar_parser`. -/
structure Parser where
  buf : List UInt8
  offset : Nat
  icalobjectBegin : Bool
  deriving DecidableEq

section Parse

variable (cfg : Config)

structure Parsed where
  begun : Bool
  evts : List Evt
  offset : Nat

/-- What `ical_parser_parse` parses of the string in the buffer. -/
def parseText (begun : Bool) (text : List UInt8) : Option Parsed :=
  (if begun then some 0 else parseCalprops cfg text).bind fun header =>
    if begun || 0 < header then
      (parseIcalbody cfg (text.length + 1) (text.drop header)).map fun body =>
        ⟨true, body.1, header + body.2⟩
    else some ⟨false, [], 0⟩

/-- The parser after a call with `len` bytes that were put into `buf`. The offset changes only when
something has been parsed. -/
def Parser.proceed (ical : Parser) (buf : List UInt8) (len : Nat) (parsed : Parsed) : Parser :=
  if parsed.offset = 0 then { ical with buf := buf, icalobjectBegin := parsed.begun }
  else
    let offset := ical.offset + len - parsed.offset
    { buf := Memory.write buf 0 (Memory.slice buf parsed.offset offset)
      offset := offset
      icalobjectBegin := parsed.begun }

def Parser.received (ical : Parser) (data : List UInt8) : List UInt8 :=
  Memory.write ical.buf ical.offset (data ++ [0])

/-- `ical_parser_parse` with a buffer for `bufferSize` bytes: the parser, the events and the result,
which is `-ENOBUFS` when the data does not fit. -/
def icalParserParse (bufferSize : Nat) (ical : Parser) (data : List UInt8) :
    Option (Parser × List Evt × Int) :=
  if bufferSize < ical.offset + data.length then some (ical, [], -105)
  else
    (parseText cfg ical.icalobjectBegin (cstr (ical.received data))).map fun parsed =>
      (ical.proceed (ical.received data) data.length parsed, parsed.evts, parsed.offset)

/-- `ical_parser_init`, for a buffer with any contents. -/
def icalParserInit (buf : List UInt8) : Parser := ⟨buf, 0, false⟩

def feed (bufferSize : Nat) : Parser → List (List UInt8) → Option (Parser × List Evt)
  | ical, [] => some (ical, [])
  | ical, data :: chunks =>
    (icalParserParse cfg bufferSize ical data).bind fun called =>
      (feed bufferSize called.1 chunks).map fun rest => (rest.1, called.2.1 ++ rest.2)

end Parse

end SdkNrf.ICalendar
