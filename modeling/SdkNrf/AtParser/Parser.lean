import SdkNrf.AtParser.Characters

/-!
# The AT command parser

`lib/at_cmd_parser/at_cmd_parser.c` with the part of `at_params.c` that it stores its results with.
-/

namespace SdkNrf.AtParser

/-- `struct at_param`: its type together with the value stored for that type. -/
inductive Param
  | invalid
  | numShort (v : Nat)
  | numInt (v : Nat)
  | string (s : List Char)
  | array (vs : List Nat)
  | empty
  deriving DecidableEq, Repr

/-- `struct at_param_list`: one entry for each of its `param_count` parameters. -/
abbrev ParamList := List Param

def listClear (list : ParamList) : ParamList := list.map fun _ => .invalid

/-- `at_params_short_put`, `at_params_int_put` and `at_params_empty_put`: nothing is stored at an
index outside the list. -/
def put (list : ParamList) (index : Nat) (p : Param) : ParamList := list.set index p

def stringPut (alloc : Nat → Bool) (list : ParamList) (index : Nat) (s : List Char) : ParamList :=
  if alloc (s.length + 1) then put list index (.string s) else list

/-- `at_params_array_put`, with elements of four bytes. -/
def arrayPut (alloc : Nat → Bool) (list : ParamList) (index : Nat) (vs : List Nat) : ParamList :=
  if alloc (vs.length * 4) then put list index (.array vs) else list

inductive State
  | idle
  | array
  | string
  | quotedString
  | number
  | smsPdu
  | notification
  | command
  | optional
  deriving DecidableEq, Repr

/-- `at_parse_detect_type`: the new state and the pointer, `none` for -1. -/
def detectType (state : State) (index : Nat) (str : List Char) : Option (State × List Char) :=
  if index = 0 ∧ isNotification (cur str) then some (.notification, str)
  else if index = 0 ∧ isCommand str then some (.command, str)
  else if index = 0 then some (.string, str)
  else if isNotification (cur str) then none
  else if isNumber (cur str) then some (.number, str)
  else if isDblquote (cur str) then some (.quotedString, str.tail)
  else if isArrayStart (cur str) then some (.array, str.tail)
  -- A line break behind a number: what follows is PDU data.
  else if isLfcr (cur str) ∧ state = .number then some (.smsPdu, str.dropWhile isLfcr)
  else if isLfcr (cur str) ∧ state = .optional then some (.optional, str)
  else if isSeparator (cur str) then some (.optional, str)
  else none

def skipCommandPrefix (cmd : List Char) : List Char :=
  let cmd := cmd.drop 2
  if isLfcr (cur cmd) ∨ isTerminated (cur cmd) then cmd else cmd.tail

def skipReadTest (str : List Char) : List Char :=
  if cur str = '=' ∧ cur str.tail = '?' then str.drop 2
  else if cur str = '?' then str.tail
  else str

/-- `AT_CMD_MAX_ARRAY_SIZE`. -/
def cmdMaxArraySize : Nat := 32

/-- The loop over an array: the numbers found so far with those that follow, and the pointer at
which the loop is left. -/
def arrayLoop (values : List Nat) : List Char → List Nat × List Char
  | [] => (values, [])
  | c :: cs =>
    if isArrayStop c ∨ isTerminated c then (values, c :: cs)
    else if isSeparator c then
      let next := (strtoul cs).2
      let values := values ++ [(strtoul cs).1 % 2 ^ 32]
      if _h : cs.length = next.length then (values, cs)
      else if values.length = cmdMaxArraySize then (values, next)
      else arrayLoop values next
    else if values.length = cmdMaxArraySize then (values, cs)
    else arrayLoop values cs
termination_by rest => rest.length
decreasing_by
  · have := (strtoul_suffix cs).length_le
    simp only [List.length_cons]
    omega
  · exact Nat.lt_succ_self _

/-- The value of an `int` that a `uint32_t` is assigned to. -/
def toInt32 (v : Nat) : Int := if v < 2 ^ 31 then v else (v : Int) - 2 ^ 32

/-- A number is stored as a short when the `int` it is converted to is at most `USHRT_MAX`. -/
def numberParam (v : Nat) : Param :=
  if toInt32 v ≤ 65535 then .numShort ((toInt32 v) % 2 ^ 16).toNat
  else .numInt v

/-- `at_parse_process_element`: the pointer behind the element and the list, `none` for -1. -/
def processElement (alloc : Nat → Bool) (state : State) (index : Nat) (str : List Char)
    (list : ParamList) : Option (Cursor × ParamList) :=
  if isTerminated (cur str) then none
  else match state with
    | .notification =>
      let after := str.tail.dropWhile isValidNotificationChar
      let name := str.take 1 ++ str.tail.takeWhile isValidNotificationChar
      some (.at after, stringPut alloc list index name)
    | .command =>
      let after := (skipCommandPrefix str).dropWhile isValidNotificationChar
      let name := str.take (str.length - after.length)
      some (.at (skipReadTest after), stringPut alloc list index name)
    | .optional => some (.at str, put list index .empty)
    | .string =>
      let inside := fun c => !isLfcr c && !isTerminated c
      some (skip (str.dropWhile inside), stringPut alloc list index (str.takeWhile inside))
    | .quotedString =>
      let inside := fun c => !isDblquote c && !isTerminated c
      some (skip (str.dropWhile inside), stringPut alloc list index (str.takeWhile inside))
    | .array =>
      let (v, next) := strtoul str
      let (values, after) := arrayLoop [v % 2 ^ 32] next
      some (skip after, arrayPut alloc list index values)
    | .number =>
      let (v, next) := strtoul str
      some (.at next, put list index (numberParam (v % 2 ^ 32)))
    | .smsPdu =>
      some (.at (str.dropWhile isXDigit), stringPut alloc list index (str.takeWhile isXDigit))
    | .idle => some (.at str, list)

/-- The variables of `at_parse_param`. -/
structure ParserState where
  state : State
  index : Nat
  str : List Char
  list : ParamList

inductive Round
  | next (s : ParserState)
  | done (s : ParserState) (oversized : Bool)

def parseElement (alloc : Nat → Bool) (s : ParserState) : Option Cursor × ParserState :=
  match detectType s.state s.index s.str with
  | none => (none, s)
  | some (state, str) =>
    match processElement alloc state s.index str s.list with
    | none => (none, { s with state, str })
    | some (cursor, list) => (some cursor, { s with state, str, list })

theorem detectType_separator {state : State} {index : Nat} {str : List Char}
    (hindex : index ≠ 0) (h : isSeparator (cur str) = true) :
    detectType state index str = some (.optional, str) := by
  rw [detectType, if_neg (fun h => hindex h.1), if_neg (fun h => hindex h.1), if_neg hindex]
  rcases isSeparator_iff.mp h with hc | hc | hc <;> rw [hc] <;> rfl

theorem not_isTerminated_of_isSeparator {c : Char} (h : isSeparator c = true) :
    isTerminated c = false := by
  rcases isSeparator_iff.mp h with rfl | rfl | rfl <;> rfl

theorem parseElement_separator (alloc : Nat → Bool) {index : Nat} (hindex : index ≠ 0)
    (state : State) (list : ParamList) {str : List Char} (h : isSeparator (cur str) = true) :
    parseElement alloc ⟨state, index, str, list⟩ =
      (some (.at str), ⟨.optional, index, str, put list index .empty⟩) := by
  simp only [parseElement, detectType_separator hindex h, processElement,
    not_isTerminated_of_isSeparator h, Bool.false_eq_true, if_false]

def peek (maxParams : Nat) (s : ParserState) (cursor : Cursor) : Except Fault Round := do
  let str ← cursor.deref
  let after := str.dropWhile isLfcr
  if isLfcr (cur str) ∧ (isTerminated (cur after) ∨ isNotification (cur after)) then
    return .done { s with str := after } false
  let s := { s with str, index := s.index + 1 }
  if s.index = maxParams then return .done s true
  return .next s

def afterElement (alloc : Nat → Bool) (maxParams : Nat) (s : ParserState) (cursor : Cursor) :
    Except Fault Round := do
  let str ← cursor.deref
  if ¬ isSeparator (cur str) then peek maxParams s (.at str)
  else if ¬ isLfcr (cur str.tail) then peek maxParams s (skip str)
  else
    -- The last parameter is empty: the separator stands before the end of the line.
    let s := { s with str, index := s.index + 1 }
    if s.index = maxParams then return .done s true
    match parseElement alloc s with
    | (none, s) => return .done s false
    | (some cursor, s) => peek maxParams s (skip (← cursor.deref))

/-- One round of the loop of `at_parse_param`. -/
def parseRound (alloc : Nat → Bool) (maxParams : Nat) (s : ParserState) : Except Fault Round :=
  let s := { s with str := if isSpace (cur s.str) then s.str.tail else s.str }
  match parseElement alloc s with
  | (none, s) => .ok (.done s false)
  | (some cursor, s) => afterElement alloc maxParams s cursor

/-- The loop of `at_parse_param`. Every round counts a parameter, so `maxParams` rounds suffice. -/
def parseLoop (alloc : Nat → Bool) (maxParams : Nat) :
    Nat → ParserState → Except Fault (ParserState × Bool)
  | 0, s => .ok (s, false)
  | rounds + 1, s =>
    if isTerminated (cur s.str) ∨ ¬ s.index < maxParams then .ok (s, false)
    else do
      match ← parseRound alloc maxParams s with
      | .done s oversized => return (s, oversized)
      | .next s => parseLoop alloc maxParams rounds s

variable {alloc : Nat → Bool} {maxParams : Nat}

theorem parseLoop_stop {s : ParserState} (rounds : Nat)
    (h : isTerminated (cur s.str) = true ∨ ¬ s.index < maxParams) :
    parseLoop alloc maxParams (rounds + 1) s = .ok (s, false) := by
  rw [parseLoop, if_pos h]

theorem parseLoop_fault {s : ParserState} {e : Fault} (rounds : Nat)
    (hstr : isTerminated (cur s.str) = false) (hindex : s.index < maxParams)
    (h : parseRound alloc maxParams s = .error e) :
    parseLoop alloc maxParams (rounds + 1) s = .error e := by
  simp only [parseLoop, hstr, hindex, Bool.false_eq_true, not_true_eq_false, or_self, if_false, h,
    bind, Except.bind]

theorem parseLoop_done {s s' : ParserState} {oversized : Bool} (rounds : Nat)
    (hstr : isTerminated (cur s.str) = false) (hindex : s.index < maxParams)
    (h : parseRound alloc maxParams s = .ok (.done s' oversized)) :
    parseLoop alloc maxParams (rounds + 1) s = .ok (s', oversized) := by
  simp only [parseLoop, hstr, hindex, Bool.false_eq_true, not_true_eq_false, or_self, if_false, h,
    bind, Except.bind]
  rfl

theorem parseLoop_next {s s' : ParserState} (rounds : Nat) (hstr : isTerminated (cur s.str) = false)
    (hindex : s.index < maxParams) (h : parseRound alloc maxParams s = .ok (.next s')) :
    parseLoop alloc maxParams (rounds + 1) s = parseLoop alloc maxParams rounds s' := by
  simp only [parseLoop, hstr, hindex, Bool.false_eq_true, not_true_eq_false, or_self, if_false, h,
    bind, Except.bind]

inductive Code
  | success
  | EAGAIN
  | E2BIG
  | EINVAL
  deriving DecidableEq, Repr

structure Result where
  code : Code
  next : List Char
  list : ParamList
  deriving DecidableEq

def parseParam (alloc : Nat → Bool) (str : List Char) (list : ParamList) (maxParams : Nat) :
    Except Fault Result := do
  let (s, oversized) ← parseLoop alloc maxParams maxParams ⟨.idle, 0, str, list⟩
  let code := if oversized then .E2BIG else if ¬ isTerminated (cur s.str) then .EAGAIN else .success
  return ⟨code, s.str, s.list⟩

/-- `at_parser_max_params_from_str`; `none` is a null pointer. -/
def maxParamsFromStr (alloc : Nat → Bool) (str? : Option (List Char)) (list? : Option ParamList)
    (maxParamsCount : Nat) : Except Fault Result :=
  match str?, list? with
  | some str, some list =>
    parseParam alloc str (listClear list) (min maxParamsCount list.length)
  | _, _ => .ok ⟨.EINVAL, str?.getD [], list?.getD []⟩

def paramsFromStr (alloc : Nat → Bool) (str : List Char) (list : ParamList) :
    Except Fault Result :=
  maxParamsFromStr alloc (some str) (some list) list.length

end SdkNrf.AtParser
