import Mathlib

/-!
# Characters and numbers of AT strings

The predicates of `lib/at_cmd_parser/at_utils.h` and the functions of the C library that the parser calls.
-/

namespace SdkNrf.AtParser

def nul : Char := '\x00'

def carriageReturn : Char := '\x0d'

def lineFeed : Char := '\x0a'

def dblquote : Char := '\x22'

def cur (rest : List Char) : Char := rest.headD nul

@[simp] theorem cur_cons (c : Char) (cs : List Char) : cur (c :: cs) = c := rfl

@[simp] theorem cur_nil : cur [] = nul := rfl

def isNotification (c : Char) : Bool := c = '+' || c = '%'

def isValidNotificationChar (c : Char) : Bool := c.toUpper.isUpper

def isTerminated (c : Char) : Bool := c = nul

def isSeparator (c : Char) : Bool := c = ',' || c = ':' || c = '='

def isLfcr (c : Char) : Bool := c = carriageReturn || c = lineFeed

def isDblquote (c : Char) : Bool := c = dblquote

def isArrayStart (c : Char) : Bool := c = '('

def isArrayStop (c : Char) : Bool := c = ')'

def isNumber (c : Char) : Bool := c.isDigit || c = '-' || c = '+'

/-- `is_command`: `AT` and one of the special characters, or a lone `AT`. -/
def isCommand : List Char → Bool
  | a :: t :: rest => a.toUpper = 'A' && t.toUpper = 'T' &&
      (cur rest = '+' || cur rest = '%' || cur rest = '#' || isLfcr (cur rest) ||
        isTerminated (cur rest))
  | _ => false

/-- `isspace`: blank, `\t`, `\n`, `\v`, `\f` and `\r`. -/
def isSpace (c : Char) : Bool := c = ' ' || decide (0x09 ≤ c.toNat ∧ c.toNat ≤ 0x0d)

def isXDigit (c : Char) : Bool :=
  c.isDigit || decide ('a' ≤ c ∧ c ≤ 'f') || decide ('A' ≤ c ∧ c ≤ 'F')

theorem isNotification_iff {c : Char} : isNotification c = true ↔ c = '+' ∨ c = '%' := by
  simp [isNotification]

theorem isTerminated_iff {c : Char} : isTerminated c = true ↔ c = nul := by
  simp [isTerminated]

theorem isSeparator_iff {c : Char} : isSeparator c = true ↔ c = ',' ∨ c = ':' ∨ c = '=' := by
  simp [isSeparator, or_assoc]

theorem isLfcr_iff {c : Char} : isLfcr c = true ↔ c = carriageReturn ∨ c = lineFeed := by
  simp [isLfcr]

/-- `ULONG_MAX` of the targets, where `unsigned long` has 32 bits. -/
def ulongMax : Nat := 2 ^ 32 - 1

def skipSign : List Char → Bool × List Char
  | '-' :: cs => (true, cs)
  | '+' :: cs => (false, cs)
  | cs => (false, cs)

/-- `strtoul` with base 10: the value and the pointer behind the number, which is the string itself
if there is no number. -/
def strtoul (s : List Char) : Nat × List Char :=
  let (negative, t) := skipSign (s.dropWhile isSpace)
  let digits := t.takeWhile Char.isDigit
  if digits = [] then (0, s)
  else
    let v := Nat.ofDigitChars 10 digits 0
    let rest := t.dropWhile Char.isDigit
    if v > ulongMax then (ulongMax, rest)
    else if negative then ((2 ^ 32 - v) % 2 ^ 32, rest)
    else (v, rest)

theorem skipSign_suffix (s : List Char) : (skipSign s).2 <:+ s := by
  unfold skipSign
  split
  · exact List.suffix_cons _ _
  · exact List.suffix_cons _ _
  · exact List.suffix_rfl

/-- `strtoul` moves its pointer forward inside the string. -/
theorem strtoul_suffix (s : List Char) : (strtoul s).2 <:+ s := by
  have hrest : (skipSign (s.dropWhile isSpace)).2.dropWhile Char.isDigit <:+ s :=
    ((List.dropWhile_suffix _).trans (skipSign_suffix _)).trans (List.dropWhile_suffix _)
  simp only [strtoul]
  split
  · exact List.suffix_rfl
  · split
    · exact hrest
    · split
      · exact hrest
      · exact hrest

inductive Cursor
  | at (rest : List Char)
  | past
  deriving DecidableEq

/-- `++` on a pointer inside the string. -/
def skip : List Char → Cursor
  | [] => .past
  | _ :: cs => .at cs

inductive Fault
  | pastNul
  deriving DecidableEq

def Cursor.deref : Cursor → Except Fault (List Char)
  | .at rest => .ok rest
  | .past => .error .pastNul

end SdkNrf.AtParser
