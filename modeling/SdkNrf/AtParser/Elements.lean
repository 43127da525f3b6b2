import SdkNrf.AtParser.Parser

/-!
# Elements of AT strings

The numbers, quoted strings and arrays of numbers that stand behind the separators of a line, and what the
parser stores for each of them.
-/

namespace SdkNrf.AtParser

theorem toNat_of_isDigit {c : Char} (h : c.isDigit = true) : 48 ≤ c.toNat ∧ c.toNat ≤ 57 := by
  simpa [Char.isDigit, UInt32.le_iff_toNat_le] using h

theorem ne_of_isDigit {c d : Char} (h : c.isDigit = true) (hd : d.isDigit = false) : c ≠ d := by
  rintro rfl
  rw [h] at hd
  cases hd

theorem isValidNotificationChar_of_isAlpha {c : Char} (h : c.isAlpha = true) :
    isValidNotificationChar c = true := by
  by_cases hl : 'a'.val ≤ c.val ∧ c.val ≤ 'z'.val
  · have hval : c.toUpper.val = c.val + ('A'.val - 'a'.val) := by
      simp only [Char.toUpper, dif_pos hl]
    have hnat : 97 ≤ c.val.toNat ∧ c.val.toNat ≤ 122 := hl
    have hsum : (c.val + ('A'.val - 'a'.val)).toNat = c.val.toNat - 32 := by
      rw [UInt32.toNat_add, show ('A'.val - 'a'.val).toNat = 2 ^ 32 - 32 from rfl]
      omega
    simp only [isValidNotificationChar, Char.isUpper, hval, UInt32.le_iff_toNat_le, hsum,
      decide_eq_true_eq, ge_iff_le, show 'A'.val.toNat = 65 from rfl,
      show 'Z'.val.toNat = 90 from rfl]
    omega
  · have hval : c.toUpper = c := by simp only [Char.toUpper, dif_neg hl]
    have hlower : c.isLower = false := by simpa [Char.isLower] using hl
    rw [isValidNotificationChar, hval]
    simpa [Char.isAlpha, hlower] using h

theorem classes_of_isDigit {c : Char} (h : c.isDigit = true) :
    isSpace c = false ∧ isLfcr c = false ∧ isNotification c = false ∧ isNumber c = true := by
  have hn := toNat_of_isDigit h
  refine ⟨?_, ?_, ?_, by simp [isNumber, h]⟩
  · have hb : c ≠ ' ' := ne_of_isDigit h (by decide)
    simp only [isSpace, hb, decide_false, Bool.false_or, decide_eq_false_iff_not]
    omega
  · simp [isLfcr, ne_of_isDigit h (show carriageReturn.isDigit = false by decide),
      ne_of_isDigit h (show lineFeed.isDigit = false by decide)]
  · simp [isNotification, ne_of_isDigit h (show '+'.isDigit = false by decide),
      ne_of_isDigit h (show '%'.isDigit = false by decide)]

structure Decimal where
  digits : List Char
  ne_nil : digits ≠ []
  isDigit : ∀ c ∈ digits, c.isDigit = true

namespace Decimal

def value (d : Decimal) : Nat := Nat.ofDigitChars 10 d.digits 0

def ofNat (n : Nat) : Decimal where
  digits := Nat.toDigits 10 n
  ne_nil := Nat.toDigits_ne_nil
  isDigit := fun _ hc => Nat.isDigit_of_mem_toDigits (by decide) (by decide) hc

@[simp] theorem value_ofNat (n : Nat) : (ofNat n).value = n := Nat.ofDigitChars_ten_toDigits

theorem exists_cons (d : Decimal) : ∃ c cs, d.digits = c :: cs ∧ c.isDigit = true := by
  obtain ⟨c, cs, h⟩ := List.exists_cons_of_ne_nil d.ne_nil
  exact ⟨c, cs, h, d.isDigit c (h ▸ List.mem_cons_self)⟩

end Decimal

structure Numeral where
  negative : Bool
  digits : Decimal

namespace Numeral

def text (n : Numeral) : List Char :=
  if n.negative then '-' :: n.digits.digits else n.digits.digits

/-- What `strtoul` reads: `ULONG_MAX` for a number that does not fit, and a minus modulo 2^32. -/
def read (n : Numeral) : Nat :=
  if n.digits.value > ulongMax then ulongMax
  else if n.negative then (2 ^ 32 - n.digits.value) % 2 ^ 32
  else n.digits.value

theorem read_lt (n : Numeral) : n.read < 2 ^ 32 := by
  unfold read ulongMax
  split_ifs <;> omega

def unsigned (d : Decimal) : Numeral := ⟨false, d⟩

theorem read_unsigned {d : Decimal} (h : d.value < 2 ^ 32) : (unsigned d).read = d.value := by
  have hfit : ¬ d.value > ulongMax := by unfold ulongMax; omega
  simp [read, unsigned, hfit]

theorem skipSign_text (n : Numeral) (rest : List Char) :
    skipSign (n.text ++ rest) = (n.negative, n.digits.digits ++ rest) := by
  obtain ⟨c, cs, hd, hc⟩ := n.digits.exists_cons
  cases hn : n.negative with
  | true => simp [text, hn, skipSign]
  | false =>
    rw [text, hn, if_neg Bool.false_ne_true, hd, List.cons_append]
    unfold skipSign
    split
    · next h => exact absurd (List.cons.inj h).1 (ne_of_isDigit hc (by decide))
    · next h => exact absurd (List.cons.inj h).1 (ne_of_isDigit hc (by decide))
    · rfl

theorem exists_cons (n : Numeral) :
    ∃ c cs, n.text = c :: cs ∧ (c = '-' ∨ c.isDigit = true) := by
  obtain ⟨c, cs, hd, hc⟩ := n.digits.exists_cons
  cases hn : n.negative with
  | true => exact ⟨'-', n.digits.digits, by simp [text, hn], .inl rfl⟩
  | false => exact ⟨c, cs, by simp [text, hn, hd], .inr hc⟩

end Numeral

theorem classes_of_numeral {c : Char} (h : c = '-' ∨ c.isDigit = true) :
    isSpace c = false ∧ isLfcr c = false ∧ isNotification c = false ∧ isNumber c = true ∧
      isTerminated c = false := by
  rcases h with rfl | h
  · exact ⟨rfl, rfl, rfl, rfl, rfl⟩
  · obtain ⟨hspace, hlfcr, hnotification, hnumber⟩ := classes_of_isDigit h
    have hnul : c ≠ nul := ne_of_isDigit h (by decide)
    exact ⟨hspace, hlfcr, hnotification, hnumber, by simpa [isTerminated] using hnul⟩

variable {rest : List Char}

/-- `strtoul` skips the blanks in front of a number and reads it up to the first character that is
no digit. -/
theorem strtoul_numeral {blanks : List Char} (hblanks : ∀ c ∈ blanks, isSpace c = true)
    (n : Numeral) (hrest : (cur rest).isDigit = false) :
    strtoul (blanks ++ (n.text ++ rest)) = (n.read, rest) := by
  obtain ⟨c, cs, htext, hc⟩ := n.exists_cons
  have hspace : (blanks ++ (n.text ++ rest)).dropWhile isSpace = n.text ++ rest := by
    rw [List.dropWhile_append_of_pos hblanks, htext, List.cons_append,
      List.dropWhile_cons_of_neg (by simp [(classes_of_numeral hc).1])]
  have htail : rest.takeWhile Char.isDigit = [] ∧ rest.dropWhile Char.isDigit = rest := by
    cases rest with
    | nil => exact ⟨rfl, rfl⟩
    | cons r rs =>
      have hr : r.isDigit = false := hrest
      simp [hr]
  have htake : (n.digits.digits ++ rest).takeWhile Char.isDigit = n.digits.digits := by
    rw [List.takeWhile_append_of_pos n.digits.isDigit, htail.1, List.append_nil]
  have hdrop : (n.digits.digits ++ rest).dropWhile Char.isDigit = rest := by
    rw [List.dropWhile_append_of_pos n.digits.isDigit, htail.2]
  simp only [strtoul, hspace, n.skipSign_text, htake, hdrop, if_neg n.digits.ne_nil]
  unfold Numeral.read Decimal.value
  split_ifs <;> rfl

structure Item where
  blanks : List Char
  number : Numeral
  blanks_isSpace : ∀ c ∈ blanks, isSpace c = true

def Item.text (i : Item) : List Char := i.blanks ++ i.number.text

def Item.read (i : Item) : Nat := i.number.read

theorem Item.strtoul_text (i : Item) (hrest : (cur rest).isDigit = false) :
    strtoul (i.text ++ rest) = (i.read, rest) := by
  rw [Item.text, List.append_assoc]
  exact strtoul_numeral i.blanks_isSpace i.number hrest

theorem Item.text_ne_nil (i : Item) : i.text ≠ [] := by
  obtain ⟨c, cs, htext, -⟩ := i.number.exists_cons
  simp [Item.text, htext]

def itemsText (is : List Item) : List Char := (is.map fun i => ',' :: i.text).flatten

theorem itemsText_cons (i : Item) (is : List Item) :
    itemsText (i :: is) = ',' :: (i.text ++ itemsText is) := by
  simp [itemsText]

theorem isDigit_cur_itemsText (is : List Item) (rest : List Char) :
    (cur (itemsText is ++ ')' :: rest)).isDigit = false := by
  cases is with
  | nil => rfl
  | cons i is => rfl

theorem arrayLoop_items (rest : List Char) (is : List Item) :
    ∀ values : List Nat, values.length + is.length ≤ cmdMaxArraySize →
      arrayLoop values (itemsText is ++ ')' :: rest) =
        (values ++ is.map Item.read, ')' :: rest) := by
  induction is with
  | nil =>
    intro values _
    simp [itemsText, arrayLoop, isArrayStop]
  | cons i is ih =>
    intro values hlen
    simp only [List.length_cons] at hlen
    have hread := i.strtoul_text (isDigit_cur_itemsText is rest)
    have hne : ¬ (i.text ++ (itemsText is ++ ')' :: rest)).length =
        (itemsText is ++ ')' :: rest).length := by
      have := List.length_pos_iff.mpr i.text_ne_nil
      rw [List.length_append]
      omega
    rw [itemsText_cons, List.cons_append, List.append_assoc, arrayLoop, if_neg (by decide),
      if_pos (by decide)]
    simp only [hread, dif_neg hne, Nat.mod_eq_of_lt (show i.read < 2 ^ 32 from i.number.read_lt)]
    split
    · -- The array is full, so this was its last number.
      next hfull =>
      rw [List.length_append, List.length_singleton] at hfull
      have hnil : is = [] := List.length_eq_zero_iff.mp (by omega)
      subst hnil
      rfl
    · have hlen' : (values ++ [i.read]).length + is.length ≤ cmdMaxArraySize := by
        rw [List.length_append, List.length_singleton]
        omega
      rw [ih _ hlen', List.map_cons, List.append_assoc, List.singleton_append]

inductive Element
  | number (n : Numeral)
  | quoted (s : List Char)
  | array (i : Item) (is : List Item)
  | empty

namespace Element

def text : Element → List Char
  | number n => n.text
  | quoted s => dblquote :: (s ++ [dblquote])
  | array i is => '(' :: (i.text ++ itemsText is ++ [')'])
  | empty => []

def Valid : Element → Prop
  | quoted s => dblquote ∉ s ∧ nul ∉ s
  | array _ is => is.length < cmdMaxArraySize
  | _ => True

def param : Element → Param
  | number n => numberParam n.read
  | quoted s => .string s
  | array i is => .array (i.read :: is.map Item.read)
  | empty => .empty

def state : Element → State
  | number _ => .number
  | quoted _ => .quotedString
  | array _ _ => .array
  | empty => .optional

end Element

def store (alloc : Nat → Bool) (list : ParamList) (index : Nat) : Param → ParamList
  | .string s => stringPut alloc list index s
  | .array vs => arrayPut alloc list index vs
  | p => put list index p

theorem store_of_alloc {alloc : Nat → Bool} (halloc : ∀ n, alloc n = true) (list : ParamList)
    (index : Nat) (p : Param) : store alloc list index p = put list index p := by
  cases p <;> simp [store, stringPut, arrayPut, halloc]

theorem store_numberParam (alloc : Nat → Bool) (list : ParamList) (index v : Nat) :
    store alloc list index (numberParam v) = put list index (numberParam v) := by
  unfold numberParam
  split <;> rfl

private theorem span_quoted {s : List Char} (rest : List Char) (hq : dblquote ∉ s) (hn : nul ∉ s) :
    (s ++ dblquote :: rest).takeWhile (fun c => !isDblquote c && !isTerminated c) = s ∧
      (s ++ dblquote :: rest).dropWhile (fun c => !isDblquote c && !isTerminated c) =
        dblquote :: rest := by
  have hin : ∀ c ∈ s, (!isDblquote c && !isTerminated c) = true := by
    intro c hc
    have h1 : c ≠ dblquote := fun h => hq (h ▸ hc)
    have h2 : c ≠ nul := fun h => hn (h ▸ hc)
    simp [isDblquote, isTerminated, h1, h2]
  constructor
  · rw [List.takeWhile_append_of_pos hin, List.takeWhile_cons_of_neg (by decide), List.append_nil]
  · rw [List.dropWhile_append_of_pos hin, List.dropWhile_cons_of_neg (by decide)]

def Follows (e : Element) (rest : List Char) : Prop :=
  isSeparator (cur rest) = true ∨
    (isLfcr (cur rest) = true ∨ isTerminated (cur rest) = true) ∧ e ≠ .empty

theorem Follows.isDigit_cur {e : Element} (h : Follows e rest) :
    (cur rest).isDigit = false := by
  rw [Bool.eq_false_iff]
  intro hdigit
  obtain ⟨-, hlfcr, -, -, hterm⟩ := classes_of_numeral (.inr hdigit)
  rcases h with hs | ⟨hl | ht, -⟩
  · rcases isSeparator_iff.mp hs with hc | hc | hc <;> rw [hc] at hdigit <;> cases hdigit
  · rw [hlfcr] at hl
    cases hl
  · rw [hterm] at ht
    cases ht

theorem detectType_of_index {index : Nat} (hindex : index ≠ 0) (state : State) {str : List Char}
    (hn : isNotification (cur str) = false) :
    detectType state index str =
      if isNumber (cur str) then some (.number, str)
      else if isDblquote (cur str) then some (.quotedString, str.tail)
      else if isArrayStart (cur str) then some (.array, str.tail)
      else if isLfcr (cur str) ∧ state = .number then some (.smsPdu, str.dropWhile isLfcr)
      else if isLfcr (cur str) ∧ state = .optional then some (.optional, str)
      else if isSeparator (cur str) then some (.optional, str)
      else none := by
  simp only [detectType, hindex, false_and, if_false, hn, Bool.false_eq_true]

/-- An element is detected and stored. The pointer that it leaves behind is overwritten before it
is read again. -/
theorem parseElement_element (alloc : Nat → Bool) {e : Element} (he : e.Valid) {index : Nat}
    (hindex : index ≠ 0) (state : State) (list : ParamList) (hrest : Follows e rest) :
    ∃ str, parseElement alloc ⟨state, index, e.text ++ rest, list⟩ =
      (some (.at rest), ⟨e.state, index, str, store alloc list index e.param⟩) := by
  have hdigit := hrest.isDigit_cur
  cases e with
  | number n =>
    obtain ⟨c, cs, htext, hc⟩ := n.exists_cons
    have hcur : cur (n.text ++ rest) = c := by rw [htext]; rfl
    obtain ⟨-, -, hnotification, hnumber, hterm⟩ := classes_of_numeral hc
    have hread : strtoul (n.text ++ rest) = (n.read, rest) :=
      strtoul_numeral (show ∀ c ∈ [], isSpace c = true by simp) n hdigit
    refine ⟨n.text ++ rest, ?_⟩
    simp only [parseElement, Element.text, detectType_of_index hindex state (hcur ▸ hnotification),
      hcur, hnumber, if_true, processElement, hterm, Bool.false_eq_true, if_false, hread,
      Nat.mod_eq_of_lt n.read_lt, Element.state, Element.param, store_numberParam]
  | quoted s =>
    obtain ⟨hq, hn⟩ := he
    obtain ⟨htake, hdrop⟩ := span_quoted rest hq hn
    have htext : (Element.quoted s).text ++ rest = dblquote :: (s ++ dblquote :: rest) := by
      simp [Element.text]
    have hterm : isTerminated (cur (s ++ dblquote :: rest)) = false := by
      cases s with
      | nil => rfl
      | cons c cs =>
        have hc : c ≠ nul := fun h => hn (h ▸ List.mem_cons_self)
        simpa [isTerminated, cur] using hc
    refine ⟨s ++ dblquote :: rest, ?_⟩
    simp only [parseElement, htext,
      detectType_of_index hindex state (show isNotification (cur (dblquote :: _)) = false from rfl)]
    simp only [cur_cons, show isNumber dblquote = false from rfl,
      show isDblquote dblquote = true from rfl, Bool.false_eq_true, if_false, if_true,
      List.tail_cons, processElement, hterm, htake, hdrop, skip, Element.state, Element.param, store]
  | array i is =>
    have htext : (Element.array i is).text ++ rest =
        '(' :: (i.text ++ (itemsText is ++ ')' :: rest)) := by
      simp [Element.text]
    have hread := i.strtoul_text (isDigit_cur_itemsText is rest)
    have hroom : [i.read].length + is.length ≤ cmdMaxArraySize := by
      have hle : is.length < cmdMaxArraySize := he
      rw [List.length_singleton]
      omega
    have hloop := arrayLoop_items rest is [i.read] hroom
    have hterm : isTerminated (cur (i.text ++ (itemsText is ++ ')' :: rest))) = false := by
      obtain ⟨c, cs, hnumber, hc⟩ := i.number.exists_cons
      cases hb : i.blanks with
      | nil => simpa [Item.text, hb, hnumber] using (classes_of_numeral hc).2.2.2.2
      | cons b bs =>
        have hspace : isSpace b = true := i.blanks_isSpace b (hb ▸ List.mem_cons_self)
        have hne : b ≠ nul := by
          rintro rfl
          cases hspace
        simpa [Item.text, hb, isTerminated] using hne
    refine ⟨i.text ++ (itemsText is ++ ')' :: rest), ?_⟩
    simp only [parseElement, htext,
      detectType_of_index hindex state (show isNotification (cur ('(' :: _)) = false from rfl)]
    simp only [cur_cons, show isNumber '(' = false from rfl,
      show isDblquote '(' = false from rfl, show isArrayStart '(' = true from rfl,
      Bool.false_eq_true, if_false, if_true, List.tail_cons, processElement, hterm, hread,
      Nat.mod_eq_of_lt (show i.read < 2 ^ 32 from i.number.read_lt), hloop, skip, Element.state,
      Element.param, store, List.singleton_append]
  | empty =>
    have hs := hrest.resolve_right fun h => h.2 rfl
    exact ⟨rest, parseElement_separator alloc hindex state list hs⟩

end SdkNrf.AtParser
