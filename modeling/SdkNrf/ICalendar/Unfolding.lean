import SdkNrf.ICalendar.Parser

/-!
# Unfolding of content lines

A content line of any number of parts, of which each one but the first follows a line break and a space.
-/

namespace SdkNrf.ICalendar

open CString

/-- A content line at the beginning of a text: its first part, the parts behind a fold, and the text behind
its last line break. -/
structure ContentLine where
  first : List UInt8
  folds : List (List UInt8)
  rest : List UInt8
  unbroken : ∀ part ∈ first :: folds, ¬ crlf <:+: part
  text : ∀ part ∈ first :: folds, 0 ∉ part
  ends : rest.head? ≠ some 32

def foldsText (folds : List (List UInt8)) (rest : List UInt8) : List UInt8 :=
  folds.flatMap (crlf ++ 32 :: ·) ++ (crlf ++ rest)

namespace ContentLine

def buf (line : ContentLine) : List UInt8 := line.first ++ foldsText line.folds line.rest

def unfolded (line : ContentLine) : List UInt8 := (line.first :: line.folds).flatten

end ContentLine

/-- The value behind the colon at `nameSize`, when a property has no parameters and the value fits. -/
def colonValue (unfolded : List UInt8) (start maxValueLen : Nat) : Option (List UInt8) :=
  if unfolded.length - start ≤ maxValueLen then some (unfolded.drop start) else none

def descValue (unfolded : List UInt8) (nameSize maxValueLen : Nat) : Option (List UInt8) :=
  if unfolded[nameSize]? = some 58 then colonValue unfolded (nameSize + 1) maxValueLen else none

def datetimeValue (unfolded : List UInt8) (nameSize maxValueLen : Nat) : Option (List UInt8) :=
  if unfolded[nameSize]? = some 58 then colonValue unfolded (nameSize + 1) maxValueLen
  else if unfolded[nameSize]? = some 59 then
    (find [58] unfolded).bind fun colon => colonValue unfolded (colon + 1) maxValueLen
  else none

variable {cfg : Config}

def ContentLine.stored (cfg : Config) (line : ContentLine) (value : Option (List UInt8)) :
    Option Scratch :=
  if line.unfolded.length ≤ cfg.maxPropertySize then value.map (·.map some) else none

/-- The unfolded line is in the buffer, with a NUL behind it, or it is too long. -/
structure UnfoldsRight (cfg : Config) (line : ContentLine) : Prop where
  fits : line.unfolded.length ≤ cfg.maxPropertySize →
    ∃ propBuf, unfoldContentline cfg line.buf = some (line.unfolded.length, propBuf) ∧
      propBuf.length = cfg.maxPropertySize + 1 ∧ line.unfolded.map some ++ [some 0] <+: propBuf
  tooLong : cfg.maxPropertySize < line.unfolded.length →
    ∃ propBuf, unfoldContentline cfg line.buf = some (0, propBuf) ∧
      propBuf.length = cfg.maxPropertySize + 1
  values : ∀ nameSize ≤ line.unfolded.length, ∀ maxValueLen,
    parseDescProps cfg line.buf nameSize maxValueLen =
        some (line.stored cfg (descValue line.unfolded nameSize maxValueLen)) ∧
      parseDatetimeProps cfg line.buf nameSize maxValueLen =
        some (line.stored cfg (datetimeValue line.unfolded nameSize maxValueLen))

def refused (max : Nat) : Nat → List (List UInt8) → Bool
  | _, [] => false
  | total, part :: parts =>
    decide (max < total + part.length % 2 ^ 16) ||
      refused max ((total + part.length % 2 ^ 16) % 2 ^ 16) parts

/-- The line has no folds, and fits the buffer and the counters; or the counters show that it is too
long. -/
def Unfoldable (cfg : Config) (line : ContentLine) : Prop :=
  line.folds = [] ∧ line.first.length ≤ cfg.maxPropertySize ∧ line.first.length < 2 ^ 16 ∨
    refused cfg.maxPropertySize 0 (line.first :: line.folds)

variable {part : List UInt8}

theorem find_crlf_part (h : ¬ crlf <:+: part) (tail : List UInt8) :
    find crlf (part ++ (crlf ++ tail)) = some part.length := by
  have hat : crlf <+: (part ++ (crlf ++ tail)).drop part.length := by
    rw [List.drop_left]
    exact List.prefix_append crlf tail
  obtain ⟨eol, hle, hfind⟩ := find_le (by simp) hat
  rcases Nat.eq_or_lt_of_le hle with rfl | hlt
  · exact hfind
  exfalso
  have hpre := find_prefix hfind
  rw [List.drop_append_of_le_length hle] at hpre
  by_cases hin : eol + 2 ≤ part.length
  · apply h
    have hpart : crlf <+: part.drop eol := by
      apply List.prefix_of_prefix_length_le hpre (List.prefix_append _ _)
      rw [List.length_drop]
      change 2 ≤ part.length - eol
      omega
    exact hpart.isInfix.trans (List.drop_suffix eol part).isInfix
  · -- the line feed would be where the carriage return is
    obtain ⟨post, hpost⟩ := hpre
    have hlast : (part.drop eol).length = 1 := by
      rw [List.length_drop]
      omega
    have hten := congrArg (·[1]?) hpost
    simp [hlast, crlf, bytes] at hten

variable {rest : List UInt8}

theorem fold_iff (folds : List (List UInt8)) (h : rest.head? ≠ some 32) :
    (bytes "\r\n ").isPrefixOf (foldsText folds rest) = !folds.isEmpty := by
  cases folds with
  | nil =>
    cases rest with
    | nil => rfl
    | cons c rest =>
      have hc : c ≠ 32 := by simpa using h
      simp [foldsText, crlf, bytes, List.isPrefixOf, hc.symm]
  | cons part folds => simp [foldsText, crlf, bytes, List.isPrefixOf]

theorem foldsText_eq (folds : List (List UInt8)) (rest : List UInt8) :
    ∃ tail, foldsText folds rest = crlf ++ tail := by
  cases folds with
  | nil => exact ⟨rest, rfl⟩
  | cons part folds => exact ⟨_, by simp [foldsText, List.append_assoc]; rfl⟩

theorem drop_fold (part : List UInt8) (folds : List (List UInt8)) (rest : List UInt8) :
    (foldsText (part :: folds) rest).drop 3 = part ++ foldsText folds rest := by
  simp [foldsText, crlf, bytes]

def foldsLength (folds : List (List UInt8)) : Nat := (folds.map fun part => part.length + 3).sum

theorem unfoldLoop_part {first : List UInt8} (hfirst : ¬ crlf <:+: first)
    (folds : List (List UInt8)) (hrest : rest.head? ≠ some 32) (fuel : Nat) (propBuf : Scratch)
    (total done : Nat) :
    unfoldLoop cfg (fuel + 1) (first ++ foldsText folds rest) propBuf total done =
      if cfg.maxPropertySize < total + first.length % 2 ^ 16 then (none, propBuf)
      else
        let propBuf := propBuf.write total (first.take (first.length % 2 ^ 16))
        match folds with
        | [] => (some (done + first.length), propBuf)
        | part :: folds => unfoldLoop cfg fuel (part ++ foldsText folds rest) propBuf
            ((total + first.length % 2 ^ 16) % 2 ^ 16) (done + first.length + 3) := by
  obtain ⟨tail, htail⟩ := foldsText_eq folds rest
  have hfind : find crlf (first ++ foldsText folds rest) = some first.length := by
    rw [htail]
    exact find_crlf_part hfirst tail
  have htake : (first ++ foldsText folds rest).take (first.length % 2 ^ 16) =
      first.take (first.length % 2 ^ 16) :=
    List.take_append_of_le_length (Nat.mod_le ..)
  have hdrop : (first ++ foldsText folds rest).drop (first.length + 3) =
      (foldsText folds rest).drop 3 := by
    rw [← List.drop_drop, List.drop_left]
  rw [unfoldLoop, hfind]
  simp only [htake, hdrop, List.drop_left, fold_iff folds hrest]
  by_cases hmax : cfg.maxPropertySize < total + first.length % 2 ^ 16
  · rw [if_pos hmax, if_neg (by omega)]
  · rw [if_neg hmax, if_pos (by omega)]
    cases folds with
    | nil => rfl
    | cons part folds =>
      rw [drop_fold]
      rfl

theorem length_write {propBuf : Scratch} {off : Nat} {line : List UInt8}
    (h : off + line.length ≤ propBuf.length) : (propBuf.write off line).length = propBuf.length := by
  simp only [Scratch.write, List.length_append, List.length_take, List.length_map, List.length_drop]
  omega

theorem length_unfoldLoop (fuel : Nat) (sol : List UInt8) {propBuf : Scratch} (total done : Nat)
    (h : propBuf.length = cfg.maxPropertySize + 1) :
    (unfoldLoop cfg fuel sol propBuf total done).2.length = cfg.maxPropertySize + 1 := by
  induction fuel generalizing sol propBuf total done with
  | zero => exact h
  | succ fuel ih =>
    rw [unfoldLoop]
    split
    next => exact h
    next eol hfind =>
      simp only
      split
      next hle =>
        have hcopied : (sol.take (eol % 2 ^ 16)).length ≤ eol % 2 ^ 16 := List.length_take_le ..
        have hwrite : (propBuf.write total (sol.take (eol % 2 ^ 16))).length =
            cfg.maxPropertySize + 1 := by
          rw [length_write (by omega), h]
        split
        next => exact ih _ _ _ hwrite
        next => exact hwrite
      next => exact h

variable {parts : List (List UInt8)}

theorem refused_of_lt {max total : Nat} (h : max < total + part.length % 2 ^ 16) :
    refused max total (part :: parts) = true := by
  rw [refused, decide_eq_true h, Bool.true_or]

theorem refused_of_not_lt {max total : Nat} (h : ¬ max < total + part.length % 2 ^ 16) :
    refused max total (part :: parts) =
      refused max ((total + part.length % 2 ^ 16) % 2 ^ 16) parts := by
  rw [refused, decide_eq_false h, Bool.false_or]

theorem unfoldLoop_size {first : List UInt8} {folds : List (List UInt8)}
    (hparts : ∀ part ∈ first :: folds, ¬ crlf <:+: part) (hrest : rest.head? ≠ some 32) {fuel : Nat}
    (hfuel : folds.length < fuel) (propBuf : Scratch) (total done : Nat) :
    (unfoldLoop cfg fuel (first ++ foldsText folds rest) propBuf total done).1 =
      if refused cfg.maxPropertySize total (first :: folds) then none
      else some (done + first.length + foldsLength folds) := by
  induction folds generalizing first fuel propBuf total done with
  | nil =>
    obtain ⟨fuel, rfl⟩ := Nat.exists_eq_add_of_lt hfuel
    rw [unfoldLoop_part (hparts first (by simp)) [] hrest]
    by_cases hmax : cfg.maxPropertySize < total + first.length % 2 ^ 16
    · rw [if_pos hmax, refused_of_lt hmax, if_pos rfl]
    · rw [if_neg hmax, refused_of_not_lt hmax]
      rfl
  | cons part folds ih =>
    cases fuel with
    | zero => simp at hfuel
    | succ fuel =>
      rw [unfoldLoop_part (hparts first (by simp)) _ hrest]
      by_cases hmax : cfg.maxPropertySize < total + first.length % 2 ^ 16
      · rw [if_pos hmax, refused_of_lt hmax, if_pos rfl]
      · rw [if_neg hmax, refused_of_not_lt hmax]
        have hlater := ih (fun p hp => hparts p (List.mem_cons_of_mem _ hp))
          (Nat.lt_of_succ_lt_succ hfuel)
          (propBuf.write total (first.take (first.length % 2 ^ 16)))
          ((total + first.length % 2 ^ 16) % 2 ^ 16) (done + first.length + 3)
        have hsize : done + first.length + 3 + part.length + foldsLength folds =
            done + first.length + foldsLength (part :: folds) := by
          simp only [foldsLength, List.map_cons, List.sum_cons]
          omega
        rw [← hsize]
        exact hlater

section Line

variable (line : ContentLine)

theorem length_le_foldsLength (folds : List (List UInt8)) :
    foldsLength folds = folds.flatten.length + 3 * folds.length := by
  induction folds with
  | nil => rfl
  | cons part folds ih =>
    have hcons : foldsLength (part :: folds) = part.length + 3 + foldsLength folds := by
      simp [foldsLength]
    rw [hcons, ih, List.flatten_cons, List.length_append, List.length_cons]
    omega

theorem foldsLength_lt (folds : List (List UInt8)) (rest : List UInt8) :
    foldsLength folds < (foldsText folds rest).length := by
  induction folds with
  | nil => simp [foldsText, foldsLength, crlf, bytes]
  | cons part folds ih =>
    have hcons : foldsLength (part :: folds) = part.length + 3 + foldsLength folds := by
      simp [foldsLength]
    have htext := congrArg List.length (drop_fold part folds rest)
    rw [List.length_drop, List.length_append] at htext
    omega

def ContentLine.loop (cfg : Config) : Option Nat × Scratch :=
  unfoldLoop cfg (line.buf.length + 1) line.buf (List.replicate (cfg.maxPropertySize + 1) none) 0 0

theorem loop_size (cfg : Config) : (line.loop cfg).1 =
    if refused cfg.maxPropertySize 0 (line.first :: line.folds) then none
    else some (line.unfolded.length + 3 * line.folds.length) := by
  have hfuel : line.folds.length < line.buf.length + 1 := by
    have hlong := foldsLength_lt line.folds line.rest
    rw [length_le_foldsLength] at hlong
    rw [ContentLine.buf, List.length_append]
    omega
  have hsize : 0 + line.first.length + foldsLength line.folds =
      line.unfolded.length + 3 * line.folds.length := by
    rw [length_le_foldsLength, ContentLine.unfolded, List.flatten_cons, List.length_append]
    omega
  rw [ContentLine.loop, ContentLine.buf, ← hsize]
  exact unfoldLoop_size line.unbroken line.ends hfuel ..

theorem length_loop : (line.loop cfg).2.length = cfg.maxPropertySize + 1 :=
  length_unfoldLoop _ _ _ _ (List.length_replicate ..)

theorem unfoldContentline_refused
    (h : refused cfg.maxPropertySize 0 (line.first :: line.folds) = true) :
    unfoldContentline cfg line.buf = some (0, (line.loop cfg).2) := by
  have hsize := loop_size line cfg
  rw [if_pos h] at hsize
  rw [ContentLine.loop] at hsize
  simp only [unfoldContentline, hsize]
  rfl

theorem unfoldContentline_accepted
    (h : ¬ refused cfg.maxPropertySize 0 (line.first :: line.folds) = true) :
    unfoldContentline cfg line.buf =
      if line.unfolded.length + 3 * line.folds.length ≤ cfg.maxPropertySize then
        some (line.unfolded.length + 3 * line.folds.length,
          (line.loop cfg).2.set (line.unfolded.length + 3 * line.folds.length) (some 0))
      else none := by
  have hsize := loop_size line cfg
  rw [if_neg h] at hsize
  rw [ContentLine.loop] at hsize
  simp only [unfoldContentline, hsize]
  rfl

/-- Without folds the buffer is filled with the beginning of the line, as long as the 16 bits of the counter
tell. -/
theorem loop_unfolded (cfg : Config) (hfolds : line.folds = [])
    (hfits : line.first.length % 2 ^ 16 ≤ cfg.maxPropertySize) :
    (line.loop cfg).2 = (line.first.take (line.first.length % 2 ^ 16)).map some ++
      List.replicate (cfg.maxPropertySize + 1 - line.first.length % 2 ^ 16) none := by
  have hlength : (line.first.take (line.first.length % 2 ^ 16)).length =
      line.first.length % 2 ^ 16 := List.length_take_of_le (Nat.mod_le ..)
  rw [ContentLine.loop, ContentLine.buf, hfolds,
    unfoldLoop_part (line.unbroken line.first (by simp)) [] line.ends, if_neg (by omega)]
  simp only [Scratch.write, hlength, List.take_zero, List.nil_append, Nat.zero_add,
    List.drop_replicate]

end Line

section Values

variable {buf unfolded : List UInt8} {tail : Scratch}

theorem scratchChr_eq (hnul : 0 ∉ unfolded) :
    scratchChr 58 (unfolded.map some ++ some 0 :: tail) = some (find [58] unfolded) := by
  induction unfolded with
  | nil => simp [scratchChr, find]
  | cons b unfolded ih =>
    simp only [List.mem_cons, not_or] at hnul
    rw [List.map_cons, List.cons_append, scratchChr]
    by_cases hcolon : b = 58
    · simp [hcolon, find]
    · have hzero : b ≠ 0 := Ne.symm hnul.1
      simp [hcolon, hzero, ih hnul.2, find, Ne.symm hcolon]

theorem propValue_eq {start : Nat} (h : start ≤ unfolded.length) (maxValueLen : Nat) :
    propValue (unfolded.length, unfolded.map some ++ some 0 :: tail) start maxValueLen =
      (colonValue unfolded start maxValueLen).map (·.map some) := by
  have hvalue : ((unfolded.map some ++ some 0 :: tail).drop start).take
      (unfolded.length - start) = (unfolded.drop start).map some := by
    rw [List.drop_append_of_le_length (by simpa using h), ← List.map_drop]
    exact List.take_left' (by simp)
  simp only [propValue, colonValue, hvalue]
  split <;> rfl

theorem getElem?_unfolded {nameSize : Nat} (h : nameSize ≤ unfolded.length) :
    (unfolded.map some ++ some 0 :: tail)[nameSize]? =
      some (some ((unfolded[nameSize]?).getD 0)) := by
  rcases Nat.eq_or_lt_of_le h with rfl | hlt
  · simp
  · simp [List.getElem?_append_left, hlt]

variable (hnul : 0 ∉ unfolded)
  (hbuf : unfoldContentline cfg buf = some (unfolded.length, unfolded.map some ++ some 0 :: tail))

include hbuf

theorem parseDescProps_unfolded {nameSize : Nat} (h : nameSize ≤ unfolded.length)
    (maxValueLen : Nat) : parseDescProps cfg buf nameSize maxValueLen =
      some ((descValue unfolded nameSize maxValueLen).map (·.map some)) := by
  rw [parseDescProps, hbuf, Option.bind_some]
  simp only [getElem?_unfolded h]
  rcases Nat.eq_or_lt_of_le h with rfl | hlt
  · simp [descValue]
  · have hne : unfolded.length ≠ 0 := by omega
    rw [if_neg hne, descValue, List.getElem?_eq_getElem hlt, Option.getD_some]
    by_cases hcolon : unfolded[nameSize] = 58
    · simp only [hcolon, if_true]
      rw [propValue_eq hlt]
    · simp [hcolon]

include hnul

theorem parseDatetimeProps_unfolded {nameSize : Nat} (h : nameSize ≤ unfolded.length)
    (maxValueLen : Nat) : parseDatetimeProps cfg buf nameSize maxValueLen =
      some ((datetimeValue unfolded nameSize maxValueLen).map (·.map some)) := by
  rw [parseDatetimeProps, hbuf, Option.bind_some]
  simp only [getElem?_unfolded h, scratchChr_eq hnul]
  rcases Nat.eq_or_lt_of_le h with rfl | hlt
  · simp [datetimeValue]
  · have hne : unfolded.length ≠ 0 := by omega
    rw [if_neg hne, datetimeValue, List.getElem?_eq_getElem hlt, Option.getD_some]
    by_cases hcolon : unfolded[nameSize] = 58
    · simp only [hcolon, if_true]
      rw [propValue_eq hlt]
    · by_cases hsemicolon : unfolded[nameSize] = 59
      · cases hfind : find [58] unfolded with
        | none => simp [hsemicolon]
        | some colon =>
          have hle : colon + 1 ≤ unfolded.length := find_length_le hfind
          simp [hsemicolon, propValue_eq hle]
      · simp [hcolon, hsemicolon]

end Values

theorem lt_of_refused {max total : Nat} (h : refused max total parts = true) :
    max < total + parts.flatten.length := by
  induction parts generalizing total with
  | nil => simp [refused] at h
  | cons part parts ih =>
    have hcopied := Nat.mod_le part.length (2 ^ 16)
    rw [List.flatten_cons, List.length_append]
    rw [refused, Bool.or_eq_true, decide_eq_true_eq] at h
    rcases h with hnow | hlater
    · omega
    · have hwrapped := Nat.mod_le (total + part.length % 2 ^ 16) (2 ^ 16)
      have hlt := ih hlater
      omega

theorem unfoldContentline_unfolded (line : ContentLine) (hfolds : line.folds = [])
    (hle : line.first.length ≤ cfg.maxPropertySize) (hlt : line.first.length < 2 ^ 16) :
    unfoldContentline cfg line.buf = some (line.unfolded.length, line.unfolded.map some ++
      some 0 :: List.replicate (cfg.maxPropertySize - line.unfolded.length) none) := by
  have hmod : line.first.length % 2 ^ 16 = line.first.length := Nat.mod_eq_of_lt hlt
  have hunfolded : line.unfolded = line.first := by simp [ContentLine.unfolded, hfolds]
  have haccepted : ¬ refused cfg.maxPropertySize 0 (line.first :: line.folds) = true := by
    rw [hfolds, refused_of_not_lt (by omega)]
    simp [refused]
  have hloop := loop_unfolded line cfg hfolds (by omega)
  rw [hmod, List.take_length] at hloop
  rw [unfoldContentline_accepted line haccepted, hunfolded, hfolds, List.length_nil, hloop,
    if_pos (by omega), Nat.mul_zero, Nat.add_zero]
  obtain ⟨k, hk⟩ := Nat.exists_eq_add_of_le hle
  have hsucc : cfg.maxPropertySize + 1 - line.first.length = k + 1 := by omega
  have hspare : cfg.maxPropertySize - line.first.length = k := by omega
  rw [hsucc, hspare, List.replicate_succ, List.set_append_right _ _ (by simp)]
  simp

/-- A content line is unfolded as it should be exactly when it has no folds and fits, or is seen to be too
long. -/
theorem unfold_iff (cfg : Config) (line : ContentLine) :
    UnfoldsRight cfg line ↔ Unfoldable cfg line := by
  constructor
  · intro h
    rcases Nat.lt_or_ge cfg.maxPropertySize line.unfolded.length with hlong | hfits
    · refine Or.inr ?_
      by_contra haccepted
      obtain ⟨propBuf, hbuf, -⟩ := h.tooLong hlong
      rw [unfoldContentline_accepted line haccepted] at hbuf
      split at hbuf
      · simp only [Option.some.injEq, Prod.mk.injEq] at hbuf
        omega
      · cases hbuf
    · refine Or.inl ?_
      obtain ⟨propBuf, hbuf, -, hprefix⟩ := h.fits hfits
      have haccepted : ¬ refused cfg.maxPropertySize 0 (line.first :: line.folds) = true := by
        intro hrefused
        have hlt := lt_of_refused hrefused
        rw [Nat.zero_add] at hlt
        exact absurd hlt (Nat.not_lt.mpr hfits)
      rw [unfoldContentline_accepted line haccepted] at hbuf
      split at hbuf
      swap
      · cases hbuf
      simp only [Option.some.injEq, Prod.mk.injEq] at hbuf
      obtain ⟨hsize, rfl⟩ := hbuf
      have hfolds : line.folds = [] := List.length_eq_zero_iff.mp (by omega)
      have hunfolded : line.unfolded = line.first := by simp [ContentLine.unfolded, hfolds]
      rw [hunfolded] at hfits hprefix
      refine ⟨hfolds, hfits, ?_⟩
      by_contra hlong
      -- the byte behind the copied ones was never written
      have hcopied : line.first.length % 2 ^ 16 < line.first.length := by omega
      rw [loop_unfolded line cfg hfolds (by omega), hfolds, List.length_nil, Nat.mul_zero,
        Nat.add_zero] at hprefix
      generalize line.first.length % 2 ^ 16 = copied at hcopied hprefix
      obtain ⟨rest, hrest⟩ := hprefix
      have hbyte := congrArg (·[copied]?) hrest
      have hlength : ((line.first.take copied).map some).length = copied := by
        rw [List.length_map, List.length_take_of_le hcopied.le]
      simp only [List.append_assoc] at hbyte
      rw [List.getElem?_append_left (by rwa [List.length_map]), List.getElem?_map,
        List.getElem?_eq_getElem hcopied, List.getElem?_set_ne (by omega),
        List.getElem?_append_right hlength.le, hlength, Nat.sub_self,
        List.getElem?_replicate_of_lt (by omega)] at hbyte
      simp at hbyte
  · rintro (⟨hfolds, hle, hlt⟩ | hrefused)
    · have hbuf := unfoldContentline_unfolded line hfolds hle hlt
      have hunfolded : line.unfolded = line.first := by simp [ContentLine.unfolded, hfolds]
      have hlength : line.unfolded.length ≤ cfg.maxPropertySize := by rw [hunfolded]; exact hle
      have hnul : 0 ∉ line.unfolded := by
        rw [hunfolded]
        exact line.text line.first (by simp)
      refine ⟨fun _ => ⟨_, hbuf, ?_, _, List.append_assoc .. ⟩, fun hlong => ?_, ?_⟩
      · simp only [List.length_append, List.length_map, List.length_cons, List.length_replicate]
        omega
      · omega
      · intro nameSize hname maxValueLen
        rw [ContentLine.stored, ContentLine.stored, if_pos hlength, if_pos hlength]
        exact ⟨parseDescProps_unfolded hbuf hname maxValueLen,
          parseDatetimeProps_unfolded hnul hbuf hname maxValueLen⟩
    · have hlong : cfg.maxPropertySize < line.unfolded.length := by
        simpa [ContentLine.unfolded] using lt_of_refused hrefused
      have hbuf := unfoldContentline_refused line hrefused
      refine ⟨fun hfits => ?_, fun _ => ⟨_, hbuf, length_loop line⟩, ?_⟩
      · omega
      · intro nameSize _ maxValueLen
        rw [parseDescProps, parseDatetimeProps, hbuf, ContentLine.stored, ContentLine.stored,
          if_neg (by omega), if_neg (by omega)]
        exact ⟨rfl, rfl⟩

theorem foldedSummary_unbroken :
    ∀ part ∈ [bytes "SUMMARY:a", bytes "b"], ¬ crlf <:+: part := by decide

theorem foldedSummary_text : ∀ part ∈ [bytes "SUMMARY:a", bytes "b"], 0 ∉ part := by decide

theorem foldedSummary_ends : ([] : List UInt8).head? ≠ some 32 := by decide

def foldedSummary : ContentLine where
  first := bytes "SUMMARY:a"
  folds := [bytes "b"]
  rest := []
  unbroken := foldedSummary_unbroken
  text := foldedSummary_text
  ends := foldedSummary_ends

/-- The size of a summary of ten characters is 13. -/
theorem foldedSummary_wrong : ¬ UnfoldsRight ⟨64, 32, 32, 32, 16, 16⟩ foldedSummary := by
  intro h
  obtain ⟨propBuf, hbuf, -⟩ := h.fits (by decide)
  have hsize : (unfoldContentline ⟨64, 32, 32, 32, 16, 16⟩ foldedSummary.buf).map Prod.fst =
      some 13 := by decide
  rw [hbuf, Option.map_some, Option.some.injEq] at hsize
  have hten : foldedSummary.unfolded.length = 10 := by decide
  exact absurd (hten.symm.trans hsize) (by decide)

end SdkNrf.ICalendar
