import Mathlib

/-!
# Strings in byte buffers

A C string is what a buffer holds in front of its first NUL.
-/

namespace SdkNrf.CString

def bytes (s : String) : List UInt8 := s.toList.map fun c => UInt8.ofNat c.toNat

def cstr (buf : List UInt8) : List UInt8 := buf.takeWhile (· ≠ 0)

/-- The first place where `pat` occurs. -/
def find (pat : List UInt8) : List UInt8 → Option Nat
  | [] => if pat = [] then some 0 else none
  | x :: xs => if pat.isPrefixOf (x :: xs) then some 0 else (find pat xs).map (· + 1)

/-- `strstr(buf, pat) - buf`. -/
def strstr (buf pat : List UInt8) : Option Nat := find pat (cstr buf)

theorem cstr_append {xs : List UInt8} (h : 0 ∉ xs) (ys : List UInt8) :
    cstr (xs ++ ys) = xs ++ cstr ys := by
  rw [cstr, List.takeWhile_append_of_pos, cstr]
  intro x hx
  have hne : x ≠ 0 := fun h0 => h (h0 ▸ hx)
  simpa using hne
variable {pat xs : List UInt8} {i : Nat}

theorem find_length_le (h : find pat xs = some i) :
    i + pat.length ≤ xs.length := by
  induction xs generalizing i with
  | nil =>
    rw [find] at h
    split at h
    next hpat => simp_all
    next => simp at h
  | cons x xs ih =>
    rw [find] at h
    split at h
    next hpre =>
      simp only [Option.some.injEq] at h
      have := (List.isPrefixOf_iff_prefix.mp hpre).length_le
      omega
    next =>
      obtain ⟨j, hj, rfl⟩ := Option.map_eq_some_iff.mp h
      have := ih hj
      simp only [List.length_cons]
      omega

theorem find_prefix (h : find pat xs = some i) :
    pat <+: xs.drop i := by
  induction xs generalizing i with
  | nil =>
    rw [find] at h
    split at h
    next hpat => simp [hpat]
    next => simp at h
  | cons x xs ih =>
    rw [find] at h
    split at h
    next hpre =>
      simp only [Option.some.injEq] at h
      subst h
      exact List.isPrefixOf_iff_prefix.mp hpre
    next =>
      obtain ⟨j, hj, rfl⟩ := Option.map_eq_some_iff.mp h
      exact ih hj

theorem find_split (h : find pat xs = some i) :
    ∃ pre post, xs = pre ++ (pat ++ post) ∧ pre.length = i := by
  obtain ⟨post, hpost⟩ := find_prefix h
  have hle := find_length_le h
  refine ⟨xs.take i, post, ?_, List.length_take_of_le (by omega)⟩
  rw [hpost, List.take_append_drop]

theorem find_le {j : Nat} (hj : j ≤ xs.length) (h : pat <+: xs.drop j) :
    ∃ i ≤ j, find pat xs = some i := by
  induction xs generalizing j with
  | nil =>
    have hpat : pat = [] := by simpa using h
    exact ⟨0, Nat.zero_le j, by simp [find, hpat]⟩
  | cons x xs ih =>
    rw [find]
    split
    next => exact ⟨0, Nat.zero_le j, rfl⟩
    next hpre =>
      cases j with
      | zero => exact absurd (List.isPrefixOf_iff_prefix.mpr h) hpre
      | succ j =>
        obtain ⟨i, hi, hfind⟩ := ih (Nat.le_of_succ_le_succ hj) h
        exact ⟨i + 1, Nat.succ_le_succ hi, by rw [hfind]; rfl⟩

theorem find_append (h : find pat xs = some i) (ys : List UInt8) :
    find pat (xs ++ ys) = some i := by
  induction xs generalizing i with
  | nil =>
    rw [find] at h
    split at h
    next hpat =>
      simp only [Option.some.injEq] at h
      subst hpat h
      cases ys <;> simp [find]
    next => simp at h
  | cons x xs ih =>
    rw [List.cons_append, find]
    rw [find] at h
    split at h
    next hpre =>
      have hpre' : pat.isPrefixOf (x :: (xs ++ ys)) = true := by
        rw [List.isPrefixOf_iff_prefix] at hpre ⊢
        exact hpre.trans (List.prefix_append (x :: xs) ys)
      rw [if_pos hpre', ← h]
    next hpre =>
      obtain ⟨j, hj, rfl⟩ := Option.map_eq_some_iff.mp h
      have hpre' : ¬ pat.isPrefixOf (x :: (xs ++ ys)) = true := by
        intro hlong
        apply hpre
        have hle : pat.length ≤ (x :: xs).length := by
          have := find_length_le hj
          simp only [List.length_cons]
          omega
        rw [List.isPrefixOf_iff_prefix] at hlong ⊢
        exact List.prefix_of_prefix_length_le hlong (List.prefix_append (x :: xs) ys) hle
      rw [if_neg hpre', ih hj]
      rfl

/-- A pattern is found where it stands, when its first character does not occur in front of it. -/
theorem find_of_notMem {c : UInt8} {xs : List UInt8} (h : c ∉ xs) (pat ys : List UInt8) :
    find (c :: pat) (xs ++ (c :: pat ++ ys)) = some xs.length := by
  induction xs with
  | nil => simp [find]
  | cons x xs ih =>
    simp only [List.mem_cons, not_or] at h
    have hpre : ¬ (c :: pat).isPrefixOf (x :: (xs ++ (c :: pat ++ ys))) = true := by simp [h.1]
    rw [List.cons_append, find, if_neg hpre, ih h.2]
    rfl

theorem find_eq_none {c : UInt8} {xs : List UInt8} : find [c] xs = none ↔ c ∉ xs := by
  induction xs with
  | nil => simp [find]
  | cons x xs ih =>
    by_cases hx : c = x
    · simp [find, hx]
    · simp [find, hx, ih]

theorem strstr_append (hnul : 0 ∉ xs) (h : find pat xs = some i) (ys : List UInt8) :
    strstr (xs ++ ys) pat = some i := by
  rw [strstr, cstr_append hnul]
  exact find_append h _

def toLower (b : UInt8) : UInt8 := if 65 ≤ b ∧ b ≤ 90 then b + 32 else b

theorem toLower_ne_zero {b : UInt8} (h : b ≠ 0) : toLower b ≠ 0 := by
  rw [toLower]
  split
  next hletter =>
    intro h0
    have h1 := UInt8.le_iff_toNat_le.mp hletter.1
    have h2 := UInt8.le_iff_toNat_le.mp hletter.2
    have h3 := congrArg UInt8.toNat h0
    rw [UInt8.toNat_add] at h3
    simp at h1 h2 h3
    omega
  next => exact h

theorem zero_notMem_map_toLower {xs : List UInt8} (h : 0 ∉ xs) : 0 ∉ xs.map toLower := by
  rw [List.mem_map]
  rintro ⟨b, hb, h0⟩
  exact toLower_ne_zero (fun hzero => h (hzero ▸ hb)) h0

def isSpace (b : UInt8) : Bool := b = 32 || decide (9 ≤ b ∧ b ≤ 13)

def isDigit (b : UInt8) : Bool := decide (48 ≤ b ∧ b ≤ 57)

def digitsValue (digits : List UInt8) : Nat :=
  digits.foldl (fun n b => 10 * n + (b.toNat - 48)) 0

/-- `atoi`. The value has to fit an `int`. -/
def atoi (buf : List UInt8) : Int :=
  match buf.dropWhile isSpace with
  | 45 :: rest => -(digitsValue (rest.takeWhile isDigit) : Int)
  | 43 :: rest => digitsValue (rest.takeWhile isDigit)
  | rest => digitsValue (rest.takeWhile isDigit)

/-- A number ends at the first character that is no digit. -/
theorem atoi_digits {digits : List UInt8} (hne : digits ≠ [])
    (hdigits : ∀ b ∈ digits, isDigit b = true) {b : UInt8} (hb : isDigit b = false)
    (rest : List UInt8) : atoi (digits ++ b :: rest) = digitsValue digits := by
  have htake : (digits ++ b :: rest).takeWhile isDigit = digits := by
    rw [List.takeWhile_append_of_pos hdigits, List.takeWhile_cons_of_neg (by simp [hb]),
      List.append_nil]
  cases digits with
  | nil => exact absurd rfl hne
  | cons d digits =>
    have hd := hdigits d (List.mem_cons_self ..)
    have hspace : isSpace d = false := by
      simp only [isDigit, decide_eq_true_eq, UInt8.le_iff_toNat_le] at hd
      simp only [isSpace, Bool.or_eq_false_iff, decide_eq_false_iff_not, not_and,
        UInt8.le_iff_toNat_le]
      constructor
      · rintro rfl
        exact absurd hd.1 (by decide)
      · intro h9 h13
        have h48 : (48 : UInt8).toNat = 48 := rfl
        have h13' : (13 : UInt8).toNat = 13 := rfl
        omega
    rw [List.cons_append] at htake ⊢
    rw [atoi, List.dropWhile_cons_of_neg (by simp [hspace])]
    split
    next heq =>
      rw [List.cons.injEq] at heq
      exact absurd (heq.1 ▸ hd) (by decide)
    next heq =>
      rw [List.cons.injEq] at heq
      exact absurd (heq.1 ▸ hd) (by decide)
    next => rw [htake]

end SdkNrf.CString
