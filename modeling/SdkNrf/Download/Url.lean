import SdkNrf.Download.Http
import SdkNrf.Framework.Accesses

/-!
# URLs

`parse.c`: the protocol, the host, the port and the file of a URL, each found by its own searches
from the beginning of the text.
-/

namespace SdkNrf.Download.Url

open CString

inductive UrlErrno
  | EINVAL
  | E2BIG
  deriving DecidableEq, Repr

/-- `IPPROTO_TLS_1_2`, `IPPROTO_TCP`, `IPPROTO_DTLS_1_2` and `IPPROTO_UDP`. -/
inductive Ipproto
  | tls12
  | tcp
  | dtls12
  | udp
  deriving DecidableEq, Repr

/-- `SOCK_STREAM` and `SOCK_DGRAM`. -/
inductive SockType
  | stream
  | dgram
  deriving DecidableEq, Repr

structure Call (α : Type) where
  result : Except UrlErrno α
  accesses : List Access
  deriving DecidableEq

section Parse

variable (url : List UInt8)

/-- What a search from `cur` on reads: up to the terminator. -/
def searched (cur : Nat) : Access := .read cur ((cstr url).length + 1 - cur)

/-- `swallow`: the place behind the first `pat`, if there is one. -/
def swallow (cur : Nat) (pat : List UInt8) : Option Nat :=
  (find pat ((cstr url).drop cur)).map fun i => cur + i + pat.length

/-- `strchr(cur, c)`. -/
def strchr (cur : Nat) (c : UInt8) : Option Nat := (find [c] ((cstr url).drop cur)).map (cur + ·)

/-- The buffer after `len` bytes from `cur` on have been copied into it, with a terminator. -/
def copied (cur len : Nat) : List UInt8 := (url.drop cur).take len ++ [0]

def copying (cur len : Nat) : List Access := [.read cur len, .write 0 len, .write len 1]

def urlParseProto : Call (Ipproto × SockType) where
  result :=
    if (bytes "https").isPrefixOf (cstr url) then .ok (.tls12, .stream)
    else if (bytes "http").isPrefixOf (cstr url) then .ok (.tcp, .stream)
    else if (bytes "coaps").isPrefixOf (cstr url) then .ok (.dtls12, .dgram)
    else if (bytes "coap").isPrefixOf (cstr url) then .ok (.udp, .dgram)
    else .error .EINVAL
  accesses := [searched url 0]

def hostStart : Nat := (swallow url 0 (bytes "://")).getD 0

def hostEnd : Nat :=
  (strchr url (hostStart url) 58).getD
    ((strchr url (hostStart url) 47).getD ((cstr url).length + 1))

/-- `url_parse_host`, with a buffer of `len` bytes. -/
def urlParseHost (len : Nat) : Call (List UInt8) :=
  let cur := hostStart url
  let size := hostEnd url - cur
  let searches := [searched url 0, searched url cur]
  if size + 1 > len then ⟨.error .E2BIG, searches⟩
  else ⟨.ok (copied url cur size), searches ++ copying cur size⟩

/-- `sizeof(aport)`. -/
def aportSize : Nat := 8

/-- What is copied into `aport` from `cur` on: at least as much as the array holds. -/
def portLen (cur : Nat) : Nat :=
  max (((strchr url cur 47).getD (cstr url).length) - cur) (aportSize - 1)

def urlParsePort : Call UInt16 :=
  let searches := [searched url 0, searched url (hostStart url)]
  match swallow url (hostStart url) (bytes ":") with
  | none => ⟨.error .EINVAL, searches⟩
  | some cur =>
    ⟨.ok (.ofInt (atoi (copied url cur (portLen url cur)))),
      searches ++ searched url cur :: copying cur (portLen url cur)⟩

/-- The copy at the end of `url_parse_file`. -/
def copyFile (len : Nat) (searches : List Access) (cur : Nat) : Call (List UInt8) :=
  let size := (cstr url).length - cur
  if size + 1 > len then ⟨.error .E2BIG, searches⟩
  else ⟨.ok (copied url cur size), searches ++ copying cur size⟩

/-- `url_parse_file`, with a buffer of `len` bytes. -/
def urlParseFile (len : Nat) : Call (List UInt8) :=
  match strstr url (bytes "//") with
  | none => copyFile url len [searched url 0] 0
  | some _ =>
    match swallow url 0 (bytes "://") with
    | none => ⟨.error .EINVAL, [searched url 0]⟩
    | some cur =>
      match swallow url cur (bytes "/") with
      | none => ⟨.error .EINVAL, [searched url 0, searched url cur]⟩
      | some cur' => copyFile url len [searched url 0, searched url cur, searched url cur'] cur'

end Parse

inductive Scheme
  | http
  | https
  | coap
  | coaps
  deriving DecidableEq, Repr

namespace Scheme

def text : Scheme → List UInt8
  | http => bytes "http"
  | https => bytes "https"
  | coap => bytes "coap"
  | coaps => bytes "coaps"

def proto : Scheme → Ipproto × SockType
  | http => (.tcp, .stream)
  | https => (.tls12, .stream)
  | coap => (.udp, .dgram)
  | coaps => (.dtls12, .dgram)

theorem text_plain (s : Scheme) : ∀ b ∈ s.text, b ≠ 0 ∧ b ≠ 58 := by
  cases s <;> simp [text, bytes]

end Scheme

/-- `scheme://host[:port]/file`. -/
structure Parts where
  scheme : Scheme
  host : List UInt8
  port : Option UInt16
  file : List UInt8
  host_plain : ∀ b ∈ host, b ≠ 58 ∧ b ≠ 47 ∧ b ≠ 0
  port_ne : ∀ p ∈ port, p ≠ 0
  file_nul : 0 ∉ file

namespace Parts

variable (u : Parts)

def portText : List UInt8 := (u.port.map fun p => 58 :: decimal p.toNat).getD []

def text : List UInt8 :=
  u.scheme.text ++ (bytes "://" ++ (u.host ++ (u.portText ++ 47 :: u.file)))

/-- The four functions return the parts of the URL; the port fails if there is none. -/
structure Right (url : List UInt8) : Prop where
  proto : (urlParseProto url).result = .ok u.scheme.proto
  host : ∀ len, u.host.length < len → (urlParseHost url len).result = .ok (u.host ++ [0])
  port : (urlParsePort url).result = u.port.elim (.error .EINVAL) .ok
  file : ∀ len, u.file.length < len → (urlParseFile url len).result = .ok (u.file ++ [0])

end Parts

/-- Nothing is read behind the terminator, and nothing is written behind a buffer. -/
structure Safe (url : List UInt8) : Prop where
  proto : AllInside ((cstr url).length + 1) 0 (urlParseProto url).accesses
  host : ∀ len, AllInside ((cstr url).length + 1) len (urlParseHost url len).accesses
  port : AllInside ((cstr url).length + 1) aportSize (urlParsePort url).accesses
  file : ∀ len, AllInside ((cstr url).length + 1) len (urlParseFile url len).accesses

/-- Behind the ':' of the port there are at least six characters, and at most seven of them lie in
front of the next '/'. -/
def PortFits (url : List UInt8) : Prop :=
  ∀ cur ∈ swallow url (hostStart url) (bytes ":"),
    cur + 6 ≤ (cstr url).length ∧ (strchr url cur 47).getD (cstr url).length ≤ cur + 7

instance (url : List UInt8) : Decidable (PortFits url) :=
  inferInstanceAs (Decidable (∀ cur ∈ swallow url (hostStart url) (bytes ":"), _))

section Searches

variable {url xs ys : List UInt8} {cur : Nat} {c : UInt8}

theorem swallow_of_drop {pat : List UInt8} (hc : c ∉ xs)
    (h : (cstr url).drop cur = xs ++ (c :: pat ++ ys)) :
    swallow url cur (c :: pat) = some (cur + xs.length + (pat.length + 1)) := by
  rw [swallow, h, find_of_notMem hc]
  rfl

theorem strchr_of_drop (hc : c ∉ xs) (h : (cstr url).drop cur = xs ++ c :: ys) :
    strchr url cur c = some (cur + xs.length) := by
  have hfind := find_of_notMem hc [] ys
  rw [strchr, h]
  exact congrArg _ hfind

theorem strchr_eq_none : strchr url cur c = none ↔ c ∉ (cstr url).drop cur := by
  rw [strchr, Option.map_eq_none_iff, find_eq_none]

theorem swallow_eq_none : swallow url cur [c] = none ↔ c ∉ (cstr url).drop cur := by
  rw [swallow, Option.map_eq_none_iff, find_eq_none]

end Searches

theorem toNat_of_isDigit {c : Char} (h : c.isDigit = true) :
    48 ≤ c.toNat ∧ c.toNat ≤ 57 ∧ (UInt8.ofNat c.toNat).toNat = c.toNat := by
  simp only [Char.isDigit, Bool.and_eq_true, decide_eq_true_eq, ge_iff_le,
    UInt32.le_iff_toNat_le] at h
  have hlo : 48 ≤ c.toNat := h.1
  have hhi : c.toNat ≤ 57 := h.2
  refine ⟨hlo, hhi, ?_⟩
  rw [UInt8.toNat_ofNat']
  omega

theorem isDigit_of_mem_decimal {n : Nat} {b : UInt8} (h : b ∈ decimal n) : isDigit b = true := by
  obtain ⟨c, hc, rfl⟩ := List.mem_map.mp h
  obtain ⟨hlo, hhi, hread⟩ :=
    toNat_of_isDigit (Nat.isDigit_of_mem_toDigits (by decide) (by decide) hc)
  simp only [isDigit, decide_eq_true_eq, UInt8.le_iff_toNat_le, hread]
  exact ⟨hlo, hhi⟩

theorem notMem_decimal {b : UInt8} (h : isDigit b = false) (n : Nat) : b ∉ decimal n := by
  intro hmem
  rw [isDigit_of_mem_decimal hmem] at h
  cases h

theorem digitsValue_decimal (n : Nat) : digitsValue (decimal n) = n := by
  have hfold : ∀ (cs : List Char), (∀ c ∈ cs, c.isDigit = true) → ∀ init : Nat,
      (cs.map fun c => UInt8.ofNat c.toNat).foldl (fun n b => 10 * n + (b.toNat - 48)) init =
        Nat.ofDigitChars 10 cs init := by
    intro cs
    induction cs with
    | nil =>
      intro _ init
      simp
    | cons c cs ih =>
      intro hdigits init
      have hread := (toNat_of_isDigit (hdigits c (List.mem_cons_self ..))).2.2
      rw [List.map_cons, List.foldl_cons, hread, Nat.ofDigitChars_cons]
      exact ih (fun c hc => hdigits c (List.mem_cons_of_mem _ hc)) _
  rw [digitsValue, decimal, hfold _ fun c hc =>
    Nat.isDigit_of_mem_toDigits (by decide) (by decide) hc]
  exact Nat.ofDigitChars_ten_toDigits

theorem length_decimal_port (p : UInt16) : (decimal p.toNat).length ≤ 5 := by
  rw [decimal, List.length_map]
  have hlt := p.toNat_lt
  exact (Nat.length_toDigits_le_iff (by decide) (by decide)).mpr (by omega)

namespace Parts

variable (u : Parts) (rest : List UInt8)

def stored : List UInt8 := u.text ++ 0 :: rest

def tail : List UInt8 := u.host ++ (u.portText ++ 47 :: u.file)

theorem portText_plain {b : UInt8} (h : b ∈ u.portText) : b ≠ 0 ∧ b ≠ 47 := by
  cases hport : u.port with
  | none => simp [portText, hport] at h
  | some p =>
    simp only [portText, hport, Option.map_some, Option.getD_some, List.mem_cons] at h
    rcases h with rfl | hdigit
    · decide
    · constructor
      · rintro rfl
        exact notMem_decimal (by decide) _ hdigit
      · rintro rfl
        exact notMem_decimal (by decide) _ hdigit

theorem zero_notMem_text : 0 ∉ u.text := by
  simp only [text, List.mem_append, List.mem_cons, not_or]
  refine ⟨fun h => (u.scheme.text_plain _ h).1 rfl, by decide, fun h => (u.host_plain 0 h).2.2 rfl,
    fun h => (u.portText_plain h).1 rfl, by decide, u.file_nul⟩

theorem cstr_stored : cstr (u.stored rest) = u.text := by
  rw [stored, cstr_append u.zero_notMem_text]
  simp [cstr]

theorem text_eq : u.text = u.scheme.text ++ (bytes "://" ++ u.tail) := rfl

theorem swallow_stored : swallow (u.stored rest) 0 (bytes "://") =
    some (u.scheme.text.length + 3) := by
  have hfind : swallow (u.stored rest) 0 (bytes "://") = some (0 + u.scheme.text.length + 3) := by
    have hcolon : 58 ∉ u.scheme.text := fun h => (u.scheme.text_plain _ h).2 rfl
    have hdrop : (cstr (u.stored rest)).drop 0 = u.scheme.text ++ (58 :: [47, 47] ++ u.tail) := by
      rw [cstr_stored]
      rfl
    exact swallow_of_drop hcolon hdrop
  rw [hfind, Nat.zero_add]

theorem hostStart_stored : hostStart (u.stored rest) = u.scheme.text.length + 3 := by
  rw [hostStart, swallow_stored, Option.getD_some]

theorem text_drop (n : Nat) : u.text.drop (u.scheme.text.length + 3 + n) = u.tail.drop n := by
  have hlen : (u.scheme.text ++ bytes "://").length = u.scheme.text.length + 3 := by
    simp [bytes]
  rw [text_eq, ← List.append_assoc, ← hlen, List.drop_length_add_append]

theorem drop_cstr (n : Nat) :
    (cstr (u.stored rest)).drop (hostStart (u.stored rest) + n) = u.tail.drop n := by
  rw [hostStart_stored, cstr_stored, text_drop]

theorem drop_stored {n : Nat} (hn : n ≤ u.tail.length) :
    (u.stored rest).drop (hostStart (u.stored rest) + n) = u.tail.drop n ++ 0 :: rest := by
  have hlen : u.scheme.text.length + 3 + n ≤ u.text.length := by
    rw [text_eq, List.length_append, List.length_append]
    simp [bytes]
    omega
  rw [hostStart_stored, stored, List.drop_append_of_le_length hlen, text_drop]

theorem proto_stored : (urlParseProto (u.stored rest)).result = .ok u.scheme.proto := by
  simp only [urlParseProto, cstr_stored, text]
  cases u.scheme <;> simp [Scheme.text, Scheme.proto, bytes]

theorem host_notMem {b : UInt8} (hb : b = 58 ∨ b = 47 ∨ b = 0) : b ∉ u.host := by
  intro hmem
  obtain ⟨h58, h47, h0⟩ := u.host_plain b hmem
  rcases hb with rfl | rfl | rfl
  · exact h58 rfl
  · exact h47 rfl
  · exact h0 rfl

theorem tail_of_port {p : UInt16} (hport : u.port = some p) :
    u.tail = u.host ++ 58 :: (decimal p.toNat ++ 47 :: u.file) := by
  simp [tail, portText, hport]

theorem tail_of_none (hport : u.port = none) : u.tail = u.host ++ 47 :: u.file := by
  simp [tail, portText, hport]

theorem hostEnd_stored (h : u.port.isSome ∨ 58 ∉ u.file) :
    hostEnd (u.stored rest) = hostStart (u.stored rest) + u.host.length := by
  have hdrop := u.drop_cstr rest 0
  rw [Nat.add_zero, List.drop_zero] at hdrop
  cases hport : u.port with
  | some p =>
    rw [u.tail_of_port hport] at hdrop
    rw [hostEnd, strchr_of_drop (u.host_notMem (.inl rfl)) hdrop, Option.getD_some]
  | none =>
    have hfile : 58 ∉ u.file := h.resolve_left (by simp [hport])
    rw [u.tail_of_none hport] at hdrop
    have hnone : strchr (u.stored rest) (hostStart (u.stored rest)) 58 = none := by
      rw [strchr_eq_none, hdrop]
      simp [u.host_notMem (.inl rfl), hfile]
    rw [hostEnd, hnone, Option.getD_none, strchr_of_drop (u.host_notMem (.inr (.inl rfl))) hdrop,
      Option.getD_some]

theorem copied_stored {n : Nat} {part post : List UInt8} (hn : n ≤ u.tail.length)
    (hpart : u.tail.drop n = part ++ post) :
    copied (u.stored rest) (hostStart (u.stored rest) + n) part.length = part ++ [0] := by
  rw [copied, u.drop_stored rest hn, hpart, List.append_assoc, List.take_left]

theorem host_stored (h : u.port.isSome ∨ 58 ∉ u.file) {len : Nat} (hlen : u.host.length < len) :
    (urlParseHost (u.stored rest) len).result = .ok (u.host ++ [0]) := by
  have htail : u.tail.drop 0 = u.host ++ (u.portText ++ 47 :: u.file) := rfl
  have hcopied := u.copied_stored rest (Nat.zero_le _) htail
  rw [Nat.add_zero] at hcopied
  rw [urlParseHost]
  simp only [u.hostEnd_stored rest h, Nat.add_sub_cancel_left]
  rw [if_neg (by omega), hcopied]

theorem port_stored_some {p : UInt16} (hport : u.port = some p) :
    (urlParsePort (u.stored rest)).result = .ok p := by
  have hdrop := u.drop_cstr rest 0
  rw [Nat.add_zero, List.drop_zero, u.tail_of_port hport] at hdrop
  have hcur : swallow (u.stored rest) (hostStart (u.stored rest)) (bytes ":") =
      some (hostStart (u.stored rest) + (u.host.length + 1)) :=
    swallow_of_drop (u.host_notMem (.inl rfl)) hdrop
  have htail : u.tail.drop (u.host.length + 1) = decimal p.toNat ++ 47 :: u.file := by
    rw [u.tail_of_port hport, List.drop_length_add_append]
    rfl
  have hle : u.host.length + 1 ≤ u.tail.length := by
    rw [u.tail_of_port hport]
    simp
  have hmem := u.drop_stored rest hle
  rw [htail] at hmem
  have hsize : (decimal p.toNat).length + 1 ≤
      portLen (u.stored rest) (hostStart (u.stored rest) + (u.host.length + 1)) := by
    have := length_decimal_port p
    have := Nat.le_max_right (((strchr (u.stored rest)
      (hostStart (u.stored rest) + (u.host.length + 1)) 47).getD (cstr (u.stored rest)).length) -
      (hostStart (u.stored rest) + (u.host.length + 1))) (aportSize - 1)
    rw [portLen]
    have : aportSize - 1 = 7 := rfl
    omega
  rw [urlParsePort]
  simp only [hcur]
  -- the copy goes on behind the digits, but not the number
  obtain ⟨post, hpost⟩ : ∃ post, copied (u.stored rest)
      (hostStart (u.stored rest) + (u.host.length + 1))
      (portLen (u.stored rest) (hostStart (u.stored rest) + (u.host.length + 1))) =
        decimal p.toNat ++ 47 :: post := by
    obtain ⟨k, hk⟩ := Nat.exists_eq_add_of_le hsize
    refine ⟨(u.file ++ 0 :: rest).take k ++ [0], ?_⟩
    rw [copied, hmem, hk, Nat.add_assoc, List.append_assoc, List.take_length_add_append,
      Nat.add_comm 1 k]
    simp
  have hne : decimal p.toNat ≠ [] := by
    rw [decimal, ne_eq, List.map_eq_nil_iff]
    exact Nat.toDigits_ne_nil
  have hvalue : UInt16.ofInt p.toNat = p := by
    have := p.toNat_lt
    rw [← UInt16.toNat_inj, UInt16.ofInt, UInt16.toNat_ofNat']
    omega
  rw [hpost, atoi_digits hne (fun _ => isDigit_of_mem_decimal) (by decide), digitsValue_decimal,
    hvalue]

theorem port_stored_none (hport : u.port = none) :
    (urlParsePort (u.stored rest)).result = .error .EINVAL ↔ 58 ∉ u.file := by
  have hdrop := u.drop_cstr rest 0
  rw [Nat.add_zero, List.drop_zero, u.tail_of_none hport] at hdrop
  have hnone : swallow (u.stored rest) (hostStart (u.stored rest)) (bytes ":") = none ↔
      58 ∉ u.file := by
    have hcolon : bytes ":" = [58] := rfl
    rw [hcolon, swallow_eq_none, hdrop]
    simp [u.host_notMem (.inl rfl)]
  rw [← hnone, urlParsePort]
  cases swallow (u.stored rest) (hostStart (u.stored rest)) (bytes ":") with
  | none => simp
  | some cur => simp

theorem file_stored {len : Nat} (hlen : u.file.length < len) :
    (urlParseFile (u.stored rest) len).result = .ok (u.file ++ [0]) := by
  have hdrop := u.drop_cstr rest 0
  rw [Nat.add_zero, List.drop_zero, tail, ← List.append_assoc] at hdrop
  have hslashes : ∃ i, strstr (u.stored rest) (bytes "//") = some i := by
    rw [strstr, cstr_stored]
    have hle : u.scheme.text.length + 1 ≤ u.text.length := by simp [text_eq, bytes]
    have hstart : bytes "//" <+: u.text.drop (u.scheme.text.length + 1) := by
      rw [text_eq, List.drop_length_add_append]
      exact ⟨u.tail, rfl⟩
    obtain ⟨i, -, hi⟩ := find_le hle hstart
    exact ⟨i, hi⟩
  have hslash : 47 ∉ u.host ++ u.portText := by
    rw [List.mem_append, not_or]
    exact ⟨u.host_notMem (.inr (.inl rfl)), fun h => (u.portText_plain h).2 rfl⟩
  have hcur : swallow (u.stored rest) (hostStart (u.stored rest)) (bytes "/") =
      some (hostStart (u.stored rest) + ((u.host ++ u.portText).length + 1)) :=
    swallow_of_drop hslash hdrop
  have hfile : u.tail.drop ((u.host ++ u.portText).length + 1) = u.file := by
    rw [tail, ← List.append_assoc, List.drop_length_add_append]
    rfl
  have hle : (u.host ++ u.portText).length + 1 ≤ u.tail.length := by
    rw [tail, ← List.append_assoc, List.length_append]
    simp
  have hsize : (cstr (u.stored rest)).length -
      (hostStart (u.stored rest) + ((u.host ++ u.portText).length + 1)) = u.file.length := by
    rw [← List.length_drop, drop_cstr, hfile]
  have hpart : u.tail.drop ((u.host ++ u.portText).length + 1) = u.file ++ [] := by
    rw [hfile, List.append_nil]
  have hcopied := u.copied_stored rest hle hpart
  obtain ⟨i, hi⟩ := hslashes
  have hstart := u.swallow_stored rest
  rw [← u.hostStart_stored rest] at hstart
  rw [urlParseFile]
  simp only [hi, hstart, hcur, copyFile, hsize]
  rw [if_neg (by omega), hcopied]

theorem right_iff : u.Right (u.stored rest) ↔ u.port.isSome ∨ 58 ∉ u.file := by
  constructor
  · intro h
    cases hport : u.port with
    | some p => exact .inl rfl
    | none =>
      have hfails := h.port
      rw [hport] at hfails
      exact .inr ((u.port_stored_none rest hport).mp hfails)
  · intro h
    constructor
    · exact u.proto_stored rest
    · intro len hlen
      exact u.host_stored rest h hlen
    · cases hport : u.port with
      | some p => exact u.port_stored_some rest hport
      | none => exact (u.port_stored_none rest hport).mpr (h.resolve_left (by simp [hport]))
    · intro len hlen
      exact u.file_stored rest hlen

end Parts

section Memory

variable (url : List UInt8)

theorem swallow_le {cur cur' : Nat} {pat : List UInt8} (hcur : cur ≤ (cstr url).length)
    (h : swallow url cur pat = some cur') : cur' ≤ (cstr url).length := by
  obtain ⟨i, hi, rfl⟩ := Option.map_eq_some_iff.mp h
  have hle := find_length_le hi
  rw [List.length_drop] at hle
  omega

theorem strchr_lt {cur i : Nat} {c : UInt8} (h : strchr url cur c = some i) :
    cur ≤ i ∧ i < (cstr url).length := by
  obtain ⟨i, hi, rfl⟩ := Option.map_eq_some_iff.mp h
  have hle := find_length_le hi
  simp only [List.length_drop, List.length_singleton] at hle
  omega

theorem hostStart_le : hostStart url ≤ (cstr url).length := by
  rw [hostStart]
  cases h : swallow url 0 (bytes "://") with
  | none => simp
  | some cur => exact swallow_le url (Nat.zero_le _) h

theorem searched_inside {cur output : Nat} (hcur : cur ≤ (cstr url).length) :
    (searched url cur).Inside ((cstr url).length + 1) output := by
  rw [searched, Access.read_inside]
  omega

theorem copying_inside {cur len output : Nat} (hread : cur + len ≤ (cstr url).length + 1)
    (hwrite : len + 1 ≤ output) :
    AllInside ((cstr url).length + 1) output (copying cur len) := by
  simp only [copying, AllInside.cons, Access.read_inside, Access.write_inside, AllInside.nil,
    and_true]
  omega

theorem proto_safe : AllInside ((cstr url).length + 1) 0 (urlParseProto url).accesses := by
  simp [urlParseProto, searched_inside url (Nat.zero_le _)]

theorem hostEnd_bounds :
    hostStart url ≤ hostEnd url ∧ hostEnd url ≤ (cstr url).length + 1 := by
  have hstart := hostStart_le url
  rw [hostEnd]
  cases hcolon : strchr url (hostStart url) 58 with
  | some i =>
    have := strchr_lt url hcolon
    simp
    omega
  | none =>
    cases hslash : strchr url (hostStart url) 47 with
    | some i =>
      have := strchr_lt url hslash
      simp
      omega
    | none =>
      simp
      omega

theorem host_safe (len : Nat) :
    AllInside ((cstr url).length + 1) len (urlParseHost url len).accesses := by
  have hstart := hostStart_le url
  have hend := hostEnd_bounds url
  have hsearches : AllInside ((cstr url).length + 1) len
      [searched url 0, searched url (hostStart url)] := by
    simp [searched_inside url, hstart]
  simp only [urlParseHost]
  split
  · exact hsearches
  · exact AllInside.append.mpr ⟨hsearches, copying_inside url (by omega) (by omega)⟩

theorem copyFile_safe {len cur : Nat} {searches : List Access}
    (hsearches : AllInside ((cstr url).length + 1) len searches) (hcur : cur ≤ (cstr url).length) :
    AllInside ((cstr url).length + 1) len (copyFile url len searches cur).accesses := by
  simp only [copyFile]
  split
  · exact hsearches
  · exact AllInside.append.mpr ⟨hsearches, copying_inside url (by omega) (by omega)⟩

theorem file_safe (len : Nat) :
    AllInside ((cstr url).length + 1) len (urlParseFile url len).accesses := by
  rw [urlParseFile]
  cases strstr url (bytes "//") with
  | none => exact copyFile_safe url (by simp [searched_inside url]) (Nat.zero_le _)
  | some i =>
    cases hcur : swallow url 0 (bytes "://") with
    | none => simp [searched_inside url]
    | some cur =>
      have hle := swallow_le url (Nat.zero_le _) hcur
      dsimp only
      cases hcur' : swallow url cur (bytes "/") with
      | none => simp [searched_inside url, hle]
      | some cur' =>
        have hle' := swallow_le url hle hcur'
        exact copyFile_safe url (by simp [searched_inside url, hle, hle']) hle'

theorem port_safe_iff :
    AllInside ((cstr url).length + 1) aportSize (urlParsePort url).accesses ↔ PortFits url := by
  have hstart := hostStart_le url
  rw [urlParsePort, PortFits]
  cases hcur : swallow url (hostStart url) (bytes ":") with
  | none => simp [searched_inside url, hstart]
  | some cur =>
    have hle := swallow_le url hstart hcur
    have hend : cur ≤ (strchr url cur 47).getD (cstr url).length ∧
        (strchr url cur 47).getD (cstr url).length ≤ (cstr url).length := by
      cases hslash : strchr url cur 47 with
      | none => exact ⟨hle, le_rfl⟩
      | some i =>
        have := strchr_lt url hslash
        simp
        omega
    simp [searched_inside url, hstart, hle, copying, portLen, aportSize]
    omega

theorem safe_iff : Safe url ↔ PortFits url := by
  constructor
  · intro h
    exact (port_safe_iff url).mp h.port
  · intro h
    exact ⟨proto_safe url, host_safe url, (port_safe_iff url).mpr h, file_safe url⟩

end Memory

/-- The parts of a URL are right exactly if it has a port or no ':' in its file, and the accesses are
inside exactly if what follows the ':' fills the array for the port and does not overflow it. -/
theorem urlParse_iff (u : Parts) (rest url : List UInt8) :
    (u.Right (u.stored rest) ↔ u.port.isSome ∨ 58 ∉ u.file) ∧ (Safe url ↔ PortFits url) :=
  ⟨u.right_iff rest, safe_iff url⟩

theorem colonHost_plain : ∀ b ∈ bytes "h", b ≠ 58 ∧ b ≠ 47 ∧ b ≠ 0 := by simp [bytes]

theorem colonPort_ne : ∀ p ∈ (none : Option UInt16), p ≠ 0 := by simp

theorem colonFile_nul : 0 ∉ bytes "a:80" := by simp [bytes]

def colonUrl : Parts :=
  ⟨.http, bytes "h", none, bytes "a:80", colonHost_plain, colonPort_ne, colonFile_nul⟩

/-- The host ends at that ':', and the port is read behind it. For a short file behind a port, the
port is read beyond the end of the text. -/
theorem not_right_colonUrl :
    (urlParseHost (colonUrl.stored []) 16).result = .ok (bytes "h/a" ++ [0]) ∧
    (urlParsePort (colonUrl.stored [])).result = .ok 80 ∧
    ¬ colonUrl.Right (colonUrl.stored []) ∧ ¬ Safe (bytes "http://h:1/a" ++ [0]) := by
  refine ⟨by decide, by decide, ?_, ?_⟩
  · rw [Parts.right_iff]
    decide
  · rw [safe_iff]
    decide

end SdkNrf.Download.Url
