import SdkNrf.Download.Http

/-!
# Parsing a response header

A response header that is in the buffer as a whole is recognised whatever stands behind it, and the
payload that follows it is moved to the start of the buffer.
-/

namespace SdkNrf.Download

open CString

def sizeFieldKey : Proto → List UInt8 × List UInt8
  | .tls => (bytes "content-range", bytes "/")
  | .tcp => (bytes "content-length", bytes ":")

/-- In the header, in lower case, the first such field has the value `size`. -/
structure SizeField (proto : Proto) (header : List UInt8) (size : Nat) : Prop where
  field : ∃ p q blanks digits rest, find (sizeFieldKey proto).1 header = some p ∧
    find (sizeFieldKey proto).2 (header.drop p) = some q ∧
    header.drop (p + q + 1) = List.replicate blanks 32 ++ (digits ++ 13 :: rest) ∧
    digits ≠ [] ∧ (∀ b ∈ digits, isDigit b = true) ∧ digitsValue digits = size

/-- The header of a response with status 206: text that ends with the first empty line, fits into
the buffer and has the size. -/
structure ResponseHeader (cfg : Config) (proto : Proto) (size : Nat) (header : List UInt8) :
    Prop where
  noNul : 0 ∉ header
  terminated : find (bytes "\r\n\r\n") header = some (header.length - 4)
  fits : header.length ≤ cfg.bufSize
  partialContent : (find (bytes "http/1.1 206") (header.map toLower)).isSome
  size : SizeField proto (header.map toLower) size

theorem atoi_blanks (blanks : Nat) {digits : List UInt8} (hne : digits ≠ [])
    (hdigits : ∀ b ∈ digits, isDigit b = true) (rest : List UInt8) :
    atoi (List.replicate blanks 32 ++ (digits ++ 13 :: rest)) = digitsValue digits := by
  have hdrop : (List.replicate blanks 32 ++ (digits ++ 13 :: rest)).dropWhile isSpace =
      (digits ++ 13 :: rest).dropWhile isSpace := by
    rw [List.dropWhile_append_of_pos]
    intro b hb
    rw [List.eq_of_mem_replicate hb]
    rfl
  rw [← atoi_digits hne hdigits (b := 13) rfl rest, atoi, atoi, hdrop]

theorem fileSizeField_eq {proto : Proto} {header : List UInt8} {size : Nat}
    (h : SizeField proto header size) (hnul : 0 ∉ header) (hsize : size < 2 ^ 32)
    (rest : List UInt8) : fileSizeField proto (header ++ rest) = some size := by
  obtain ⟨p, q, blanks, digits, tail, hp, hq, hnumber, hne, hdigits, rfl⟩ := h.field
  have hple := find_length_le hp
  have hqle := find_length_le hq
  have hlen := congrArg List.length hnumber
  rw [List.length_drop] at hqle
  simp only [List.length_drop, List.length_append, List.length_replicate, List.length_cons] at hlen
  have hdrop : 0 ∉ header.drop p := fun h0 => hnul (List.mem_of_mem_drop h0)
  have hfirst : strstr (header ++ rest) (sizeFieldKey proto).1 = some p :=
    strstr_append hnul hp rest
  have hsecond : strstr ((header ++ rest).drop p) (sizeFieldKey proto).2 = some q := by
    rw [List.drop_append_of_le_length (by omega)]
    exact strstr_append hdrop hq rest
  have hvalue : atoi ((header ++ rest).drop (p + q + 1)) = digitsValue digits := by
    rw [List.drop_append_of_le_length (by omega), hnumber, List.append_assoc, List.append_assoc,
      List.cons_append]
    exact atoi_blanks blanks hne hdigits _
  have hfield : fileSizeField proto (header ++ rest) =
      (strstr (header ++ rest) (sizeFieldKey proto).1).bind fun p =>
        (strstr ((header ++ rest).drop p) (sizeFieldKey proto).2).map fun q =>
          (atoi ((header ++ rest).drop (p + q + 1)) % 2 ^ 32).toNat := by
    cases proto <;> rfl
  rw [hfield, hfirst, Option.bind_some, hsecond, Option.map_some, hvalue]
  congr 1
  omega

section Parse

variable {cfg : Config} {dl : Resource} {client : Client} {size : Nat} {header : List UInt8}

theorem ResponseHeader.length_ge (h : ResponseHeader cfg dl.proto size header) :
    4 ≤ header.length := by
  have hle := find_length_le h.terminated
  have hfour : (bytes "\r\n\r\n").length = 4 := rfl
  omega

def seenClose (header rest : List UInt8) : Bool :=
  (strstr (header.map toLower ++ rest) (bytes "connection: close")).isSome

theorem httpHeaderParse_received (h : ResponseHeader cfg dl.proto size header)
    (hsize : size < 2 ^ 32) {rest : List UInt8} (hbuf : client.buf = header ++ rest) :
    httpHeaderParse dl client = .received { client with
      buf := header.map toLower ++ rest
      fileSize := if client.fileSize = 0 then size else client.fileSize
      connectionClose := client.connectionClose || seenClose header rest
      hasHeader := true } header.length := by
  have hge := h.length_ge
  have hlower := zero_notMem_map_toLower h.noNul
  have hend : strstr client.buf (bytes "\r\n\r\n") = some (header.length - 4) := by
    rw [hbuf]
    exact strstr_append h.noNul h.terminated rest
  have hbuf' : lowerHeader client.buf header.length = header.map toLower ++ rest := by
    rw [hbuf, lowerHeader, List.take_left, List.drop_left]
  obtain ⟨p, hp⟩ := Option.isSome_iff_exists.mp h.partialContent
  have hstatus : strstr (header.map toLower ++ rest) (bytes "http/1.1 206") = some p :=
    strstr_append hlower hp rest
  have hfield : (if client.fileSize = 0 then fileSizeField dl.proto (header.map toLower ++ rest)
      else some client.fileSize) =
        some (if client.fileSize = 0 then size else client.fileSize) := by
    rw [fileSizeField_eq h.size hlower hsize rest]
    split <;> rfl
  rw [httpHeaderParse, hend]
  simp only [hbuf', hstatus, hfield, Option.isNone_some, Bool.false_and, Bool.false_eq_true,
    if_false, seenClose, Nat.sub_add_cancel hge]

theorem httpParse_header (h : ResponseHeader cfg dl.proto size header) (hsize : size < 2 ^ 32)
    {payload rest : List UInt8} {len : Nat} (hbuf : client.buf = header ++ (payload ++ rest))
    (hoffset : client.offset + len = header.length + payload.length)
    (hheader : client.hasHeader = false) :
    ∃ buf, buf.length = client.buf.length ∧ buf.take payload.length = payload ∧
      httpParse cfg dl client len = accumulate cfg { client with
        buf := buf
        offset := payload.length
        fileSize := if client.fileSize = 0 then size else client.fileSize
        connectionClose := client.connectionClose || seenClose header (payload ++ rest)
        hasHeader := true } len := by
  refine ⟨Memory.write (header.map toLower ++ (payload ++ rest)) 0 payload, ?_, ?_, ?_⟩
  · rw [hbuf, Memory.write]
    simp only [List.take_zero, List.nil_append, List.length_append, List.length_drop,
      List.length_map]
    omega
  · rw [Memory.write, List.take_zero, List.nil_append, List.take_left]
  · have hparse : httpHeaderParse dl { client with offset := client.offset + len } = _ :=
      httpHeaderParse_received h hsize hbuf
    simp only [hheader, hoffset] at hparse
    have hpayload : (List.drop header.length (header.map toLower ++ (payload ++ rest))).take
        payload.length = payload := by
      rw [List.drop_left' (by rw [List.length_map]), List.take_left]
    simp only [httpParse, hheader, hoffset, Bool.false_eq_true, if_false, hparse,
      Nat.add_sub_cancel_left, hpayload]
    rw [if_neg (by omega)]

theorem httpParse_payload (len : Nat) (hheader : client.hasHeader = true) :
    httpParse cfg dl client len =
      accumulate cfg { client with offset := client.offset + len } len := by
  simp [httpParse, hheader]

theorem httpParse_receiving (len : Nat) (hheader : client.hasHeader = false)
    (h : strstr client.buf (bytes "\r\n\r\n") = none) :
    httpParse cfg dl client len = .more { client with offset := client.offset + len } := by
  simp [httpParse, hheader, httpHeaderParse, h]

end Parse

end SdkNrf.Download
