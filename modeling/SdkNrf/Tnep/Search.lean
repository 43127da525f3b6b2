import SdkNrf.Ndef.Payloads
import SdkNrf.Tnep.Poller

/-!
# The search for services

`nfc_tnep_poller_svc_search` of `subsys/nfc/tnep/poller.c` over the records of a message that was read.
-/

namespace SdkNrf.TnepPoller

open Ndef (ShortBytes Tnf tnepRecSvcParamPayload)

def EFAULT : Int := 14

/-- `NFC_TNEP_SERVICE_PARAM_MIN_LEN`. -/
def serviceParamMinLen : Nat := 7

/-- `struct nfc_ndef_record_desc` of a record that was read, with its binary payload. -/
structure Record where
  tnf : Tnf
  type : ShortBytes
  payload : List UInt8

/-- `struct nfc_ndef_tnep_rec_svc_param` in the array of the caller; `uri` is what is found from the
pointer on. -/
structure Found where
  version : UInt8
  uriLength : UInt8
  uri : List UInt8
  communicationMode : UInt8
  minTime : UInt8
  maxTimeExt : UInt8
  maxSize : UInt16
  deriving DecidableEq, Repr

def serviceParamRecCheck (record : Record) : Bool :=
  record.tnf = .wellKnown ∧ record.type.val.length = 2 ∧ record.type.val = [0x54, 0x70]

/-- `svc_param_record_get` for the entry at an index: the array and the error. The first two fields are
stored before the length is checked against them. -/
def svcParamRecordGet (payload : List UInt8) (params : List Found) (i : Nat) : Option (List Found × Int) :=
  match payload with
  | version :: uriLength :: nfcData =>
    if payload.length < serviceParamMinLen then some (params, -EFAULT)
    else
      params[i]?.bind fun param =>
        let param := { param with version, uriLength }
        if payload.length ≠ serviceParamMinLen + uriLength.toNat then some (params.set i param, -EFAULT)
        else
          match nfcData.drop uriLength.toNat with
          | communicationMode :: minTime :: maxTimeExt :: b1 :: b0 :: _ =>
            some (params.set i { param with
              uri := nfcData
              communicationMode, minTime, maxTimeExt
              maxSize := UInt16.ofNat (be16Value b1 b0) }, 0)
          | _ => none
  | _ => some (params, -EFAULT)

/-- The loop of `nfc_tnep_poller_svc_search`: the array, the count and the result. -/
def svcSearchFrom (size : Nat) : List Record → List Found → Nat → Option (List Found × Nat × Int)
  | [], params, cnt => some (params, cnt, 0)
  | record :: rest, params, cnt =>
    if serviceParamRecCheck record then
      if size < cnt then some (params, cnt, -ENOMEM)
      else
        (svcParamRecordGet record.payload params cnt).bind fun (params, err) =>
          if err ≠ 0 then svcSearchFrom size rest params cnt
          else svcSearchFrom size rest params ((cnt + 1) % 2 ^ 8)
    else svcSearchFrom size rest params cnt

/-- `nfc_tnep_poller_svc_search` for pointers that are not null; `cnt` is that of the places at `params`. -/
def svcSearch (records : List Record) (params : List Found) : Option (List Found × Nat × Int) :=
  if params.length < 1 then some (params, params.length, -ENOMEM)
  else if records.length < 1 then some (params, 0, 0)
  else svcSearchFrom params.length records params 0

theorem take_uriLength_lt (uriLength : UInt8) (data : List UInt8) :
    (data.take uriLength.toNat).length < 2 ^ 8 :=
  (List.length_take_le ..).trans_lt uriLength.toNat_lt

def Found.desc (found : Found) : Ndef.SvcParam where
  version := found.version
  uri := some ⟨found.uri.take found.uriLength.toNat, take_uriLength_lt found.uriLength found.uri⟩
  communicationMode := found.communicationMode
  minTime := found.minTime
  maxTimeExt := found.maxTimeExt
  maxSize := found.maxSize

/-- The descriptor that a payload is made of, if it is well formed. -/
def paramOf : List UInt8 → Option Ndef.SvcParam
  | version :: uriLength :: data =>
    match data.drop uriLength.toNat with
    | [communicationMode, minTime, maxTimeExt, b1, b0] =>
      some ⟨version, some ⟨data.take uriLength.toNat, take_uriLength_lt uriLength data⟩, communicationMode,
        minTime, maxTimeExt, UInt16.ofNat (be16Value b1 b0)⟩
    | _ => none
  | _ => none

def descriptors (records : List Record) : List Ndef.SvcParam :=
  (records.filter serviceParamRecCheck).filterMap fun record => paramOf record.payload

/-- The search stays in the array, and it finds exactly the descriptors, or says that they are too
many. -/
def FindsServices (records : List Record) (params : List Found) : Prop :=
  ∃ params' cnt err, svcSearch records params = some (params', cnt, err) ∧
    if (descriptors records).length ≤ params.length then
      err = 0 ∧ cnt = (descriptors records).length ∧ (params'.take cnt).map Found.desc = descriptors records
    else err = -ENOMEM

/-- No service parameter record whose payload is long enough comes behind `n` well-formed ones. -/
def RoomForEach (n : Nat) (records : List Record) : Prop :=
  ∀ before record after, records = before ++ record :: after → serviceParamRecCheck record →
    serviceParamMinLen ≤ record.payload.length → (descriptors before).length < n

section Payloads

variable {payload : List UInt8} {param : Ndef.SvcParam}

theorem paramOf_short (h : payload.length < serviceParamMinLen) : paramOf payload = none := by
  match payload with
  | [] => rfl
  | [_] => rfl
  | version :: uriLength :: data =>
    rw [paramOf]
    split
    next hdrop =>
      have hl := congrArg List.length hdrop
      simp only [List.length_drop, List.length_cons, List.length_nil, serviceParamMinLen] at hl h
      omega
    · rfl

theorem maxSize_back (v : UInt16) :
    UInt16.ofNat (be16Value (UInt8.ofNat (v.toNat / 2 ^ 8)) (UInt8.ofNat v.toNat)) = v := by
  rw [be16Value_be16 v.toNat_lt, UInt16.ofNat_toNat]

theorem toNat_lengthByte (uri : ShortBytes) : uri.lengthByte.toNat = uri.val.length := by
  rw [ShortBytes.lengthByte, UInt8.toNat_ofNat']
  exact Nat.mod_eq_of_lt uri.property

theorem paramOf_bytes {uri : ShortBytes} (h : param.uri = some uri) :
    paramOf (param.bytes uri) = some param := by
  have hlen := toNat_lengthByte uri
  simp only [Ndef.SvcParam.bytes, ShortBytes.field, be16, List.cons_append, paramOf, hlen, List.drop_left,
    List.take_left, maxSize_back]
  rw [← h]

theorem paramOf_constructed {mem mem' : Memory} {len size : Nat}
    (h : tnepRecSvcParamPayload param (some mem) len = ⟨some mem', .ok size⟩) :
    paramOf (mem'.take size) = some param := by
  cases huri : param.uri with
  | none =>
    rw [tnepRecSvcParamPayload, huri] at h
    cases h
  | some uri =>
    simp only [tnepRecSvcParamPayload, huri] at h
    split at h
    · cases h
    next hvalid =>
      split at h
      · cases h
      · have hsize : Ndef.tnepCalcSizeServiceParam uri = (param.bytes uri).length := by
          rw [Ndef.tnepCalcSizeServiceParam, if_pos (fun hzero => hvalid (Or.inr hzero))]
          simp [Ndef.SvcParam.bytes, ShortBytes.field, be16]
        injection h with hmem hok
        injection hmem with hmem
        injection hok with hok
        rw [← hmem, ← hok, hsize, Memory.write, List.take_zero, List.nil_append, List.take_left]
        exact paramOf_bytes huri

end Payloads

section OneRecord

variable {payload : List UInt8} {params : List Found} {i : Nat}

theorem svcParamRecordGet_short (h : payload.length < serviceParamMinLen) :
    svcParamRecordGet payload params i = some (params, -EFAULT) := by
  match payload with
  | [] => rfl
  | [_] => rfl
  | _ :: _ :: _ => rw [svcParamRecordGet, if_pos h]

theorem svcParamRecordGet_outside (hlen : serviceParamMinLen ≤ payload.length) (hi : params.length ≤ i) :
    svcParamRecordGet payload params i = none := by
  match payload with
  | [] => exact absurd hlen (by decide)
  | [_] => exact absurd hlen (by simp [serviceParamMinLen])
  | _ :: _ :: _ => rw [svcParamRecordGet, if_neg (not_lt.mpr hlen), List.getElem?_eq_none hi,
    Option.bind_none]

theorem exists_of_length_five {l : List UInt8} (h : l.length = 5) : ∃ a b c d e, l = [a, b, c, d, e] := by
  match l, h with
  | [a, b, c, d, e], _ => exact ⟨a, b, c, d, e, rfl⟩

theorem svcParamRecordGet_inside (payload : List UInt8) (hi : i < params.length) :
    ∃ params' err, svcParamRecordGet payload params i = some (params', err) ∧ params'.length = params.length ∧
      params'.take i = params.take i ∧
      ((err ≠ 0 ∧ paramOf payload = none) ∨
        (err = 0 ∧ ∃ found, params'[i]? = some found ∧ paramOf payload = some found.desc)) := by
  by_cases hshort : payload.length < serviceParamMinLen
  · exact ⟨params, -EFAULT, svcParamRecordGet_short hshort, rfl, rfl, .inl ⟨by decide, paramOf_short hshort⟩⟩
  · match payload with
    | [] => exact absurd (by decide) hshort
    | [_] => exact absurd (by simp [serviceParamMinLen]) hshort
    | version :: uriLength :: data =>
      rw [svcParamRecordGet, if_neg hshort, List.getElem?_eq_getElem hi, Option.bind_some]
      have htake : ∀ found : Found, (params.set i found).take i = params.take i := fun found =>
        List.take_set_of_le le_rfl
      by_cases hlen : (version :: uriLength :: data).length = serviceParamMinLen + uriLength.toNat
      · have hdrop : (data.drop uriLength.toNat).length = 5 := by
          simp only [List.length_cons, serviceParamMinLen, List.length_drop] at hlen ⊢
          omega
        obtain ⟨mode, minTime, maxTimeExt, b1, b0, heq⟩ := exists_of_length_five hdrop
        simp only [if_neg (not_not.mpr hlen), heq]
        refine ⟨_, 0, rfl, List.length_set, htake _, .inr ⟨rfl, _, List.getElem?_set_self hi, ?_⟩⟩
        simp only [paramOf, heq, Found.desc]
      · simp only [if_pos hlen]
        refine ⟨_, -EFAULT, rfl, List.length_set, htake _, .inl ⟨by decide, ?_⟩⟩
        rw [paramOf]
        split
        next heq =>
          have hl := congrArg List.length heq
          simp only [List.length_cons, serviceParamMinLen, List.length_drop, List.length_nil] at hl hlen
          omega
        · rfl

end OneRecord

section AllRecords

variable {n cnt : Nat} {r : Record} {rest records : List Record} {params : List Found}

theorem descriptors_cons (r : Record) (rest : List Record) :
    descriptors (r :: rest) = descriptors [r] ++ descriptors rest := by
  rw [← List.singleton_append, descriptors, List.filter_append, List.filterMap_append]
  rfl

theorem descriptors_of_check (h : serviceParamRecCheck r) :
    descriptors [r] = (paramOf r.payload).toList := by
  rw [descriptors, List.filter_cons_of_pos h, List.filter_nil, List.filterMap_cons]
  cases paramOf r.payload <;> rfl

theorem descriptors_of_not_check (h : ¬ serviceParamRecCheck r) : descriptors [r] = [] := by
  rw [descriptors, List.filter_cons_of_neg h]
  rfl

/-- The condition in front of which `cnt` services have been found. -/
def RoomFrom (n cnt : Nat) (records : List Record) : Prop :=
  ∀ before record after, records = before ++ record :: after → serviceParamRecCheck record →
    serviceParamMinLen ≤ record.payload.length → cnt + (descriptors before).length < n

theorem roomFrom_nil : RoomFrom n cnt [] := by
  intro before record after heq
  simp at heq

theorem roomFrom_cons : RoomFrom n cnt (r :: rest) ↔
    (serviceParamRecCheck r → serviceParamMinLen ≤ r.payload.length → cnt < n) ∧
      RoomFrom n (cnt + (descriptors [r]).length) rest := by
  constructor
  · intro h
    refine ⟨fun hcheck hlen => h [] r rest rfl hcheck hlen, fun before record after heq hcheck hlen => ?_⟩
    have hlt := h (r :: before) record after (by rw [heq, List.cons_append]) hcheck hlen
    rw [descriptors_cons, List.length_append] at hlt
    omega
  · rintro ⟨hfirst, hrest⟩ before record after heq hcheck hlen
    cases before with
    | nil =>
      cases heq
      exact hfirst hcheck hlen
    | cons head before =>
      cases heq
      have hlt := hrest before record after rfl hcheck hlen
      rw [descriptors_cons, List.length_append]
      omega

theorem svcSearchFrom_cons (hfirst : serviceParamRecCheck r → serviceParamMinLen ≤ r.payload.length → cnt < n)
    (hn : n < 2 ^ 8) (hparams : params.length = n) (hcnt : cnt ≤ n) (rest : List Record) :
    ∃ params', params'.length = n ∧ cnt + (descriptors [r]).length ≤ n ∧
      svcSearchFrom n (r :: rest) params cnt = svcSearchFrom n rest params' (cnt + (descriptors [r]).length) ∧
      (params'.take (cnt + (descriptors [r]).length)).map Found.desc =
        (params.take cnt).map Found.desc ++ descriptors [r] := by
  rw [svcSearchFrom]
  by_cases hcheck : serviceParamRecCheck r
  · rw [descriptors_of_check hcheck, if_pos hcheck, if_neg (not_lt.mpr hcnt)]
    by_cases hlen : serviceParamMinLen ≤ r.payload.length
    · have hlt := hfirst hcheck hlen
      obtain ⟨params', err, hget, hlength, htake, hcase⟩ :=
        svcParamRecordGet_inside r.payload (hparams ▸ hlt : cnt < params.length)
      simp only [hget, Option.bind_some]
      rcases hcase with ⟨herr, hnone⟩ | ⟨rfl, found, hfound, hsome⟩
      · rw [if_pos herr, hnone]
        refine ⟨params', hlength.trans hparams, hcnt, rfl, ?_⟩
        simp [htake]
      · have hone : ([found.desc] : List Ndef.SvcParam).length = 1 := rfl
        rw [if_neg (not_not.mpr rfl), hsome, Option.toList_some, hone, Nat.mod_eq_of_lt (by omega)]
        refine ⟨params', hlength.trans hparams, hlt, rfl, ?_⟩
        rw [List.take_add_one, hfound, htake, List.map_append]
        rfl
    · have hnone := paramOf_short (not_le.mp hlen)
      simp only [svcParamRecordGet_short (not_le.mp hlen), Option.bind_some,
        if_pos (by decide : -EFAULT ≠ 0), hnone]
      exact ⟨params, hparams, hcnt, rfl, (List.append_nil _).symm⟩
  · rw [descriptors_of_not_check hcheck, if_neg hcheck]
    exact ⟨params, hparams, hcnt, rfl, (List.append_nil _).symm⟩

theorem svcSearchFrom_of_room (hroom : RoomFrom n cnt records) (hn : n < 2 ^ 8) (hparams : params.length = n)
    (hcnt : cnt ≤ n) :
    ∃ params', svcSearchFrom n records params cnt = some (params', cnt + (descriptors records).length, 0) ∧
      cnt + (descriptors records).length ≤ n ∧
      (params'.take (cnt + (descriptors records).length)).map Found.desc =
        (params.take cnt).map Found.desc ++ descriptors records := by
  induction records generalizing params cnt with
  | nil => exact ⟨params, rfl, hcnt, (List.append_nil _).symm⟩
  | cons r rest ih =>
    rw [roomFrom_cons] at hroom
    obtain ⟨params', hparams', hcnt', hstep, htake⟩ := svcSearchFrom_cons hroom.1 hn hparams hcnt rest
    obtain ⟨params'', hrun, hle, hall⟩ := ih hroom.2 hparams' hcnt'
    rw [descriptors_cons, List.length_append, ← Nat.add_assoc, hstep]
    refine ⟨params'', hrun, hle, ?_⟩
    rw [hall, htake, List.append_assoc]

theorem svcSearchFrom_of_full (hroom : ¬ RoomFrom n cnt records) (hn : n < 2 ^ 8)
    (hparams : params.length = n)
    (hcnt : cnt ≤ n) : svcSearchFrom n records params cnt = none := by
  induction records generalizing params cnt with
  | nil => exact absurd roomFrom_nil hroom
  | cons r rest ih =>
    by_cases hfirst : serviceParamRecCheck r → serviceParamMinLen ≤ r.payload.length → cnt < n
    · obtain ⟨params', hparams', hcnt', hstep, -⟩ := svcSearchFrom_cons hfirst hn hparams hcnt rest
      rw [hstep]
      apply ih _ hparams' hcnt'
      intro hrest
      exact hroom (roomFrom_cons.mpr ⟨hfirst, hrest⟩)
    · rw [Classical.not_imp, Classical.not_imp, not_lt] at hfirst
      obtain ⟨hcheck, hlen, hfull⟩ := hfirst
      rw [svcSearchFrom, if_pos hcheck, if_neg (not_lt.mpr hcnt), svcParamRecordGet_outside hlen (by omega),
        Option.bind_none]

theorem roomFrom_zero : RoomFrom n 0 records ↔ RoomForEach n records := by
  simp [RoomFrom, RoomForEach]

end AllRecords

/-- What the constructor makes of an accepted descriptor is found again; the search is right exactly
if no service parameter record with seven or more bytes comes behind as many well-formed ones as
there are places. -/
theorem findsServices_iff (records : List Record) (params : List Found) (hpos : 0 < params.length)
    (hbyte : params.length < 2 ^ 8) :
    (∀ (param : Ndef.SvcParam) (mem mem' : Memory) (len size : Nat),
      tnepRecSvcParamPayload param (some mem) len = ⟨some mem', .ok size⟩ →
        paramOf (mem'.take size) = some param) ∧
      (FindsServices records params ↔ RoomForEach params.length records) := by
  refine ⟨fun _ _ _ _ _ => paramOf_constructed, ?_⟩
  have hsearch : svcSearch records params = svcSearchFrom params.length records params 0 := by
    rw [svcSearch, if_neg (by omega)]
    cases records with
    | nil => rfl
    | cons r rest => rw [if_neg (by simp)]
  rw [← roomFrom_zero]
  constructor
  · rintro ⟨params', cnt, err, hrun, -⟩
    by_contra hroom
    rw [hsearch, svcSearchFrom_of_full hroom hbyte rfl hpos.le] at hrun
    cases hrun
  · intro hroom
    obtain ⟨params', hrun, hle, hall⟩ := svcSearchFrom_of_room hroom hbyte rfl hpos.le
    rw [Nat.zero_add] at hrun hle hall
    refine ⟨params', _, 0, hsearch.trans hrun, ?_⟩
    rw [if_pos hle]
    exact ⟨rfl, rfl, hall⟩

section OnePlace

def service : Record where
  tnf := .wellKnown
  type := ⟨[0x54, 0x70], by decide⟩
  payload := [0x10, 1, 0x61, 0, 5, 2, 0, 64]

def unset : Found := ⟨0, 0, [], 0, 0, 0, 0⟩

/-- Two services for one place: the second one is stored behind it. -/
theorem twoServices_missed : ¬ FindsServices [service, service] [unset] := by
  rintro ⟨params', cnt, err, hrun, -⟩
  have hnone : svcSearch [service, service] [unset] = none := by decide
  rw [hnone] at hrun
  cases hrun

theorem oneService_found : FindsServices [service] [unset] := by
  refine (findsServices_iff [service] [unset] (by decide) (by decide)).2.mpr ?_
  rintro (_ | ⟨_, before⟩) record after heq - -
  · exact Nat.one_pos
  · simp at heq

end OnePlace

end SdkNrf.TnepPoller
