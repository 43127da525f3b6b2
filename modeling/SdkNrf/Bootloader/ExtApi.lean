import SdkNrf.Bootloader.ValidatedRegion

/-!
# External APIs

A boot stage provides the external APIs that an image requests, and the image checks them when it has been
booted (`fw_info.c`).
-/

namespace SdkNrf.Bootloader

abbrev Ram := BitVec 32 → BitVec 32

/-- With `EXT_API_MAGIC`, and the list at `_fw_info_images_start`. -/
structure ExtApiConfig extends BootConfig where
  extApiMagic : List (BitVec 8)
  fwInfoImages : List (BitVec 32)

section Lists

variable (flash : Flash)

def fwExtApiNum (fwInfo : BitVec 32) : BitVec 32 := flash.word (fwInfo + 52)

def fwExtApiRequestNum (fwInfo : BitVec 32) : BitVec 32 := flash.word (fwInfo + 56)

/-- `&fw_info->ext_apis[0]`. -/
def fwExtApis (fwInfo : BitVec 32) : BitVec 32 := fwInfo + 60

def extApiLen (extApi : BitVec 32) : BitVec 32 := flash.word (extApi + 12)

def extApiId (extApi : BitVec 32) : BitVec 32 := flash.word (extApi + 16)

def extApiFlags (extApi : BitVec 32) : BitVec 32 := flash.word (extApi + 20)

def extApiVersion (extApi : BitVec 32) : BitVec 32 := flash.word (extApi + 24)

def extApiMaxVersion (extApiReq : BitVec 32) : BitVec 32 := flash.word (extApiReq + 28)

def extApiRequired (extApiReq : BitVec 32) : Bool := flash.word (extApiReq + 32) ≠ 0

def extApiPtr (extApiReq : BitVec 32) : BitVec 32 := flash.word (extApiReq + 36)

def nextExtAbi (extApi : BitVec 32) : BitVec 32 := extApi + extApiLen flash extApi

def skipExtApisLoop : Nat → BitVec 32 → BitVec 32
  | 0, extApi => extApi
  | n + 1, extApi => skipExtApisLoop n (nextExtAbi flash extApi)

def skipExtApis (fwInfo : BitVec 32) : BitVec 32 :=
  skipExtApisLoop flash (fwExtApiNum flash fwInfo).toNat (fwExtApis fwInfo)

def extApiSatisfiesReq (extApi extApiReq : BitVec 32) : Bool :=
  extApiId flash extApi = extApiId flash extApiReq &&
    decide (extApiVersion flash extApiReq ≤ extApiVersion flash extApi) &&
    decide (extApiVersion flash extApi < extApiMaxVersion flash extApiReq) &&
    extApiFlags flash extApi &&& extApiFlags flash extApiReq = extApiFlags flash extApiReq

end Lists

section Provide

variable (cfg : ExtApiConfig) (flash : Flash)

/-- The loop of `find_ext_api` over the APIs of one image. -/
def findExtApiIn (extApiReq : BitVec 32) : Nat → BitVec 32 → Option (BitVec 32)
  | 0, _ => none
  | n + 1, extApi =>
    if extApiSatisfiesReq flash extApi extApiReq then some extApi
    else findExtApiIn extApiReq n (nextExtAbi flash extApi)

/-- The image is there, it is valid and it is not `skip_fw_info`. -/
def offersExtApis (skipFwInfo fwInfo : BitVec 32) : Bool :=
  fwInfo ≠ 0 && fwValid flash fwInfo = cfg.fwInfoValidVal && fwInfo ≠ skipFwInfo

/-- The loop of `find_ext_api` over the images. -/
def findExtApiLoop (extApiReq skipFwInfo : BitVec 32) : List (BitVec 32) → Option (BitVec 32)
  | [] => none
  | image :: images =>
    let fwInfo := fwInfoFind cfg.toBootConfig flash image
    if !offersExtApis cfg flash skipFwInfo fwInfo then findExtApiLoop extApiReq skipFwInfo images
    else
      match findExtApiIn flash extApiReq (fwExtApiNum flash fwInfo).toNat (fwExtApis fwInfo) with
      | some extApi => some extApi
      | none => findExtApiLoop extApiReq skipFwInfo images

/-- `find_ext_api`; the null pointer when there is none. -/
def findExtApi (extApiReq skipFwInfo : BitVec 32) : BitVec 32 :=
  (findExtApiLoop cfg flash extApiReq skipFwInfo cfg.fwInfoImages).getD 0

/-- The loop of `fw_info_ext_api_provide`. -/
def provideLoop (fwInfo : BitVec 32) (provide : Bool) : Nat → BitVec 32 → Ram → Bool × Ram
  | 0, _, ram => (true, ram)
  | n + 1, extApiReq, ram =>
    let newExtApi := findExtApi cfg flash extApiReq fwInfo
    let ram := if provide then Function.update ram (extApiPtr flash extApiReq) newExtApi else ram
    if newExtApi = 0 ∧ extApiRequired flash extApiReq then (false, ram)
    else provideLoop fwInfo provide n (nextExtAbi flash extApiReq) ram

def fwInfoExtApiProvide (fwInfo : BitVec 32) (provide : Bool) (ram : Ram) : Bool × Ram :=
  if fwInfo = 0 then (false, ram)
  else provideLoop cfg flash fwInfo provide (fwExtApiRequestNum flash fwInfo).toNat
    (skipExtApis flash fwInfo) ram

/-- `fw_info_ext_api_check`; the null pointer when the magic value is missing. -/
def fwInfoExtApiCheck (extApi : BitVec 32) : BitVec 32 :=
  if flash.holds extApi cfg.extApiMagic then extApi else 0

/-- The loop of `check_ext_api_requests`; `none` for a panic. -/
def checkLoop : Nat → BitVec 32 → Ram → Option Ram
  | 0, _, ram => some ram
  | n + 1, extApiReq, ram =>
    let extApi := ram (extApiPtr flash extApiReq)
    if fwInfoExtApiCheck cfg flash extApi ≠ 0 ∧ extApiSatisfiesReq flash extApi extApiReq then
      checkLoop n (nextExtAbi flash extApiReq) ram
    else if extApiRequired flash extApiReq then none
    else
      checkLoop n (nextExtAbi flash extApiReq)
        (Function.update ram (extApiPtr flash extApiReq) 0)

/-- `check_ext_api_requests` of the image whose information is at `fwInfo`. -/
def checkExtApiRequests (fwInfo : BitVec 32) (ram : Ram) : Option Ram :=
  checkLoop cfg flash (fwExtApiRequestNum flash fwInfo).toNat (skipExtApis flash fwInfo) ram

end Provide

section Purpose

variable (cfg : ExtApiConfig) (flash : Flash)

def entries : Nat → BitVec 32 → List (BitVec 32)
  | 0, _ => []
  | n + 1, entry => entry :: entries n (nextExtAbi flash entry)

def extApis (fwInfo : BitVec 32) : List (BitVec 32) :=
  entries flash (fwExtApiNum flash fwInfo).toNat (fwExtApis fwInfo)

def extApiRequests (fwInfo : BitVec 32) : List (BitVec 32) :=
  entries flash (fwExtApiRequestNum flash fwInfo).toNat (skipExtApis flash fwInfo)

/-- The APIs of the valid images other than `fwInfo`. -/
def offeredExtApis (fwInfo : BitVec 32) : List (BitVec 32) :=
  ((cfg.fwInfoImages.map (fwInfoFind cfg.toBootConfig flash)).filter
    (offersExtApis cfg flash fwInfo)).flatMap (extApis flash)

/-- An API fulfills a request if the ID matches, all flags in the request are set in the API, and
the version falls between the minimum and the maximum (inclusive). -/
structure Fulfills (extApi extApiReq : BitVec 32) : Prop where
  id : extApiId flash extApi = extApiId flash extApiReq
  flags : extApiFlags flash extApi &&& extApiFlags flash extApiReq = extApiFlags flash extApiReq
  min : extApiVersion flash extApiReq ≤ extApiVersion flash extApi
  max : extApiVersion flash extApi ≤ extApiMaxVersion flash extApiReq

instance (extApi extApiReq : BitVec 32) : Decidable (Fulfills flash extApi extApiReq) :=
  decidable_of_iff (_ ∧ _ ∧ _ ∧ _) ⟨fun h => ⟨h.1, h.2.1, h.2.2.1, h.2.2.2⟩,
    fun h => ⟨h.id, h.flags, h.min, h.max⟩⟩

def Fulfilled (fwInfo extApiReq : BitVec 32) : Prop :=
  ∃ extApi ∈ offeredExtApis cfg flash fwInfo, Fulfills flash extApi extApiReq

def RequiredFulfilled (fwInfo : BitVec 32) : Prop :=
  ∀ extApiReq ∈ extApiRequests flash fwInfo, extApiRequired flash extApiReq = true →
    Fulfilled cfg flash fwInfo extApiReq

def OnlyAtMaximum (fwInfo extApiReq : BitVec 32) : Prop :=
  ∀ extApi ∈ offeredExtApis cfg flash fwInfo, Fulfills flash extApi extApiReq →
    extApiVersion flash extApi = extApiMaxVersion flash extApiReq

/-- Some required request is only fulfilled by APIs of its maximum version. -/
def NeedsMaximum (fwInfo : BitVec 32) : Prop :=
  ∃ extApiReq ∈ extApiRequests flash fwInfo, extApiRequired flash extApiReq = true ∧
    OnlyAtMaximum cfg flash fwInfo extApiReq

instance (fwInfo extApiReq : BitVec 32) : Decidable (Fulfilled cfg flash fwInfo extApiReq) :=
  List.decidableBEx (Fulfills flash · extApiReq) (offeredExtApis cfg flash fwInfo)

instance (fwInfo : BitVec 32) : Decidable (RequiredFulfilled cfg flash fwInfo) :=
  List.decidableBAll (fun extApiReq => extApiRequired flash extApiReq = true →
    Fulfilled cfg flash fwInfo extApiReq) (extApiRequests flash fwInfo)

instance (fwInfo extApiReq : BitVec 32) : Decidable (OnlyAtMaximum cfg flash fwInfo extApiReq) :=
  List.decidableBAll (fun extApi => Fulfills flash extApi extApiReq →
    extApiVersion flash extApi = extApiMaxVersion flash extApiReq) (offeredExtApis cfg flash fwInfo)

instance (fwInfo : BitVec 32) : Decidable (NeedsMaximum cfg flash fwInfo) :=
  List.decidableBEx (fun extApiReq => extApiRequired flash extApiReq = true ∧
    OnlyAtMaximum cfg flash fwInfo extApiReq) (extApiRequests flash fwInfo)

/-- Lists as the linker builds them: an API begins with the magic value and is not at the null
pointer, and each request has a variable of its own. -/
structure WellFormed (fwInfo : BitVec 32) : Prop where
  fwInfo_ne : fwInfo ≠ 0
  extApi_ne : ∀ extApi ∈ offeredExtApis cfg flash fwInfo, extApi ≠ 0
  magic : ∀ extApi ∈ offeredExtApis cfg flash fwInfo, flash.holds extApi cfg.extApiMagic = true
  ptrs : ((extApiRequests flash fwInfo).map (extApiPtr flash)).Nodup

/-- What is provided is what the image accepts. -/
structure ProvisionAgrees (fwInfo : BitVec 32) (ram : Ram) : Prop where
  result : (fwInfoExtApiProvide cfg flash fwInfo true ram).1 = true ↔
    RequiredFulfilled cfg flash fwInfo
  same : (fwInfoExtApiProvide cfg flash fwInfo false ram).1 =
    (fwInfoExtApiProvide cfg flash fwInfo true ram).1
  unchanged : (fwInfoExtApiProvide cfg flash fwInfo false ram).2 = ram
  kept : (fwInfoExtApiProvide cfg flash fwInfo true ram).1 = true →
    checkExtApiRequests cfg flash fwInfo (fwInfoExtApiProvide cfg flash fwInfo true ram).2 =
      some (fwInfoExtApiProvide cfg flash fwInfo true ram).2

end Purpose

section Search

variable {cfg : ExtApiConfig} {flash : Flash}

theorem findExtApiIn_eq (extApiReq : BitVec 32) (n : Nat) (extApi : BitVec 32) :
    findExtApiIn flash extApiReq n extApi =
      (entries flash n extApi).find? fun extApi => extApiSatisfiesReq flash extApi extApiReq := by
  induction n generalizing extApi with
  | zero => rfl
  | succ n ih =>
    rw [findExtApiIn, entries, List.find?_cons, ih]
    cases extApiSatisfiesReq flash extApi extApiReq <;> rfl

theorem findExtApiLoop_eq (extApiReq fwInfo : BitVec 32) (images : List (BitVec 32)) :
    findExtApiLoop cfg flash extApiReq fwInfo images =
      (((images.map (fwInfoFind cfg.toBootConfig flash)).filter
        (offersExtApis cfg flash fwInfo)).flatMap (extApis flash)).find?
          fun extApi => extApiSatisfiesReq flash extApi extApiReq := by
  induction images with
  | nil => rfl
  | cons image images ih =>
    rw [findExtApiLoop, List.map_cons, List.filter_cons]
    cases hoffers : offersExtApis cfg flash fwInfo (fwInfoFind cfg.toBootConfig flash image) with
    | false => simpa [hoffers] using ih
    | true =>
      simp only [Bool.not_true, Bool.false_eq_true, if_false, if_true, List.flatMap_cons,
        List.find?_append, findExtApiIn_eq, ih, extApis]
      cases (entries flash _ _).find? _ <;> rfl

theorem findExtApiLoop_images (extApiReq fwInfo : BitVec 32) :
    findExtApiLoop cfg flash extApiReq fwInfo cfg.fwInfoImages =
      (offeredExtApis cfg flash fwInfo).find?
        fun extApi => extApiSatisfiesReq flash extApi extApiReq :=
  findExtApiLoop_eq extApiReq fwInfo cfg.fwInfoImages

theorem extApiSatisfiesReq_iff {extApi extApiReq : BitVec 32} :
    extApiSatisfiesReq flash extApi extApiReq = true ↔
      Fulfills flash extApi extApiReq ∧
        extApiVersion flash extApi ≠ extApiMaxVersion flash extApiReq := by
  simp only [extApiSatisfiesReq, Bool.and_eq_true, decide_eq_true_eq]
  constructor
  · rintro ⟨⟨⟨hid, hmin⟩, hmax⟩, hflags⟩
    exact ⟨⟨hid, hflags, hmin, BitVec.le_of_lt hmax⟩, BitVec.ne_of_lt hmax⟩
  · rintro ⟨⟨hid, hflags, hmin, hmax⟩, hne⟩
    exact ⟨⟨⟨hid, hmin⟩, BitVec.lt_of_le_ne hmax hne⟩, hflags⟩

theorem findExtApi_spec {extApiReq fwInfo : BitVec 32}
    (h : findExtApi cfg flash extApiReq fwInfo ≠ 0) :
    findExtApi cfg flash extApiReq fwInfo ∈ offeredExtApis cfg flash fwInfo ∧
      extApiSatisfiesReq flash (findExtApi cfg flash extApiReq fwInfo) extApiReq = true := by
  rw [findExtApi, findExtApiLoop_images] at h ⊢
  cases hfind : (offeredExtApis cfg flash fwInfo).find?
      fun extApi => extApiSatisfiesReq flash extApi extApiReq with
  | none =>
    rw [hfind] at h
    exact absurd rfl h
  | some extApi =>
    exact ⟨List.mem_of_find?_eq_some hfind, List.find?_some (p := fun extApi =>
      extApiSatisfiesReq flash extApi extApiReq) hfind⟩

theorem findExtApi_ne_iff {extApiReq fwInfo : BitVec 32} (h : WellFormed cfg flash fwInfo) :
    findExtApi cfg flash extApiReq fwInfo ≠ 0 ↔
      ∃ extApi ∈ offeredExtApis cfg flash fwInfo,
        extApiSatisfiesReq flash extApi extApiReq = true := by
  constructor
  · intro hne
    exact ⟨_, findExtApi_spec hne⟩
  · rintro ⟨extApi, hmem, hsatisfies⟩
    rw [findExtApi, findExtApiLoop_images]
    cases hfind : (offeredExtApis cfg flash fwInfo).find?
        fun extApi => extApiSatisfiesReq flash extApi extApiReq with
    | none => exact absurd hsatisfies (List.find?_eq_none.mp hfind extApi hmem)
    | some found => exact h.extApi_ne found (List.mem_of_find?_eq_some hfind)

end Search

section Provider

variable {cfg : ExtApiConfig} {flash : Flash} {fwInfo : BitVec 32}

theorem provideLoop_fst (provide : Bool) (n : Nat) (extApiReq : BitVec 32) (ram : Ram) :
    (provideLoop cfg flash fwInfo provide n extApiReq ram).1 = true ↔
      ∀ r ∈ entries flash n extApiReq, extApiRequired flash r = true →
        findExtApi cfg flash r fwInfo ≠ 0 := by
  induction n generalizing extApiReq ram with
  | zero => simp [provideLoop, entries]
  | succ n ih =>
    rw [provideLoop, entries, List.forall_mem_cons]
    split
    · next hunmet => simp [hunmet.1, hunmet.2]
    · next hmet =>
      have hfirst : extApiRequired flash extApiReq = true →
          findExtApi cfg flash extApiReq fwInfo ≠ 0 := fun hrequired hzero =>
        hmet ⟨hzero, hrequired⟩
      rw [ih]
      exact (and_iff_right hfirst).symm

theorem provideLoop_false (n : Nat) (extApiReq : BitVec 32) (ram : Ram) :
    (provideLoop cfg flash fwInfo false n extApiReq ram).2 = ram := by
  induction n generalizing extApiReq with
  | zero => rfl
  | succ n ih =>
    rw [provideLoop]
    simp only [Bool.false_eq_true, if_false]
    split
    · rfl
    · exact ih _

theorem provideLoop_of_notMem {a : BitVec 32} (n : Nat) (extApiReq : BitVec 32) (ram : Ram)
    (h : a ∉ (entries flash n extApiReq).map (extApiPtr flash)) :
    (provideLoop cfg flash fwInfo true n extApiReq ram).2 a = ram a := by
  induction n generalizing extApiReq ram with
  | zero => rfl
  | succ n ih =>
    rw [entries, List.map_cons, List.mem_cons, not_or] at h
    have hkept : Function.update ram (extApiPtr flash extApiReq)
        (findExtApi cfg flash extApiReq fwInfo) a = ram a := Function.update_of_ne h.1 _ _
    rw [provideLoop]
    simp only [if_true]
    split
    · exact hkept
    · rw [ih _ _ h.2, hkept]

theorem provideLoop_ptr (n : Nat) (extApiReq : BitVec 32) (ram : Ram)
    (hnodup : ((entries flash n extApiReq).map (extApiPtr flash)).Nodup)
    (h : (provideLoop cfg flash fwInfo true n extApiReq ram).1 = true) :
    ∀ r ∈ entries flash n extApiReq,
      (provideLoop cfg flash fwInfo true n extApiReq ram).2 (extApiPtr flash r) =
        findExtApi cfg flash r fwInfo := by
  induction n generalizing extApiReq ram with
  | zero => simp [entries]
  | succ n ih =>
    rw [entries, List.map_cons, List.nodup_cons] at hnodup
    rw [provideLoop] at h ⊢
    simp only [if_true] at h ⊢
    rw [entries, List.forall_mem_cons]
    split at h
    · cases h
    · next hmet =>
      rw [if_neg hmet]
      constructor
      · rw [provideLoop_of_notMem n _ _ hnodup.1, Function.update_self]
      · exact ih _ _ hnodup.2 h

end Provider

section Image

variable {cfg : ExtApiConfig} {flash : Flash} {fwInfo : BitVec 32}

theorem accepted_of_found (hwf : WellFormed cfg flash fwInfo) {r : BitVec 32}
    (h : findExtApi cfg flash r fwInfo ≠ 0) :
    fwInfoExtApiCheck cfg flash (findExtApi cfg flash r fwInfo) ≠ 0 ∧
      extApiSatisfiesReq flash (findExtApi cfg flash r fwInfo) r = true := by
  obtain ⟨hmem, hsatisfies⟩ := findExtApi_spec h
  constructor
  · rw [fwInfoExtApiCheck, if_pos (hwf.magic _ hmem)]
    exact h
  · exact hsatisfies

theorem checkLoop_kept (hwf : WellFormed cfg flash fwInfo) (n : Nat) (extApiReq : BitVec 32)
    (ram : Ram)
    (hram : ∀ r ∈ entries flash n extApiReq,
      ram (extApiPtr flash r) = findExtApi cfg flash r fwInfo)
    (hmet : ∀ r ∈ entries flash n extApiReq, extApiRequired flash r = true →
      findExtApi cfg flash r fwInfo ≠ 0) :
    checkLoop cfg flash n extApiReq ram = some ram := by
  induction n generalizing extApiReq with
  | zero => rfl
  | succ n ih =>
    rw [entries, List.forall_mem_cons] at hram hmet
    have hrest := ih _ hram.2 hmet.2
    rw [checkLoop, hram.1]
    by_cases hfound : findExtApi cfg flash extApiReq fwInfo = 0
    · -- the null pointer is never accepted, and it is written again
      have hnull : ¬(fwInfoExtApiCheck cfg flash 0 ≠ 0 ∧
          extApiSatisfiesReq flash 0 extApiReq = true) := by
        rw [fwInfoExtApiCheck, ite_self]
        exact fun h => h.1 rfl
      have hoptional : ¬ extApiRequired flash extApiReq = true :=
        fun hrequired => hmet.1 hrequired hfound
      have hsame : Function.update ram (extApiPtr flash extApiReq) 0 = ram := by
        rw [← hfound, ← hram.1, Function.update_eq_self]
      rw [hfound, if_neg hnull, if_neg hoptional, hsame]
      exact hrest
    · rw [if_pos (accepted_of_found hwf hfound)]
      exact hrest

end Image

section Agreement

variable {cfg : ExtApiConfig} {flash : Flash} {fwInfo : BitVec 32}

theorem provide_result (hwf : WellFormed cfg flash fwInfo) (provide : Bool) (ram : Ram) :
    (fwInfoExtApiProvide cfg flash fwInfo provide ram).1 = true ↔
      ∀ r ∈ extApiRequests flash fwInfo, extApiRequired flash r = true →
        ∃ extApi ∈ offeredExtApis cfg flash fwInfo, Fulfills flash extApi r ∧
          extApiVersion flash extApi ≠ extApiMaxVersion flash r := by
  rw [fwInfoExtApiProvide, if_neg hwf.fwInfo_ne, provideLoop_fst]
  simp only [findExtApi_ne_iff hwf, extApiSatisfiesReq_iff, extApiRequests]

theorem provide_kept (hwf : WellFormed cfg flash fwInfo) (ram : Ram)
    (h : (fwInfoExtApiProvide cfg flash fwInfo true ram).1 = true) :
    checkExtApiRequests cfg flash fwInfo (fwInfoExtApiProvide cfg flash fwInfo true ram).2 =
      some (fwInfoExtApiProvide cfg flash fwInfo true ram).2 := by
  rw [fwInfoExtApiProvide, if_neg hwf.fwInfo_ne] at h ⊢
  apply checkLoop_kept hwf
  · exact provideLoop_ptr _ _ ram hwf.ptrs h
  · exact (provideLoop_fst true _ _ ram).mp h

/-- The provider and the image agree with what is documented, unless every required request is
fulfilled and one of them only up to the maximum. -/
theorem provisionAgrees_iff (hwf : WellFormed cfg flash fwInfo) (ram : Ram) :
    ProvisionAgrees cfg flash fwInfo ram ↔
      ¬(RequiredFulfilled cfg flash fwInfo ∧ NeedsMaximum cfg flash fwInfo) := by
  constructor
  · rintro h ⟨hfulfilled, r, hr, hrequired, honly⟩
    have htrue := h.result.mpr hfulfilled
    rw [provide_result hwf] at htrue
    obtain ⟨extApi, hmem, hfulfills, hne⟩ := htrue r hr hrequired
    exact hne (honly extApi hmem hfulfills)
  · intro h
    constructor
    · rw [provide_result hwf]
      constructor
      · intro hall r hr hrequired
        obtain ⟨extApi, hmem, hfulfills, -⟩ := hall r hr hrequired
        exact ⟨extApi, hmem, hfulfills⟩
      · intro hfulfilled r hr hrequired
        by_contra hnone
        apply h
        refine ⟨hfulfilled, r, hr, hrequired, fun extApi hmem hfulfills => ?_⟩
        by_contra hne
        exact hnone ⟨extApi, hmem, hfulfills, hne⟩
    · rw [Bool.eq_iff_iff, provide_result hwf, provide_result hwf]
    · rw [fwInfoExtApiProvide, if_neg hwf.fwInfo_ne, provideLoop_false]
    · exact provide_kept hwf ram

end Agreement

def demoExtApiMagic : List (BitVec 8) :=
  [0x86, 0x1D, 0xEE, 0x28, 0x53, 0x44, 0x5A, 0x1D, 2, 0, 0, 0]

def extApiConfig : ExtApiConfig :=
  { demoConfig with extApiMagic := demoExtApiMagic, fwInfoImages := [0x1000, 0x2000] }

/-- The image at `0x1000` offers version 3 of an API, and the image at `0x2000` requires a version
from 1 up to `maxVersion`. -/
def extApiFlash (maxVersion : BitVec 32) : Flash :=
  Flash.withWords (fun _ => 0xFF)
    [(0x1000, 0x28EE1D86), (0x1004, 0x1D5A4453), (0x1008, 1), (0x1020, 0x9102FFFF), (0x1034, 1),
      (0x1038, 0), (0x103C, 0x28EE1D86), (0x1040, 0x1D5A4453), (0x1044, 2), (0x1048, 32),
      (0x104C, 7), (0x1050, 1), (0x1054, 3),
      (0x2000, 0x28EE1D86), (0x2004, 0x1D5A4453), (0x2008, 1), (0x2020, 0x9102FFFF), (0x2034, 0),
      (0x2038, 1), (0x203C, 0x28EE1D86), (0x2040, 0x1D5A4453), (0x2044, 2), (0x2048, 40),
      (0x204C, 7), (0x2050, 1), (0x2054, 1), (0x2058, maxVersion), (0x205C, 1),
      (0x2060, 0x20000000)]

theorem demo_wellFormed {flash : Flash}
    (hoffered : offeredExtApis extApiConfig flash 0x2000 = [0x103C])
    (hrequests : extApiRequests flash 0x2000 = [0x203C])
    (hmagic : flash.holds 0x103C extApiConfig.extApiMagic = true) :
    WellFormed extApiConfig flash 0x2000 := by
  constructor
  · decide
  · rw [hoffered]
    simp
  · rw [hoffered]
    simpa using hmagic
  · rw [hrequests]
    simp

theorem belowMaximum_agrees :
    ProvisionAgrees extApiConfig (extApiFlash 4) 0x2000 (fun _ => 0) :=
  (provisionAgrees_iff (demo_wellFormed (by decide) (by decide)
    (by decide)) _).mpr (by decide)

/-- A required API of the maximum version is not provided. -/
theorem atMaximum_disagrees :
    WellFormed extApiConfig (extApiFlash 3) 0x2000 ∧
      RequiredFulfilled extApiConfig (extApiFlash 3) 0x2000 ∧
      (fwInfoExtApiProvide extApiConfig (extApiFlash 3) 0x2000 true (fun _ => 0)).1 = false ∧
      ¬ ProvisionAgrees extApiConfig (extApiFlash 3) 0x2000 (fun _ => 0) := by
  have hfulfilled : RequiredFulfilled extApiConfig (extApiFlash 3) 0x2000 := by decide
  have hfails : (fwInfoExtApiProvide extApiConfig (extApiFlash 3) 0x2000 true (fun _ => 0)).1 =
      false := by
    decide
  refine ⟨?_, hfulfilled, hfails, ?_⟩
  · exact demo_wellFormed (by decide) (by decide) (by decide)
  · intro h
    rw [h.result.mpr hfulfilled] at hfails
    cases hfails

end SdkNrf.Bootloader
