import SdkNrf.Mesh.TimeUtil

/-!
# Local time of the mesh time server

`bt_mesh_time_srv_localtime_r` and `bt_mesh_time_srv_mktime`.
-/

namespace SdkNrf.Mesh

abbrev ZoneOffset := { offset : Int // -64 ≤ offset ∧ offset ≤ 191 }

abbrev UtcDelta := { delta : Int // -255 ≤ delta ∧ delta ≤ 32512 }

/-- `struct bt_mesh_time_status`, with the fields that the local time depends on. -/
structure TimeStatus where
  tai : TimeTai
  taiUtcDelta : UtcDelta
  timeZoneOffset : ZoneOffset
  deriving DecidableEq

/-- `struct bt_mesh_time_zone_change`. -/
structure TimeZoneChange where
  newOffset : ZoneOffset
  timestamp : Nat
  deriving DecidableEq

/-- `struct bt_mesh_time_tai_utc_change`. -/
structure TaiUtcChange where
  deltaNew : UtcDelta
  timestamp : Nat
  deriving DecidableEq

/-- `struct bt_mesh_time_srv_data`, with the uptime and the status of the last synchronisation.
An uptime is in milliseconds. -/
structure TimeSrv where
  uptime : Nat
  status : TimeStatus
  timeZoneChange : TimeZoneChange
  taiUtcChange : TaiUtcChange
  deriving DecidableEq

/-- `zone_offset_to_sec`. The last factor is unsigned, so that the product is a `uint32_t`. -/
def zoneOffsetToSec (rawZone : ZoneOffset) : Int := toUnsigned 32 (rawZone.1 * 15 * 60)

/-- `tai_to_ms`. The product and the sum have the type of the bit-field `sec`, which is 40 bits wide. -/
def taiToMs (tai : TimeTai) : Nat := (1000 * tai.sec + 1000 * tai.subsec / 256) % 2 ^ 40

def taiIsUnknown (tai : TimeTai) : Bool := tai.sec = 0 ∧ tai.subsec = 0

namespace TimeSrv

def taiAt (srv : TimeSrv) (uptime : Int) : TimeTai :=
  let sync := srv.status.tai
  let steps := (toSigned 64 (256 * (uptime - srv.uptime))).tdiv 1000
  if taiIsUnknown sync then sync
  else .store (sync.sec + steps.tdiv 256) (sync.subsec + steps)

def getZoneOffset (srv : TimeSrv) (uptime : Int) : ZoneOffset :=
  if srv.timeZoneChange.timestamp ≠ 0 ∧ (srv.taiAt uptime).sec ≥ srv.timeZoneChange.timestamp then
    srv.timeZoneChange.newOffset
  else srv.status.timeZoneOffset

def getUtcDelta (srv : TimeSrv) (uptime : Int) : UtcDelta :=
  if srv.taiUtcChange.timestamp ≠ 0 ∧ (srv.taiAt uptime).sec ≥ srv.taiUtcChange.timestamp then
    srv.taiUtcChange.deltaNew
  else srv.status.taiUtcDelta

def localtimeR (srv : TimeSrv) (uptime : Int) : Option Tm :=
  if taiIsUnknown srv.status.tai ∨ srv.uptime > uptime then none
  else
    let tai := srv.taiAt uptime
    let tai := TimeTai.store (tai.sec + zoneOffsetToSec (srv.getZoneOffset uptime)) tai.subsec
    let tai := TimeTai.store (tai.sec + (srv.getUtcDelta uptime).1) tai.subsec
    some (taiToTs tai)

/-- The zone that `bt_mesh_time_srv_mktime` takes off in its second step, in seconds. -/
def mktimeZone (srv : TimeSrv) (sec : Int) : Int :=
  let newTimeZone := zoneOffsetToSec srv.timeZoneChange.newOffset
  if srv.timeZoneChange.timestamp ≠ 0
      ∧ sec ≥ toUnsigned 64 (srv.timeZoneChange.timestamp + newTimeZone) then newTimeZone
  else zoneOffsetToSec srv.status.timeZoneOffset

/-- The delta that `bt_mesh_time_srv_mktime` adds in its second step. -/
def mktimeDelta (srv : TimeSrv) (sec : Int) : Int :=
  let newUtcDelta := srv.taiUtcChange.deltaNew.1
  if srv.taiUtcChange.timestamp ≠ 0
      ∧ sec ≥ toUnsigned 64 (srv.taiUtcChange.timestamp - newUtcDelta) then newUtcDelta
  else srv.status.taiUtcDelta.1

/-- The assignments of `bt_mesh_time_srv_mktime` to the seconds of the local time. -/
def mktimeTai (srv : TimeSrv) (tai : TimeTai) : TimeTai :=
  let currUtcDelta := srv.status.taiUtcDelta.1
  let currTimeZone := zoneOffsetToSec srv.status.timeZoneOffset
  let tai := TimeTai.store (tai.sec - currTimeZone) tai.subsec
  let tai := TimeTai.store (tai.sec + currUtcDelta) tai.subsec
  let tai := TimeTai.store (tai.sec - srv.mktimeZone tai.sec) tai.subsec
  TimeTai.store (tai.sec + srv.mktimeDelta tai.sec) tai.subsec

def mktime (srv : TimeSrv) (tm : Tm) : Except TimeErrno Int := do
  let tai ← tsToTai tm
  let tai := srv.mktimeTai tai
  if tai.sec < srv.status.tai.sec then throw .EINVAL
  return toSigned 64 (taiToMs tai - taiToMs srv.status.tai + srv.uptime)

/-- The uptime comes back from its local time, up to a second. -/
def LocalTimeInverts (srv : TimeSrv) (uptime : Int) : Prop :=
  ∃ tm result, srv.localtimeR uptime = some tm ∧ srv.mktime tm = .ok result
    ∧ |result - uptime| < 1000

def localOffset (srv : TimeSrv) (uptime : Int) : Int :=
  zoneOffsetToSec (srv.getZoneOffset uptime) + (srv.getUtcDelta uptime).1

/-- What the first step of `bt_mesh_time_srv_mktime` adds. -/
def firstShift (srv : TimeSrv) : Int :=
  srv.status.taiUtcDelta.1 - zoneOffsetToSec srv.status.timeZoneOffset

def offsetError (srv : TimeSrv) (uptime : Int) : Int :=
  let shifted := ((srv.taiAt uptime).sec + srv.localOffset uptime + srv.firstShift) % 2 ^ 40
  let zone := srv.mktimeZone shifted
  let delta := srv.mktimeDelta ((shifted - zone) % 2 ^ 40)
  srv.localOffset uptime + srv.firstShift - zone + delta

def subsecondMs (srv : TimeSrv) (uptime : Int) : Int :=
  (uptime - srv.uptime) % 1000 + (1000 * srv.status.tai.subsec / 256 : Nat)

/-- The offsets cancel well enough for the sub-second part, the milliseconds of both times are in one
period of the 40 bits, and nothing overflows. -/
structure OffsetsCancel (srv : TimeSrv) (uptime : Int) : Prop where
  near : |1000 * srv.offsetError uptime - srv.subsecondMs uptime| < 1000
  period : 1000 * (srv.status.tai.sec + (uptime - srv.uptime) / 1000 + srv.offsetError uptime) / 2 ^ 40
    = (1000 * srv.status.tai.sec + (1000 * srv.status.tai.subsec / 256 : Nat)) / 2 ^ 40
  fits : uptime + (1000 * srv.offsetError uptime - srv.subsecondMs uptime) < 2 ^ 63

variable {srv : TimeSrv} {uptime : Int}

private theorem zoneOffsetToSec_mem (zone : ZoneOffset) :
    0 ≤ zoneOffsetToSec zone ∧ zoneOffsetToSec zone < 2 ^ 32 :=
  ⟨toUnsigned_nonneg 32 _, toUnsigned_lt 32 _⟩

private theorem mktimeZone_mem (srv : TimeSrv) (sec : Int) :
    0 ≤ srv.mktimeZone sec ∧ srv.mktimeZone sec < 2 ^ 32 := by
  simp only [mktimeZone]
  split <;> apply zoneOffsetToSec_mem

private theorem mktimeDelta_mem (srv : TimeSrv) (sec : Int) :
    -255 ≤ srv.mktimeDelta sec ∧ srv.mktimeDelta sec ≤ 32512 := by
  simp only [mktimeDelta]
  split
  · exact srv.taiUtcChange.deltaNew.2
  · exact srv.status.taiUtcDelta.2

/-- A negative zone adds `2 ^ 32` seconds. -/
private theorem zoneOffsetToSec_split (zone : ZoneOffset) : ∃ wraps seconds : Int,
    zoneOffsetToSec zone = 2 ^ 32 * wraps + seconds ∧ 0 ≤ wraps ∧ wraps ≤ 1 ∧ -57600 ≤ seconds ∧
      seconds ≤ 171900 := by
  obtain ⟨offset, hge, hle⟩ := zone
  simp only [zoneOffsetToSec, toUnsigned]
  rcases lt_or_ge offset 0 with hneg | hnonneg
  · exact ⟨1, offset * 15 * 60, by omega, by omega, by omega, by omega, by omega⟩
  · exact ⟨0, offset * 15 * 60, by omega, by omega, by omega, by omega, by omega⟩

private theorem mktimeZone_eq (srv : TimeSrv) (sec : Int) :
    ∃ zone, srv.mktimeZone sec = zoneOffsetToSec zone := by
  simp only [mktimeZone]
  split <;> exact ⟨_, rfl⟩

theorem offsetError_split (srv : TimeSrv) (uptime : Int) : ∃ wraps seconds : Int,
    srv.offsetError uptime = 2 ^ 32 * wraps + seconds ∧ -2 ≤ wraps ∧ wraps ≤ 1 ∧
      -1000000 < seconds ∧ seconds < 1000000 := by
  simp only [offsetError, localOffset, firstShift]
  obtain ⟨w₁, s₁, hlocal, hw₁⟩ := zoneOffsetToSec_split (srv.getZoneOffset uptime)
  have hdelta := (srv.getUtcDelta uptime).2
  obtain ⟨w₂, s₂, hcurr, hw₂⟩ := zoneOffsetToSec_split srv.status.timeZoneOffset
  have hcurrDelta := srv.status.taiUtcDelta.2
  rw [hlocal, hcurr]
  set shifted : Int := ((srv.taiAt uptime).sec + (2 ^ 32 * w₁ + s₁
    + (srv.getUtcDelta uptime).1) + (srv.status.taiUtcDelta.1 - (2 ^ 32 * w₂ + s₂))) % 2 ^ 40
  obtain ⟨zone, hzone⟩ := mktimeZone_eq srv shifted
  obtain ⟨w₃, s₃, hsplit, hw₃⟩ := zoneOffsetToSec_split zone
  have hnew := mktimeDelta_mem srv ((shifted - srv.mktimeZone shifted) % 2 ^ 40)
  rw [hzone, hsplit] at hnew ⊢
  refine ⟨w₁ - w₂ - w₃, s₁ + (srv.getUtcDelta uptime).1 + (srv.status.taiUtcDelta.1 - s₂) - s₃
    + srv.mktimeDelta ((shifted - (2 ^ 32 * w₃ + s₃)) % 2 ^ 40), ?_, ?_, ?_, ?_, ?_⟩ <;> omega

/-- The whole seconds that `tai_at` adds, as long as the steps do not overflow. -/
theorem taiAt_sec (hknown : taiIsUnknown srv.status.tai = false) (hsync : srv.uptime ≤ uptime)
    (hlt : uptime - srv.uptime < 2 ^ 55) :
    ((srv.taiAt uptime).sec : Int)
      = (srv.status.tai.sec + (uptime - srv.uptime) / 1000) % 2 ^ 40 := by
  have hsteps : toSigned 64 (256 * (uptime - srv.uptime)) = 256 * (uptime - srv.uptime) := by
    apply toSigned_of_mem <;> omega
  simp only [taiAt, hknown, Bool.false_eq_true, if_false, TimeTai.store_sec, hsteps]
  have hnonneg : 0 ≤ 256 * (uptime - srv.uptime) := by omega
  rw [Int.tdiv_eq_ediv_of_nonneg hnonneg, Int.tdiv_eq_ediv_of_nonneg (by omega)]
  congr 2
  omega

/-- The second that `bt_mesh_time_srv_mktime` finds for a local second. -/
def foundSec (srv : TimeSrv) (sec : Int) : Int :=
  let shifted := (sec + srv.firstShift) % 2 ^ 40
  let unzoned := (shifted - srv.mktimeZone shifted) % 2 ^ 40
  (unzoned + srv.mktimeDelta unzoned) % 2 ^ 40

theorem mktimeTai_store (srv : TimeSrv) (sec : Int) :
    srv.mktimeTai (.store sec 0) = .store (srv.foundSec sec) 0 := by
  apply TimeTai.ext_cast
  · have hshift : ((sec % 2 ^ 40 - zoneOffsetToSec srv.status.timeZoneOffset) % 2 ^ 40
        + srv.status.taiUtcDelta.1) % 2 ^ 40 = (sec + srv.firstShift) % 2 ^ 40 := by
      rw [firstShift]
      omega
    simp only [mktimeTai, TimeTai.store_sec, hshift, foundSec, Int.emod_emod]
  · simp only [mktimeTai, TimeTai.store_subsec, Int.emod_emod]

theorem foundSec_mem (srv : TimeSrv) (sec : Int) :
    0 ≤ srv.foundSec sec ∧ srv.foundSec sec < 2 ^ 40 := by
  simp only [foundSec]
  omega

theorem mktime_of_sec (srv : TimeSrv) {tm : Tm} {sec : Int} (h : tsToTai tm = .ok (.store sec 0)) :
    srv.mktime tm = if srv.foundSec sec < srv.status.tai.sec then .error .EINVAL
      else .ok (toSigned 64
        (1000 * srv.foundSec sec % 2 ^ 40 - taiToMs srv.status.tai + srv.uptime)) := by
  have hmem := foundSec_mem srv sec
  have hsec : ((TimeTai.store (srv.foundSec sec) 0).sec : Int) = srv.foundSec sec := by
    rw [TimeTai.store_sec]
    exact Int.emod_eq_of_lt hmem.1 hmem.2
  have hms : (taiToMs (TimeTai.store (srv.foundSec sec) 0) : Int)
      = 1000 * srv.foundSec sec % 2 ^ 40 := by
    have hsubsec : (TimeTai.store (srv.foundSec sec) 0).subsec = 0 := rfl
    rw [taiToMs, hsubsec]
    push_cast
    omega
  simp only [mktime, h, mktimeTai_store, bind, Except.bind, ← Int.ofNat_lt, hsec, hms]
  split <;> rfl

theorem localtimeR_sec (hknown : taiIsUnknown srv.status.tai = false)
    (hsync : srv.uptime ≤ uptime) :
    ∃ tm, srv.localtimeR uptime = some tm
      ∧ tsToTai tm = .ok (.store ((srv.taiAt uptime).sec + srv.localOffset uptime) 0) := by
  refine ⟨_, by rw [localtimeR, if_neg (by simp [hknown, hsync])], ?_⟩
  rw [tsToTai_taiToTs]
  congr 1
  apply TimeTai.ext_cast
  · simp only [TimeTai.store_sec, localOffset]
    omega
  · rfl

theorem foundSec_localtime (srv : TimeSrv) (uptime : Int) :
    srv.foundSec ((srv.taiAt uptime).sec + srv.localOffset uptime)
      = ((srv.taiAt uptime).sec + srv.offsetError uptime) % 2 ^ 40 := by
  simp only [foundSec, offsetError]
  omega

def resultMs (srv : TimeSrv) (uptime : Int) : Int :=
  1000 * (((srv.taiAt uptime).sec + srv.offsetError uptime) % 2 ^ 40) % 2 ^ 40
    - taiToMs srv.status.tai + srv.uptime

theorem localTimeInverts_iff_resultMs (hknown : taiIsUnknown srv.status.tai = false)
    (hsync : srv.uptime ≤ uptime) :
    srv.LocalTimeInverts uptime
      ↔ srv.status.tai.sec ≤ ((srv.taiAt uptime).sec + srv.offsetError uptime) % 2 ^ 40
        ∧ |toSigned 64 (srv.resultMs uptime) - uptime| < 1000 := by
  obtain ⟨tm, htm, hsec⟩ := localtimeR_sec hknown hsync
  have hresult := mktime_of_sec srv hsec
  rw [foundSec_localtime] at hresult
  constructor
  · rintro ⟨tm', result, htm', hok, hnear⟩
    cases Option.some.inj (htm.symm.trans htm')
    rw [hresult] at hok
    split at hok
    · cases hok
    · next hle =>
      cases hok
      exact ⟨Int.not_lt.mp hle, hnear⟩
  · rintro ⟨hle, hnear⟩
    exact ⟨tm, _, htm, by rw [hresult, if_neg (Int.not_lt.mpr hle), resultMs], hnear⟩

private theorem taiToMs_mem (tai : TimeTai) : 0 ≤ (taiToMs tai : Int) ∧ (taiToMs tai : Int) < 2 ^ 40 := by
  have hlt : taiToMs tai < 2 ^ 40 := Nat.mod_lt _ (by norm_num)
  omega

/-- The difference of the milliseconds is the elapsed time and the error of the offsets, up to the
periods between both times. -/
private theorem resultMs_eq (hsec : ((srv.taiAt uptime).sec : Int)
      = (srv.status.tai.sec + (uptime - srv.uptime) / 1000) % 2 ^ 40) :
    srv.resultMs uptime = uptime + (1000 * srv.offsetError uptime - srv.subsecondMs uptime)
      - 2 ^ 40 * (1000 * (srv.status.tai.sec + (uptime - srv.uptime) / 1000 + srv.offsetError uptime)
          / 2 ^ 40
        - (1000 * srv.status.tai.sec + (1000 * srv.status.tai.subsec / 256 : Nat)) / 2 ^ 40) := by
  rw [resultMs, hsec, taiToMs, subsecondMs]
  push_cast
  omega

private theorem toSigned_resultMs (srv : TimeSrv) (uptime : Int) (hfits : srv.resultMs uptime < 2 ^ 63) :
    toSigned 64 (srv.resultMs uptime) = srv.resultMs uptime := by
  have hmem := taiToMs_mem srv.status.tai
  have hge : -2 ^ 40 ≤ srv.resultMs uptime := by
    simp only [resultMs]
    omega
  apply toSigned_of_mem <;> omega

private theorem resultMs_lt_of_near (hsync : srv.uptime ≤ uptime)
    (hlt : uptime < 2 ^ 63) (hnear : |toSigned 64 (srv.resultMs uptime) - uptime| < 1000) :
    srv.resultMs uptime < 2 ^ 63 := by
  by_contra hge
  have hmem := taiToMs_mem srv.status.tai
  have hupper : srv.resultMs uptime < 2 ^ 63 + 2 ^ 40 := by
    simp only [resultMs]
    omega
  have hwrap : toSigned 64 (srv.resultMs uptime) = srv.resultMs uptime - 2 ^ 64 := by
    rw [← toSigned_of_mem (w := 63) (x := srv.resultMs uptime - 2 ^ 64) (by omega) (by omega)]
    exact (Int.sub_bmod_right _ (2 ^ 64)).symm
  rw [hwrap, abs_lt] at hnear
  omega

/-- No error of the offsets makes up for a period of the 40 bits. -/
private theorem period_eq_zero {periods : Int} (srv : TimeSrv) (uptime : Int)
    (h : |1000 * srv.offsetError uptime - srv.subsecondMs uptime - 2 ^ 40 * periods| < 1000) :
    periods = 0 := by
  obtain ⟨wraps, seconds, hsplit, hge, hle, hseconds⟩ := offsetError_split srv uptime
  have hsubsec := srv.status.tai.subsec_lt
  have hms : 0 ≤ srv.subsecondMs uptime ∧ srv.subsecondMs uptime < 2000 := by
    simp only [subsecondMs]
    omega
  rw [abs_lt, hsplit] at h
  -- both the wraps and the periods are multiples of `2 ^ 32` milliseconds
  obtain ⟨k, hk⟩ : ∃ k, k = 1000 * wraps - 256 * periods := ⟨_, rfl⟩
  have hzero : k = 0 := by omega
  omega

/-- The uptime comes back from its local time exactly if the offsets cancel. -/
theorem localTimeInverts_iff (srv : TimeSrv) (uptime : Int)
    (hknown : taiIsUnknown srv.status.tai = false) (hsync : srv.uptime ≤ uptime)
    (hlt : uptime < 2 ^ 63) : srv.LocalTimeInverts uptime ↔ srv.OffsetsCancel uptime := by
  rw [localTimeInverts_iff_resultMs hknown hsync]
  have hmem := taiToMs_mem srv.status.tai
  have hsubsec := srv.status.tai.subsec_lt
  have hsecLt := srv.status.tai.sec_lt
  constructor
  · rintro ⟨-, hnear⟩
    have hfits : srv.resultMs uptime < 2 ^ 63 := resultMs_lt_of_near hsync hlt hnear
    rw [toSigned_resultMs srv uptime hfits] at hnear
    have hshort : uptime - srv.uptime < 2 ^ 55 := by
      simp only [resultMs, abs_lt] at hnear
      omega
    have hresult := resultMs_eq (taiAt_sec hknown hsync hshort)
    rw [hresult] at hnear hfits
    rw [sub_right_comm, add_sub_cancel_left] at hnear
    have hperiod := period_eq_zero srv uptime hnear
    rw [hperiod, Int.mul_zero, Int.sub_zero] at hnear hfits
    exact ⟨hnear, by omega, hfits⟩
  · rintro ⟨hnear, hperiod, hfits⟩
    rw [abs_lt] at hnear
    have hshort : uptime - srv.uptime < 2 ^ 55 := by
      simp only [subsecondMs] at hnear
      omega
    have hsec := taiAt_sec hknown hsync hshort
    have hresult := resultMs_eq hsec
    rw [hperiod, Int.sub_self, Int.mul_zero, Int.sub_zero] at hresult
    have hle : (srv.status.tai.sec : Int)
        ≤ ((srv.taiAt uptime).sec + srv.offsetError uptime) % 2 ^ 40 := by
      have hnonneg : 0 ≤ srv.offsetError uptime := by
        simp only [subsecondMs] at hnear
        omega
      have hlast : srv.status.tai.sec + (uptime - srv.uptime) / 1000 + srv.offsetError uptime
          < 2 ^ 40 := by
        omega
      rw [hsec, Int.emod_add_emod, Int.emod_eq_of_lt (by omega) hlast]
      omega
    refine ⟨hle, ?_⟩
    rw [toSigned_resultMs srv uptime (by omega), hresult, abs_lt]
    omega

def oneHourEast : TimeSrv where
  uptime := 0
  status := ⟨.store 1000000 0, ⟨0, by decide⟩, ⟨4, by decide⟩⟩
  timeZoneChange := ⟨⟨4, by decide⟩, 0⟩
  taiUtcChange := ⟨⟨0, by decide⟩, 0⟩

/-- The zone is taken off twice. -/
theorem oneHourEast_not_inverts :
    taiIsUnknown oneHourEast.status.tai = false ∧ oneHourEast.timeZoneChange.timestamp = 0
      ∧ oneHourEast.taiUtcChange.timestamp = 0 ∧ ¬ oneHourEast.LocalTimeInverts 7200000 := by
  refine ⟨by decide, by decide, by decide, ?_⟩
  rw [localTimeInverts_iff_resultMs (by decide) (by decide)]
  decide

/-- A server with a zone of a quarter of an hour, which three times its delta cancels, and a change
of the zone ahead. -/
def quarterEast : TimeSrv where
  uptime := 1500
  status := ⟨.store 1000000 64, ⟨300, by decide⟩, ⟨1, by decide⟩⟩
  timeZoneChange := ⟨⟨5, by decide⟩, 2000000⟩
  taiUtcChange := ⟨⟨300, by decide⟩, 0⟩

theorem quarterEast_inverts :
    taiIsUnknown quarterEast.status.tai = false ∧ (quarterEast.uptime : Int) ≤ 7200000
      ∧ quarterEast.LocalTimeInverts 7200000 := by
  refine ⟨by decide, by decide, ?_⟩
  rw [localTimeInverts_iff quarterEast 7200000 (by decide) (by decide) (by decide)]
  exact ⟨by decide, by decide, by decide⟩

end TimeSrv

end SdkNrf.Mesh
