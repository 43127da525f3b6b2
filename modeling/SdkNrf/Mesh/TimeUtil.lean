import SdkNrf.Framework.Words

/-!
# TAI time and the calendar

The conversions between TAI seconds and the broken-down time of `time_util.c`.
-/

namespace SdkNrf.Mesh

inductive TimeErrno
  | EAGAIN
  | EINVAL
  deriving DecidableEq, Repr

/-- `struct bt_mesh_time_tai`, with bit-fields of 40 and 8 bits. -/
structure TimeTai where
  sec : Nat
  subsec : Nat
  sec_lt : sec < 2 ^ 40
  subsec_lt : subsec < 256
  deriving DecidableEq, Repr

namespace TimeTai

def store (sec subsec : Int) : TimeTai where
  sec := (toUnsigned 40 sec).toNat
  subsec := (toUnsigned 8 subsec).toNat
  sec_lt := by
    have hlt := toUnsigned_lt 40 sec
    omega
  subsec_lt := by
    have hlt := toUnsigned_lt 8 subsec
    omega

@[simp] theorem store_sec (sec subsec : Int) : ((store sec subsec).sec : Int) = sec % 2 ^ 40 := by
  exact Int.toNat_of_nonneg (toUnsigned_nonneg 40 sec)

@[simp] theorem store_subsec (sec subsec : Int) :
    ((store sec subsec).subsec : Int) = subsec % 256 := by
  exact Int.toNat_of_nonneg (toUnsigned_nonneg 8 subsec)

theorem ext_cast {a b : TimeTai} (hsec : (a.sec : Int) = b.sec)
    (hsubsec : (a.subsec : Int) = b.subsec) : a = b := by
  cases a
  cases b
  simp only [mk.injEq]
  exact ⟨Int.ofNat.inj hsec, Int.ofNat.inj hsubsec⟩

@[simp] theorem store_add (sec subsec amount rest : Int) :
    store ((store sec subsec).sec + amount) rest = store (sec + amount) rest := by
  apply ext_cast
  · simp only [store_sec, Int.emod_add_emod]
  · simp only [store_subsec]

end TimeTai

/-- `struct tm`. -/
structure Tm where
  sec : Int
  min : Int
  hour : Int
  mday : Int
  mon : Int
  year : Int
  wday : Int
  yday : Int
  isdst : Int
  deriving DecidableEq, Repr

def taiStartYear : Nat := 2000

def tmStartYear : Nat := 1900

def taiStartDay : Nat := 6

def secPerMin : Nat := 60

def secPerHour : Nat := 60 * secPerMin

def secPerDay : Nat := 24 * secPerHour

def weekdayCnt : Nat := 7

def monthCfg : List Nat := [31, 28, 31, 30, 31, 30, 31, 31, 30, 31, 30, 31]

def monthLeapCfg : List Nat := [31, 29, 31, 30, 31, 30, 31, 31, 30, 31, 30, 31]

def isLeapYear (year : Nat) : Bool := year % 4 = 0 ∧ (year % 100 ≠ 0 ∨ year % 400 = 0)

def months (year : Nat) : List Nat := if isLeapYear year then monthLeapCfg else monthCfg

def daysInYear (year : Nat) : Nat := if isLeapYear year then 366 else 365

/-- The days of the years before `year`, counted from `TAI_START_YEAR`. -/
def daysBeforeYear (year : Nat) : Nat :=
  ((List.range' taiStartYear (year - taiStartYear)).map daysInYear).sum

/-- `ts_to_tai`. The days are a `uint32_t`. -/
def tsToTai (tm : Tm) : Except TimeErrno TimeTai :=
  let currentYear := (toUnsigned 32 (tm.year + tmStartYear)).toNat
  if currentYear < taiStartYear then .error .EAGAIN
  else
    let days := toUnsigned 32 (daysBeforeYear currentYear
      + ((months currentYear).take tm.mon.toNat).sum + (tm.mday - 1))
    .ok (.store (days * secPerDay + tm.hour * secPerHour + tm.min * secPerMin + tm.sec) 0)

theorem daysInYear_pos (year : Nat) : 0 < daysInYear year := by
  rw [daysInYear]
  split <;> omega

/-- The year loop of `tai_to_ts`: the year, and the day in it. -/
def yearLoop (year dayCnt : Nat) : Nat × Nat :=
  if daysInYear year > dayCnt then (year, dayCnt)
  else yearLoop (year + 1) (dayCnt - daysInYear year)
termination_by dayCnt
decreasing_by
  have hpos := daysInYear_pos year
  omega

/-- The month loop of `tai_to_ts`: the month, and what is left of the days. -/
def monthLoop : List Nat → Nat → Nat → Nat × Nat
  | [], mon, dayCnt => (mon, dayCnt)
  | days :: rest, mon, dayCnt =>
    if days < dayCnt then monthLoop rest (mon + 1) (dayCnt - days) else (mon, dayCnt)

def taiToTs (tai : TimeTai) : Tm :=
  let dayCnt := tai.sec / secPerDay
  let (year, yday) := yearLoop taiStartYear dayCnt
  let (mon, mday) := monthLoop (months year) 0 yday
  { sec := (tai.sec % secPerMin : Nat)
    min := (tai.sec % secPerHour / secPerMin : Nat)
    hour := (tai.sec % secPerDay / secPerHour : Nat)
    mday := mday + 1
    mon := mon
    year := year - tmStartYear
    wday := ((taiStartDay + dayCnt) % weekdayCnt : Nat)
    yday := yday
    isdst := -1 }

theorem yearLoop_spec (year dayCnt : Nat) :
    year ≤ (yearLoop year dayCnt).1
      ∧ ((List.range' year ((yearLoop year dayCnt).1 - year)).map daysInYear).sum
          + (yearLoop year dayCnt).2 = dayCnt
      ∧ (yearLoop year dayCnt).1 ≤ year + dayCnt := by
  fun_induction yearLoop year dayCnt with
  | case1 year dayCnt h => simp
  | case2 year dayCnt h ih =>
    have hpos := daysInYear_pos year
    set last := (yearLoop (year + 1) (dayCnt - daysInYear year)).1
    have hcount : last - year = last - (year + 1) + 1 := by omega
    refine ⟨by omega, ?_, by omega⟩
    rw [hcount, List.range'_succ, List.map_cons, List.sum_cons]
    omega

theorem monthLoop_spec (table : List Nat) (mon dayCnt : Nat) :
    mon ≤ (monthLoop table mon dayCnt).1
      ∧ (table.take ((monthLoop table mon dayCnt).1 - mon)).sum + (monthLoop table mon dayCnt).2
          = dayCnt := by
  fun_induction monthLoop table mon dayCnt with
  | case1 mon dayCnt => simp
  | case2 days rest mon dayCnt h ih =>
    set last := (monthLoop rest (mon + 1) (dayCnt - days)).1
    have hcount : last - mon = last - (mon + 1) + 1 := by omega
    refine ⟨by omega, ?_⟩
    rw [hcount, List.take_succ_cons, List.sum_cons]
    omega
  | case3 days rest mon dayCnt h => simp

private theorem seconds_split (sec : Nat) :
    sec / secPerDay * secPerDay + sec % secPerDay / secPerHour * secPerHour
      + sec % secPerHour / secPerMin * secPerMin + sec % secPerMin = sec := by
  simp only [secPerDay, secPerHour, secPerMin]
  omega

theorem tsToTai_of_days {tm : Tm} {year days : Nat} (hyear : tm.year = (year : Int) - tmStartYear)
    (hge : taiStartYear ≤ year) (hlt : year < 2 ^ 32)
    (hdays : (daysBeforeYear year : Int) + (((months year).take tm.mon.toNat).sum : Nat)
      + (tm.mday - 1) = days) (hdayslt : days < 2 ^ 32) :
    tsToTai tm = .ok (.store
      (days * secPerDay + tm.hour * secPerHour + tm.min * secPerMin + tm.sec) 0) := by
  have hcurrent : (toUnsigned 32 (tm.year + tmStartYear)).toNat = year := by
    rw [hyear, toUnsigned]
    omega
  simp only [tsToTai]
  rw [hcurrent, if_neg (Nat.not_lt.mpr hge), hdays,
    toUnsigned_of_nonneg (Int.natCast_nonneg days) (by exact_mod_cast hdayslt)]

/-- Every date of `tai_to_ts` is read back as the second it was made from. -/
theorem tsToTai_taiToTs (tai : TimeTai) : tsToTai (taiToTs tai) = .ok (.store tai.sec 0) := by
  have hyear := yearLoop_spec taiStartYear (tai.sec / secPerDay)
  have hmonth := monthLoop_spec
    (months (yearLoop taiStartYear (tai.sec / secPerDay)).1) 0
    (yearLoop taiStartYear (tai.sec / secPerDay)).2
  have hsplit := seconds_split tai.sec
  have hsec := tai.sec_lt
  have hday : tai.sec / secPerDay < 2 ^ 31 := by
    simp only [secPerDay, secPerHour, secPerMin]
    omega
  rw [Nat.sub_zero] at hmonth
  rw [tsToTai_of_days (show (taiToTs tai).year = _ from rfl) hyear.1 _ _ (Nat.lt_of_lt_of_le hday _)]
  · simp only [taiToTs]
    congr 2
    exact_mod_cast hsplit
  · simp only [taiStartYear] at *
    omega
  · simp only [taiToTs, daysBeforeYear, Int.toNat_natCast]
    omega
  · omega

end SdkNrf.Mesh
