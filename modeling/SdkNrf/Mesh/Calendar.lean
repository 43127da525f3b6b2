import SdkNrf.Mesh.TimeUtil

/-!
# Valid dates

The month loop of `tai_to_ts` goes on only while a month is shorter than the days that are left, so
it takes the first of a month for one day more in the month before.
-/

namespace SdkNrf.Mesh

def monthLength (year mon : Nat) : Nat := (months year).getD mon 0

def daysBeforeMonth (year mon : Nat) : Nat := ((months year).take mon).sum

def dayNumber (year mon mday : Nat) : Nat :=
  daysBeforeYear year + daysBeforeMonth year mon + (mday - 1)

/-- The date and the time of `tm` exist, its day of the year and its day of the week are those of
the date, and it is not before 2000-01-01, a Saturday. -/
structure ValidDate (tm : Tm) : Prop where
  year : (taiStartYear : Int) ≤ tm.year + tmStartYear
  mon : 0 ≤ tm.mon ∧ tm.mon ≤ 11
  mday : 1 ≤ tm.mday ∧ tm.mday ≤ monthLength (tm.year + tmStartYear).toNat tm.mon.toNat
  hour : 0 ≤ tm.hour ∧ tm.hour ≤ 23
  min : 0 ≤ tm.min ∧ tm.min ≤ 59
  sec : 0 ≤ tm.sec ∧ tm.sec ≤ 59
  yday : tm.yday
    = (daysBeforeMonth (tm.year + tmStartYear).toNat tm.mon.toNat + (tm.mday.toNat - 1) : Nat)
  wday : tm.wday
    = ((6 + dayNumber (tm.year + tmStartYear).toNat tm.mon.toNat tm.mday.toNat) % 7 : Nat)

def secondCount (tm : Tm) : Int :=
  dayNumber (tm.year + tmStartYear).toNat tm.mon.toNat tm.mday.toNat * secPerDay
    + tm.hour * secPerHour + tm.min * secPerMin + tm.sec

def FirstOfMonth (day : Nat) : Prop :=
  ∃ year mon, taiStartYear ≤ year ∧ 1 ≤ mon ∧ mon ≤ 11
    ∧ day = daysBeforeYear year + daysBeforeMonth year mon

theorem yearLoop_add (start n : Nat) {day : Nat} (h : day < daysInYear (start + n)) :
    yearLoop start (((List.range' start n).map daysInYear).sum + day) = (start + n, day) := by
  induction n generalizing start with
  | zero =>
    rw [yearLoop, if_pos (by simpa using h)]
    simp
  | succ n ih =>
    have hnext : start + (n + 1) = start + 1 + n := by omega
    rw [hnext] at h ⊢
    rw [List.range'_succ, List.map_cons, List.sum_cons, yearLoop, if_neg (by omega)]
    rw [← ih (start + 1) h]
    congr 1
    omega

theorem yearLoop_eq {year day : Nat} (hyear : taiStartYear ≤ year) (h : day < daysInYear year) :
    yearLoop taiStartYear (daysBeforeYear year + day) = (year, day) := by
  have hback : taiStartYear + (year - taiStartYear) = year := by omega
  have hloop := yearLoop_add taiStartYear (year - taiStartYear) (by rwa [hback])
  rwa [hback] at hloop

theorem yearLoop_lt (year dayCnt : Nat) :
    (yearLoop year dayCnt).2 < daysInYear (yearLoop year dayCnt).1 := by
  fun_induction yearLoop year dayCnt with
  | case1 year dayCnt h => exact h
  | case2 year dayCnt h ih => exact ih

theorem monthLoop_add (table : List Nat) (first mon : Nat) {day : Nat} (hmon : mon < table.length)
    (hle : day ≤ table.getD mon 0) (hpos : mon = 0 ∨ 0 < day) :
    monthLoop table first ((table.take mon).sum + day) = (first + mon, day) := by
  induction table generalizing first mon with
  | nil => simp at hmon
  | cons days rest ih =>
    cases mon with
    | zero =>
      rw [monthLoop, if_neg (by simpa using hle)]
      simp
    | succ mon =>
      have hday : 0 < day := hpos.resolve_left (Nat.succ_ne_zero mon)
      rw [List.take_succ_cons, List.sum_cons, monthLoop, if_pos (by omega)]
      have hrest := ih (first + 1) mon (by simpa using hmon) (by simpa using hle) (.inr hday)
      rw [← show first + 1 + mon = first + (mon + 1) by omega, ← hrest]
      congr 1
      omega

theorem exists_month (table : List Nat) {day : Nat} (h : day < table.sum) :
    ∃ mon < table.length, ∃ rest < table.getD mon 0, day = (table.take mon).sum + rest := by
  induction table generalizing day with
  | nil => simp at h
  | cons days table ih =>
    by_cases hfirst : day < days
    · exact ⟨0, by simp, day, by simpa using hfirst, by simp⟩
    · have hday : day - days < table.sum := by
        rw [List.sum_cons] at h
        omega
      obtain ⟨mon, hmon, rest, hrest, heq⟩ := ih hday
      refine ⟨mon + 1, by simpa using hmon, rest, by simpa using hrest, ?_⟩
      rw [List.take_succ_cons, List.sum_cons]
      omega

theorem length_months (year : Nat) : (months year).length = 12 := by
  rw [months]
  split <;> rfl

theorem sum_months (year : Nat) : (months year).sum = daysInYear year := by
  rw [months, daysInYear]
  split <;> rfl

theorem monthLength_pos {year mon : Nat} (h : mon ≤ 11) : 0 < monthLength year mon := by
  rw [monthLength, months]
  split <;> interval_cases mon <;> decide

theorem daysBeforeMonth_succ {year mon : Nat} (h : mon ≤ 11) :
    daysBeforeMonth year (mon + 1) = daysBeforeMonth year mon + monthLength year mon := by
  have hlength : mon < (months year).length := by
    rw [length_months]
    omega
  rw [daysBeforeMonth, daysBeforeMonth, monthLength, List.getD_eq_getElem _ _ hlength,
    List.sum_take_succ _ _ hlength]

theorem daysBeforeMonth_lt {year mon rest : Nat} (hmon : mon ≤ 11)
    (hrest : rest < monthLength year mon) : daysBeforeMonth year mon + rest < daysInYear year := by
  have hsum : ((months year).take (mon + 1)).sum ≤ (months year).sum :=
    (List.take_sublist _ _).sum_le_sum (fun _ _ => Nat.zero_le _)
  have hsucc : daysBeforeMonth year (mon + 1) = daysBeforeMonth year mon + monthLength year mon :=
    daysBeforeMonth_succ hmon
  rw [daysBeforeMonth] at hsucc
  rw [sum_months] at hsum
  omega

/-- What `tai_to_ts` makes of a day: the first of a month is one day more in the month before. -/
theorem loops_eq {year mon rest : Nat} (hyear : taiStartYear ≤ year) (hmon : mon ≤ 11)
    (hrest : rest < monthLength year mon) :
    yearLoop taiStartYear (daysBeforeYear year + (daysBeforeMonth year mon + rest))
        = (year, daysBeforeMonth year mon + rest)
      ∧ monthLoop (months year) 0 (daysBeforeMonth year mon + rest)
        = if 0 < mon ∧ rest = 0 then (mon - 1, monthLength year (mon - 1)) else (mon, rest) := by
  refine ⟨yearLoop_eq hyear (daysBeforeMonth_lt hmon hrest), ?_⟩
  have hlength := length_months year
  split
  · next hfirst =>
    obtain ⟨hpos, rfl⟩ := hfirst
    obtain ⟨before, rfl⟩ : ∃ before, mon = before + 1 := ⟨mon - 1, by omega⟩
    have hle : monthLength year before ≤ monthLength year before := Nat.le_refl _
    have hloop := monthLoop_add (months year) 0 before (by omega) hle
      (.inr (monthLength_pos (by omega)))
    rw [daysBeforeMonth_succ (by omega), Nat.add_zero, daysBeforeMonth, hloop]
    simp
  · next hfirst =>
    have hloop := monthLoop_add (months year) 0 mon (by omega) hrest.le (by omega)
    rw [daysBeforeMonth, hloop, Nat.zero_add]

theorem exists_date (day : Nat) : ∃ year mon rest, taiStartYear ≤ year ∧ mon ≤ 11
    ∧ rest < monthLength year mon
    ∧ day = daysBeforeYear year + (daysBeforeMonth year mon + rest) := by
  have hspec := yearLoop_spec taiStartYear day
  have hlt := yearLoop_lt taiStartYear day
  set year := (yearLoop taiStartYear day).1
  rw [← sum_months] at hlt
  obtain ⟨mon, hmon, rest, hrest, heq⟩ := exists_month (months year) hlt
  rw [length_months] at hmon
  refine ⟨year, mon, rest, hspec.1, by omega, hrest, ?_⟩
  rw [daysBeforeYear, daysBeforeMonth, ← heq]
  exact hspec.2.1.symm

theorem firstOfMonth_iff {year mon rest : Nat} (hyear : taiStartYear ≤ year) (hmon : mon ≤ 11)
    (hrest : rest < monthLength year mon) :
    FirstOfMonth (daysBeforeYear year + (daysBeforeMonth year mon + rest))
      ↔ 0 < mon ∧ rest = 0 := by
  constructor
  · rintro ⟨year', mon', hyear', hpos, hmon', hday⟩
    have hloops := loops_eq hyear hmon hrest
    have hloops' := loops_eq hyear' hmon' (monthLength_pos hmon')
    rw [hday, ← Nat.add_zero (daysBeforeMonth year' mon'), hloops'.1, Prod.mk.injEq] at hloops
    obtain ⟨⟨rfl, hyday⟩, hmonth⟩ := hloops
    rw [← hyday, hloops'.2, if_pos ⟨hpos, rfl⟩] at hmonth
    by_contra hfirst
    rw [if_neg hfirst, Prod.mk.injEq] at hmonth
    obtain ⟨rfl, rfl⟩ := hmonth
    exact Nat.lt_irrefl _ hrest
  · rintro ⟨hpos, rfl⟩
    exact ⟨year, mon, hyear, hpos, hmon, rfl⟩

structure DateTime where
  year : Nat
  mon : Nat
  rest : Nat
  hour : Nat
  min : Nat
  sec : Nat
  year_ge : taiStartYear ≤ year
  mon_le : mon ≤ 11
  rest_lt : rest < monthLength year mon
  hour_le : hour ≤ 23
  min_le : min ≤ 59
  sec_le : sec ≤ 59

namespace DateTime

variable (d : DateTime)

def day : Nat := daysBeforeYear d.year + (daysBeforeMonth d.year d.mon + d.rest)

def seconds : Nat := d.day * 86400 + d.hour * 3600 + d.min * 60 + d.sec

def tm (isdst : Int) : Tm where
  sec := d.sec
  min := d.min
  hour := d.hour
  mday := d.rest + 1
  mon := d.mon
  year := (d.year : Int) - tmStartYear
  wday := ((6 + d.day) % 7 : Nat)
  yday := (daysBeforeMonth d.year d.mon + d.rest : Nat)
  isdst := isdst

def IsFirst : Prop := 0 < d.mon ∧ d.rest = 0

instance : Decidable d.IsFirst := inferInstanceAs (Decidable (_ ∧ _))

theorem validDate_tm (isdst : Int) : ValidDate (d.tm isdst) := by
  have hyear : ((d.year : Int) - tmStartYear + tmStartYear).toNat = d.year := by omega
  have hge := d.year_ge
  have hmon := d.mon_le
  have hrest := d.rest_lt
  have hhour := d.hour_le
  have hmin := d.min_le
  have hsec := d.sec_le
  constructor <;> simp only [tm, hyear, dayNumber, day, Int.toNat_natCast] <;> omega

theorem exists_of_validDate {t : Tm} (h : ValidDate t) : ∃ d : DateTime, t = d.tm t.isdst := by
  cases t with
  | mk sec min hour mday mon year wday yday isdst =>
    obtain ⟨hyear, hmon, hmday, hhour, hmin, hsec, hyday, hwday⟩ := h
    dsimp only [dayNumber] at hyear hmon hmday hhour hmin hsec hyday hwday
    refine ⟨⟨(year + tmStartYear).toNat, mon.toNat, (mday - 1).toNat, hour.toNat, min.toNat,
      sec.toNat, by omega, by omega, by omega, by omega, by omega, by omega⟩, ?_⟩
    simp only [tm, day, Tm.mk.injEq, and_true]
    omega

theorem exists_of_seconds (s : Nat) : ∃ d : DateTime, d.seconds = s := by
  obtain ⟨year, mon, rest, hyear, hmon, hrest, hday⟩ := exists_date (s / 86400)
  refine ⟨⟨year, mon, rest, s % 86400 / 3600, s % 3600 / 60, s % 60, hyear, hmon, hrest, by omega,
    by omega, by omega⟩, ?_⟩
  rw [seconds, day, ← hday]
  dsimp only
  omega

theorem secondCount_tm (isdst : Int) : secondCount (d.tm isdst) = d.seconds := by
  have hyear : ((d.year : Int) - tmStartYear + tmStartYear).toNat = d.year := by omega
  simp only [secondCount, tm, hyear, dayNumber, seconds, day, secPerDay, secPerHour, secPerMin,
    Int.toNat_natCast]
  omega

/-- What `tai_to_ts` makes of a date. -/
def read : Tm :=
  if d.IsFirst then
    { d.tm (-1) with mon := (d.mon - 1 : Nat), mday := monthLength d.year (d.mon - 1) + 1 }
  else d.tm (-1)

theorem taiToTs_eq {tai : TimeTai} (h : tai.sec = d.seconds) : taiToTs tai = d.read := by
  have hhour := d.hour_le
  have hmin := d.min_le
  have hsec := d.sec_le
  have hloops := loops_eq d.year_ge d.mon_le d.rest_lt
  have hday : tai.sec / secPerDay = d.day := by
    rw [h, seconds, secPerDay, secPerHour, secPerMin]
    omega
  have htime : tai.sec % secPerMin = d.sec ∧ tai.sec % secPerHour / secPerMin = d.min
      ∧ tai.sec % secPerDay / secPerHour = d.hour := by
    rw [h, seconds, secPerDay, secPerHour, secPerMin]
    omega
  simp only [taiToTs, hday, htime]
  rw [day, hloops.1]
  dsimp only
  rw [hloops.2, read]
  by_cases hfirst : d.IsFirst
  · have hparts : 0 < d.mon ∧ d.rest = 0 := hfirst
    rw [if_pos hfirst, if_pos hparts]
    rfl
  · have hparts : ¬ (0 < d.mon ∧ d.rest = 0) := hfirst
    rw [if_neg hfirst, if_neg hparts]
    rfl

theorem validDate_read_iff : ValidDate d.read ↔ ¬ d.IsFirst := by
  have hyear : ((d.year : Int) - tmStartYear + tmStartYear).toNat = d.year := by omega
  rw [read]
  split
  · next hfirst =>
    have hnot : ¬ ValidDate { d.tm (-1) with
        mon := (d.mon - 1 : Nat), mday := monthLength d.year (d.mon - 1) + 1 } := by
      intro hvalid
      have hmday := hvalid.mday.2
      simp only [tm, hyear, Int.toNat_natCast] at hmday
      omega
    exact iff_of_false hnot (not_not.mpr hfirst)
  · next hfirst => exact iff_of_true (d.validDate_tm (-1)) hfirst

theorem read_eq_iff : d.read = d.tm (-1) ↔ ¬ d.IsFirst := by
  rw [read]
  split
  · next hfirst =>
    have hpos : 0 < monthLength d.year (d.mon - 1) :=
      monthLength_pos ((Nat.sub_le _ _).trans d.mon_le)
    have hne : ({ d.tm (-1) with
        mon := (d.mon - 1 : Nat), mday := monthLength d.year (d.mon - 1) + 1 } : Tm)
        ≠ d.tm (-1) := by
      intro heq
      have hmday := congrArg Tm.mday heq
      simp only [tm] at hmday
      obtain ⟨-, hrest⟩ := hfirst
      omega
    exact iff_of_false hne (not_not.mpr hfirst)
  · next hfirst => exact iff_of_true rfl hfirst

theorem isFirst_iff (isdst : Int) : d.IsFirst ↔ (d.tm isdst).mday = 1 ∧ 0 < (d.tm isdst).mon := by
  simp only [IsFirst, tm]
  omega

theorem firstOfMonth_day : FirstOfMonth d.day ↔ d.IsFirst :=
  firstOfMonth_iff d.year_ge d.mon_le d.rest_lt

theorem year_le : d.year ≤ taiStartYear + d.day := by
  have hspec := yearLoop_spec taiStartYear d.day
  rw [day, (loops_eq d.year_ge d.mon_le d.rest_lt).1] at hspec
  exact hspec.2.2

theorem tsToTai_tm (isdst : Int) (hlt : d.seconds < 2 ^ 40) :
    tsToTai (d.tm isdst) = .ok (.store d.seconds 0) := by
  have hday : d.day < 2 ^ 31 := by
    rw [seconds] at hlt
    omega
  have hyear := d.year_le
  have hdays : (daysBeforeYear d.year : Int) + (((months d.year).take (d.tm isdst).mon.toNat).sum : Nat)
      + ((d.tm isdst).mday - 1) = d.day := by
    simp only [tm, day, daysBeforeMonth, Int.toNat_natCast]
    omega
  rw [tsToTai_of_days (show (d.tm isdst).year = _ from rfl) d.year_ge
    (by simp only [taiStartYear] at hyear; omega) hdays (by omega)]
  simp only [tm, seconds, secPerDay, secPerHour, secPerMin]
  congr 2

end DateTime

def DateRight (tai : TimeTai) : Prop :=
  ValidDate (taiToTs tai)
    ∧ ∃ back, tsToTai (taiToTs tai) = .ok back ∧ back.sec = tai.sec ∧ back.subsec = 0

def DateReturns (tm : Tm) : Prop :=
  ∃ tai, tsToTai tm = .ok tai ∧ taiToTs tai = { tm with isdst := -1 }

theorem store_sec_toNat {sec : Nat} (h : sec < 2 ^ 40) : (TimeTai.store sec 0).sec = sec := by
  have hsec := TimeTai.store_sec sec 0
  omega

theorem dateRight_iff (tai : TimeTai) : DateRight tai ↔ ¬ FirstOfMonth (tai.sec / secPerDay) := by
  obtain ⟨d, hd⟩ := DateTime.exists_of_seconds tai.sec
  have hday : tai.sec / secPerDay = d.day := by
    have hhour := d.hour_le
    have hmin := d.min_le
    have hsec := d.sec_le
    rw [← hd, DateTime.seconds, secPerDay, secPerHour, secPerMin]
    omega
  have hback : ∃ back, tsToTai (taiToTs tai) = .ok back ∧ back.sec = tai.sec ∧ back.subsec = 0 :=
    ⟨_, tsToTai_taiToTs tai, store_sec_toNat tai.sec_lt, rfl⟩
  rw [DateRight, hday, d.firstOfMonth_day, ← d.validDate_read_iff, d.taiToTs_eq hd.symm]
  rw [d.taiToTs_eq hd.symm] at hback
  exact and_iff_left hback

theorem dateReturns_iff {tm : Tm} (hvalid : ValidDate tm) (hcount : secondCount tm < 2 ^ 40) :
    DateReturns tm ↔ ¬ (tm.mday = 1 ∧ 0 < tm.mon) := by
  obtain ⟨d, hd⟩ := DateTime.exists_of_validDate hvalid
  rw [hd, d.secondCount_tm] at hcount
  have hlt : d.seconds < 2 ^ 40 := by omega
  rw [hd, ← d.isFirst_iff, ← d.read_eq_iff]
  have hread : taiToTs (.store d.seconds 0) = d.read := d.taiToTs_eq (store_sec_toNat hlt)
  constructor
  · rintro ⟨tai, hok, hreturn⟩
    rw [d.tsToTai_tm _ hlt] at hok
    rw [← Except.ok.inj hok, hread] at hreturn
    exact hreturn
  · intro heq
    exact ⟨_, d.tsToTai_tm _ hlt, hread.trans heq⟩

/-- The date of a second is valid, and the date of a second that a date leads to is that date,
exactly when it is not the first of a month other than January. -/
theorem calendar_iff (tai : TimeTai) (tm : Tm) (hvalid : ValidDate tm)
    (hcount : secondCount tm < 2 ^ 40) :
    (DateRight tai ↔ ¬ FirstOfMonth (tai.sec / secPerDay))
      ∧ (DateReturns tm ↔ ¬ (tm.mday = 1 ∧ 0 < tm.mon)) :=
  ⟨dateRight_iff tai, dateReturns_iff hvalid hcount⟩

/-- The second half of the 29th of February 2020. -/
theorem leapDay_calendar : DateRight (.store 636294615 0)
    ∧ DateReturns ⟨15, 30, 12, 29, 1, 120, 6, 59, 0⟩ := by
  have hvalid : ValidDate ⟨15, 30, 12, 29, 1, 120, 6, 59, 0⟩ := by
    constructor <;> decide
  have hcalendar := calendar_iff (.store 636294615 0) ⟨15, 30, 12, 29, 1, 120, 6, 59, 0⟩ hvalid
    (by decide)
  refine ⟨hcalendar.1.mpr ?_, hcalendar.2.mpr (by decide)⟩
  have hday : (TimeTai.store 636294615 0).sec / secPerDay
      = daysBeforeYear 2020 + (daysBeforeMonth 2020 1 + 28) := by
    decide
  rw [hday, firstOfMonth_iff (by decide) (by decide) (by decide)]
  omega

/-- The first of February 2000 is read as the 32nd of January. -/
theorem february_not_right : (TimeTai.store 2678400 0).sec = 2678400
    ∧ taiToTs (.store 2678400 0) = ⟨0, 0, 0, 32, 0, 100, 2, 31, -1⟩
    ∧ ¬ DateRight (.store 2678400 0) := by
  have hsec : (TimeTai.store 2678400 0).sec = 2678400 := by decide
  refine ⟨hsec, ?_, ?_⟩
  · have hread : taiToTs (.store 2678400 0) = _ := DateTime.taiToTs_eq ⟨2000, 1, 0, 0, 0, 0,
      by decide, by decide, by decide, by decide, by decide, by decide⟩ (by decide)
    rw [hread]
    decide
  · rw [dateRight_iff, not_not, hsec]
    exact ⟨2000, 1, by decide, by decide, by decide, by decide⟩

end SdkNrf.Mesh
