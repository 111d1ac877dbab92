import Mathlib.Algebra.Order.Ring.Int
import NodeWeave.Moment

/-!
# The calendar

An instant becomes a date by division, and a date becomes an instant by a formula for
the leap years before it.  What both have to agree with is the calendar as it is counted,
year by year and month by month: `elapsed` is the time since the start of year 1 in this
sense, and `instant_eq_elapsed` says that the formula gives the same.

For every instant of the years 1 to 9999 there is a valid date (`valid_ofInstant`), whose
instant it is (`instant_ofInstant`).  Dates and times are ordered as their parts are, the
year first (`millisecond_lt`): no part can make up for one that stands before it, since
a month ends before the next one starts and a year ends with its last month.
-/

namespace NodeWeave.Moment

variable {m u v : Moment} {year month days : Int}

/-! ## Years -/

/-- The days of a year. -/
def yearLength (year : Int) : Int :=
  if isLeap year then 366 else 365

/-- The days of the first years, counted from year 1 on. -/
def daysOfYears : Nat → Int
  | 0 => 0
  | n + 1 => daysOfYears n + yearLength (n + 1)

theorem isLeap_iff (year : Int) :
    isLeap year = true ↔ year % 4 = 0 ∧ (year % 100 ≠ 0 ∨ year % 400 = 0) := by
  simp [isLeap]

/-- The formula goes up by the days of a year. -/
theorem daysBeforeYear_succ (year : Int) :
    daysBeforeYear (year + 1) = daysBeforeYear year + yearLength year := by
  simp only [daysBeforeYear, yearLength, isLeap_iff]
  split <;> omega

/-- **The formula counts the days of the years before.** -/
theorem daysBeforeYear_eq (hyear : 1 ≤ year) : daysBeforeYear year = daysOfYears (year - 1).toNat := by
  have hcount (n : Nat) : daysBeforeYear (n + 1) = daysOfYears n := by
    induction n with
    | zero => rfl
    | succ n ih =>
        rw [daysOfYears, ← ih, Int.natCast_succ, daysBeforeYear_succ]
  have hindex : year = ((year - 1).toNat : Int) + 1 := by omega
  rw [hindex, hcount]
  simp

theorem daysBeforeYear_mono {year' : Int} (hle : year ≤ year') :
    daysBeforeYear year ≤ daysBeforeYear year' := by
  simp only [daysBeforeYear]
  omega

/-- **The year of a day** is the one that starts before it and ends behind it. -/
theorem yearOfDay_spec (days : Int) :
    daysBeforeYear (yearOfDay days) ≤ days ∧ days < daysBeforeYear (yearOfDay days + 1) := by
  -- 400 years have 146097 days, and no year starts a whole day later or two days earlier than
  -- it would if all years were equally long
  simp only [yearOfDay]
  split
  · rename_i hnext
    refine ⟨hnext, ?_⟩
    simp only [daysBeforeYear]
    omega
  · rename_i hnext
    split
    · rename_i hlate
      simp only [daysBeforeYear] at hlate
      omega
    · omega

/-! ## Months -/

theorem sum_take_succ (lengths : List Int) (i : Nat) :
    (lengths.take (i + 1)).sum = (lengths.take i).sum + lengths.getD i 0 := by
  induction lengths generalizing i with
  | nil => simp
  | cons length rest ih =>
      cases i with
      | zero => simp
      | succ i => simp [ih, Int.add_assoc]

theorem daysBeforeMonth_eq_sum (year month : Int) :
    daysBeforeMonth year month = ((monthLengths year).take (month - 1).toNat).sum := by
  rw [daysBeforeMonth, List.sum_eq_foldl]

/-- The days before a month go up by the days of a month. -/
theorem daysBeforeMonth_succ (year : Int) (hmonth : 1 ≤ month) :
    daysBeforeMonth year (month + 1) = daysBeforeMonth year month + daysInMonth year month := by
  have hindex : (month + 1 - 1).toNat = (month - 1).toNat + 1 := by omega
  rw [daysBeforeMonth_eq_sum, daysBeforeMonth_eq_sum, hindex, sum_take_succ, daysInMonth]

/-- A year ends with its twelfth month. -/
theorem daysBeforeMonth_thirteen (year : Int) : daysBeforeMonth year 13 = yearLength year := by
  simp only [daysBeforeMonth, monthLengths, yearLength]
  split <;> rfl

theorem daysInMonth_bounds (year month : Int) :
    0 ≤ daysInMonth year month ∧ daysInMonth year month ≤ 31 := by
  have hlengths : ∀ length ∈ monthLengths year, 0 ≤ length ∧ length ≤ 31 := by
    simp only [monthLengths]
    split <;> decide
  rw [daysInMonth, List.getD_eq_getElem?_getD]
  cases hlength : (monthLengths year)[(month - 1).toNat]? with
  | none => decide
  | some length => exact hlengths length (List.mem_of_getElem? hlength)

theorem daysBeforeMonth_mono (year : Int) {month' : Int} (hmonth : 1 ≤ month)
    (hle : month ≤ month') : daysBeforeMonth year month ≤ daysBeforeMonth year month' := by
  obtain ⟨k, rfl⟩ : ∃ k : Nat, month' = month + k := ⟨(month' - month).toNat, by omega⟩
  clear hle
  induction k with
  | zero => simp
  | succ k ih =>
      have hnext := daysBeforeMonth_succ year (show 1 ≤ month + k by omega)
      have hlength := (daysInMonth_bounds year (month + k)).1
      rw [show month + ((k + 1 : Nat) : Int) = month + k + 1 by omega, hnext]
      omega

/-- The search for a month ends at the one in which the day lies. -/
theorem monthOfDay_spec (lengths : List Int) (first day : Int) (hlow : 0 ≤ day)
    (hhigh : day < lengths.sum) :
    ∃ i, i < lengths.length ∧
      monthOfDay first day lengths = (first + i, day - (lengths.take i).sum + 1) ∧
      (lengths.take i).sum ≤ day ∧ day < (lengths.take i).sum + lengths.getD i 0 := by
  induction lengths generalizing first day with
  | nil =>
      rw [List.sum_nil] at hhigh
      omega
  | cons length rest ih =>
      unfold monthOfDay
      split
      · rename_i hday
        exact ⟨0, by simp, by simp, by simpa using hlow, by simpa using hday⟩
      · rename_i hday
        rw [List.sum_cons] at hhigh
        obtain ⟨i, hi, hfound, hbegins, hends⟩ := ih (first + 1) (day - length) (by omega) (by omega)
        refine ⟨i + 1, by simpa using hi, ?_, ?_, ?_⟩
        · rw [hfound, List.take_succ_cons, List.sum_cons, Prod.mk.injEq]
          omega
        · rw [List.take_succ_cons, List.sum_cons]
          omega
        · rw [List.take_succ_cons, List.sum_cons, List.getD_cons_succ]
          omega

/-! ## Dates -/

/-- The parts of the moment are within their bounds. -/
structure Valid (m : Moment) : Prop where
  year : 1 ≤ m.year ∧ m.year ≤ 9999
  month : 1 ≤ m.month ∧ m.month ≤ 12
  day : 1 ≤ m.day ∧ m.day ≤ daysInMonth m.year m.month
  hour : 0 ≤ m.hour ∧ m.hour ≤ 23
  minute : 0 ≤ m.minute ∧ m.minute ≤ 59
  second : 0 ≤ m.second ∧ m.second ≤ 59
  microsecond : 0 ≤ m.microsecond ∧ m.microsecond ≤ 999999

theorem guard_eq_none {α : Type} {p : Prop} [Decidable p] {a : α} {rest : Option α} :
    (if p then some a else rest) = none ↔ ¬ p ∧ rest = none := by
  split <;> simp [*]

/-- A moment passes the check when its parts are within their bounds. -/
theorem check_eq_none : m.check = none ↔ m.Valid := by
  simp only [check, guard_eq_none, Bool.or_eq_true, decide_eq_true_eq, not_or, Int.not_lt, and_true]
  constructor
  · rintro ⟨hyear, hmonth, hday, hhour, hminute, hsecond, hmicrosecond⟩
    exact ⟨hyear, hmonth, hday, hhour, hminute, hsecond, hmicrosecond⟩
  · rintro ⟨hyear, hmonth, hday, hhour, hminute, hsecond, hmicrosecond⟩
    exact ⟨hyear, hmonth, hday, hhour, hminute, hsecond, hmicrosecond⟩

/-- The days from the start of year 1 to the day of the moment. -/
def dayNumber (m : Moment) : Int :=
  daysBeforeYear m.year + daysBeforeMonth m.year m.month + (m.day - 1)

/-- The microseconds of the day before the moment. -/
def timeOfDay (m : Moment) : Int :=
  (m.hour * 60 + m.minute) * minuteSpan + m.second * 1000000 + m.microsecond

theorem instant_eq (m : Moment) :
    m.instant = m.dayNumber * daySpan + m.timeOfDay - m.offset.getD 0 := by
  simp only [instant, dayNumber, timeOfDay]
  omega

/-- **The instant of a moment as the calendar counts it**, in microseconds: the days of the
years, of the months and of the month before its day, and then its time of day.  An offset
is how far the clock is ahead of universal time. -/
def elapsed (m : Moment) : Int :=
  let days := daysOfYears (m.year - 1).toNat + daysBeforeMonth m.year m.month + (m.day - 1)
  (((days * 24 + m.hour) * 60 + m.minute) * 60 + m.second) * 1000000 + m.microsecond -
    m.offset.getD 0

/-- **The formula agrees with the calendar.** -/
theorem instant_eq_elapsed (hyear : 1 ≤ m.year) : m.instant = m.elapsed := by
  simp only [instant, elapsed, daysBeforeYear_eq hyear, daySpan, minuteSpan]
  omega

/-- A day lies in its month. -/
theorem Valid.day_in_month (hm : m.Valid) :
    daysBeforeMonth m.year m.month + (m.day - 1) < daysBeforeMonth m.year (m.month + 1) := by
  have hday := hm.day
  rw [daysBeforeMonth_succ m.year hm.month.1]
  omega

/-- A day lies in its year. -/
theorem Valid.day_in_year (hm : m.Valid) :
    daysBeforeYear m.year ≤ m.dayNumber ∧ m.dayNumber < daysBeforeYear (m.year + 1) := by
  have hday := hm.day
  have hmonth := hm.month
  have hfirst : daysBeforeMonth m.year 1 = 0 := rfl
  have hlow := daysBeforeMonth_mono m.year (Int.le_refl 1) hmonth.1
  have hinside := hm.day_in_month
  have hlast : daysBeforeMonth m.year (m.month + 1) ≤ daysBeforeMonth m.year 13 :=
    daysBeforeMonth_mono m.year (by omega) (by omega)
  rw [daysBeforeMonth_thirteen] at hlast
  rw [daysBeforeYear_succ, dayNumber]
  omega

theorem Valid.timeOfDay_bounds (hm : m.Valid) : 0 ≤ m.timeOfDay ∧ m.timeOfDay < daySpan := by
  obtain ⟨_, _, _, hhour, hminute, hsecond, hmicrosecond⟩ := hm
  simp only [timeOfDay, minuteSpan, daySpan]
  omega

/-! ## The date of an instant -/

/-- The month and the day of a day lie in the year of that day. -/
theorem monthOfDay_yearOfDay (days : Int) :
    ∃ month day : Int, monthOfDay 1 (days - daysBeforeYear (yearOfDay days))
        (monthLengths (yearOfDay days)) = (month, day) ∧
      (1 ≤ month ∧ month ≤ 12) ∧ (1 ≤ day ∧ day ≤ daysInMonth (yearOfDay days) month) ∧
      daysBeforeYear (yearOfDay days) + daysBeforeMonth (yearOfDay days) month + (day - 1) = days := by
  obtain ⟨hbegins, hends⟩ := yearOfDay_spec days
  rw [daysBeforeYear_succ] at hends
  generalize yearOfDay days = year at hbegins hends
  have hsum : (monthLengths year).sum = yearLength year := by
    rw [← daysBeforeMonth_thirteen, daysBeforeMonth_eq_sum]
    rfl
  obtain ⟨i, hi, hfound, hlow, hhigh⟩ :=
    monthOfDay_spec (monthLengths year) 1 (days - daysBeforeYear year) (by omega) (by omega)
  have hindex : ((1 : Int) + i - 1).toNat = i := by omega
  have hlength : (monthLengths year).length = 12 := rfl
  refine ⟨_, _, hfound, by omega, ?_, ?_⟩
  · rw [daysInMonth, hindex]
    omega
  · rw [daysBeforeMonth_eq_sum, hindex]
    omega

/-- **An instant is the instant of its date.** -/
theorem instant_ofInstant (t : Int) : (ofInstant t).instant = t := by
  obtain ⟨month, day, hfound, _, _, hdays⟩ := monthOfDay_yearOfDay (t / daySpan)
  simp only [instant, ofInstant, hfound, Option.getD_none]
  rw [hdays]
  simp only [daySpan, minuteSpan]
  omega

/-- **The date of an instant is valid** in the years 1 to 9999. -/
theorem valid_ofInstant {t : Int} (hlow : 0 ≤ t) (hhigh : t < daysBeforeYear 10000 * daySpan) :
    (ofInstant t).Valid := by
  obtain ⟨month, day, hfound, hmonth, hday, _⟩ := monthOfDay_yearOfDay (t / daySpan)
  obtain ⟨hbegins, hends⟩ := yearOfDay_spec (t / daySpan)
  have hdays : 0 ≤ t / daySpan ∧ t / daySpan < daysBeforeYear 10000 := by
    simp only [daySpan] at hhigh ⊢
    omega
  have hfirst : 1 ≤ yearOfDay (t / daySpan) := by
    refine Int.not_lt.mp fun hearly => ?_
    have hmono := daysBeforeYear_mono (show yearOfDay (t / daySpan) + 1 ≤ 1 by omega)
    rw [show daysBeforeYear 1 = 0 from rfl] at hmono
    omega
  have hlast : yearOfDay (t / daySpan) ≤ 9999 := by
    refine Int.not_lt.mp fun hlate => ?_
    have hmono := daysBeforeYear_mono (show 10000 ≤ yearOfDay (t / daySpan) by omega)
    omega
  simp only [ofInstant, hfound]
  refine ⟨⟨hfirst, hlast⟩, hmonth, hday, ?_, ?_, ?_, ?_⟩ <;> simp only [daySpan] <;> omega

/-! ## The order of dates -/

/-- The parts of a moment, to the millisecond. -/
def parts (m : Moment) : List Int :=
  [m.year, m.month, m.day, m.hour, m.minute, m.second, m.microsecond / 1000]

/-- A date comes before another one when its first part that differs is smaller. -/
theorem Valid.dayNumber_lt (hu : u.Valid) (hv : v.Valid)
    (hlt : [u.year, u.month, u.day] < [v.year, v.month, v.day]) : u.dayNumber < v.dayNumber := by
  simp only [List.cons_lt_cons_iff, List.not_lt_nil, and_false, or_false] at hlt
  rcases hlt with hyear | ⟨hyear, hmonth | ⟨hmonth, hday⟩⟩
  · have hends := hu.day_in_year.2
    have hbegins := hv.day_in_year.1
    have hmono := daysBeforeYear_mono (show u.year + 1 ≤ v.year by omega)
    omega
  · have hinside := hu.day_in_month
    have hday := hv.day
    have hpositive := hu.month.1
    have hmono := daysBeforeMonth_mono u.year (show 1 ≤ u.month + 1 by omega)
      (show u.month + 1 ≤ v.month by omega)
    rw [dayNumber, dayNumber, ← hyear]
    omega
  · rw [dayNumber, dayNumber, ← hyear, ← hmonth]
    omega

/-- A time of day comes before another one when its first part that differs is smaller. -/
theorem Valid.timeOfDay_lt (hu : u.Valid) (hv : v.Valid)
    (hlt : [u.hour, u.minute, u.second, u.microsecond / 1000] <
      [v.hour, v.minute, v.second, v.microsecond / 1000]) :
    u.timeOfDay / 1000 < v.timeOfDay / 1000 := by
  obtain ⟨_, _, _, _, huminute, husecond, humicrosecond⟩ := hu
  obtain ⟨_, _, _, _, hvminute, hvsecond, hvmicrosecond⟩ := hv
  simp only [List.cons_lt_cons_iff, List.not_lt_nil, and_false, or_false] at hlt
  simp only [timeOfDay, minuteSpan]
  omega

/-- **Moments are ordered as their parts are**, to the millisecond. -/
theorem millisecond_lt (hu : u.Valid) (hv : v.Valid) (huo : u.offset = none) (hvo : v.offset = none)
    (hlt : u.parts < v.parts) : u.instant / 1000 < v.instant / 1000 := by
  have hutime := hu.timeOfDay_bounds
  have hvtime := hv.timeOfDay_bounds
  simp only [instant_eq, huo, hvo, Option.getD_none, daySpan] at hutime hvtime ⊢
  have hday : u.dayNumber < v.dayNumber ∨
      u.dayNumber = v.dayNumber ∧ u.timeOfDay / 1000 < v.timeOfDay / 1000 := by
    simp only [parts, List.cons_lt_cons_iff] at hlt
    rcases hlt with hyear | ⟨hyear, hmonth | ⟨hmonth, hday | ⟨hday, htime⟩⟩⟩
    · exact Or.inl (hu.dayNumber_lt hv (by simp [List.cons_lt_cons_iff, hyear]))
    · exact Or.inl (hu.dayNumber_lt hv (by simp [List.cons_lt_cons_iff, hyear, hmonth]))
    · exact Or.inl (hu.dayNumber_lt hv (by simp [List.cons_lt_cons_iff, hyear, hmonth, hday]))
    · refine Or.inr ⟨by rw [dayNumber, dayNumber, hyear, hmonth, hday], hu.timeOfDay_lt hv ?_⟩
      simp only [List.cons_lt_cons_iff]
      exact htime
  omega

end NodeWeave.Moment
