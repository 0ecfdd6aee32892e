import Backfill.Calendar
import Mathlib.Data.Prod.Lex
import Mathlib.Order.Monotone.Basic
import Mathlib.Tactic.IntervalCases
import Mathlib.Tactic.SplitIfs

/-!
# Days follow one another as in the calendar

The date of a day is worked out by a handful of divisions, with years that begin in March, so that
the leap day is the last one of its year.  Nothing in it looks like the calendar, whose rules are
said here on their own: how long the months are, which years are leap years, and which date comes
after which.  The divisions keep these rules: the first day is the first of January 1970, and from
one day to the next the date moves on to the next one.  There is only one way to keep them.

Dates that move on never come back, so different days have different dates, and different seconds
are different moments.

## Main definitions

* `Calendar.IsLeap`, `Calendar.monthLength` — the lengths of years and months.
* `Calendar.Date.IsProper` — the calendar has this date.
* `Calendar.Date.next` — the date of the next day.
* `Calendar.Date.ofMarch` — the date so many days after the first of March of a year.

## Main results

* `Calendar.Date.ofDays_zero`, `Calendar.Date.ofDays_add_one`, `Calendar.Date.isProper_ofDays` — **the
  dates of the days are those of the Gregorian calendar.**
* `Calendar.Date.eq_ofDays` — the rules of the calendar leave no other dates.
* `Calendar.Date.ofDays_injective` — different days have different dates.
* `Calendar.Moment.ofSeconds_injective` — **different seconds are different moments.**
-/

namespace Backfill

namespace Calendar

/-! ### The calendar -/

/-- Every fourth year is a leap year, but of every hundredth year only every fourth. -/
def IsLeap (year : Int) : Prop := year % 4 = 0 ∧ (year % 100 = 0 → year % 400 = 0)

instance (year : Int) : Decidable (IsLeap year) := inferInstanceAs (Decidable (_ ∧ _))

/-- Days of a month. -/
def monthLength (year : Int) (month : Nat) : Nat :=
  if month = 2 then (if IsLeap year then 29 else 28)
  else if month = 4 ∨ month = 6 ∨ month = 9 ∨ month = 11 then 30
  else 31

/-- The calendar has this date. -/
structure Date.IsProper (date : Date) : Prop where
  one_le_month : 1 ≤ date.month
  month_le : date.month ≤ 12
  one_le_day : 1 ≤ date.day
  day_le : date.day ≤ monthLength date.year date.month

/-- The date of the next day. -/
def Date.next (date : Date) : Date :=
  if date.day < monthLength date.year date.month then ⟨date.year, date.month, date.day + 1⟩
  else if date.month < 12 then ⟨date.year, date.month + 1, 1⟩
  else ⟨date.year + 1, 1, 1⟩

theorem monthLength_le (year : Int) (month : Nat) : monthLength year month ≤ 31 := by
  unfold monthLength
  split_ifs <;> omega

/-! ### Years that begin in March -/

/-- Days of the year that begins on the first of March. -/
def yearLength (year : Int) : Nat := if IsLeap (year + 1) then 366 else 365

/-- Days from the first of March of the year zero to that of a year. -/
def marchStart (year : Int) : Int := 365 * year + year / 4 - year / 100 + year / 400

theorem yearLength_cases (year : Int) :
    IsLeap (year + 1) ∧ yearLength year = 366 ∨ ¬IsLeap (year + 1) ∧ yearLength year = 365 := by
  by_cases hleap : IsLeap (year + 1)
  · exact .inl ⟨hleap, if_pos hleap⟩
  · exact .inr ⟨hleap, if_neg hleap⟩

theorem marchStart_add_one (year : Int) :
    marchStart (year + 1) = marchStart year + yearLength year := by
  have hlength := yearLength_cases year
  unfold IsLeap at hlength
  unfold marchStart
  omega

/-- The date so many days after the first of March of a year. -/
def Date.ofMarch (year : Int) (day : Nat) : Date :=
  let month := monthOfYear day
  { year := if month < 10 then year else year + 1
    month := if month < 10 then month + 3 else month - 9
    day := day - daysBefore month + 1 }

variable {year : Int} {day month : Nat}

theorem lt_of_lt_yearLength (h : day < yearLength year) : day < 366 := by
  obtain ⟨-, heq⟩ | ⟨-, heq⟩ := yearLength_cases year <;> omega

theorem le_yearLength (year : Int) : 365 ≤ yearLength year := by
  obtain ⟨-, heq⟩ | ⟨-, heq⟩ := yearLength_cases year <;> omega

theorem monthOfYear_eq_iff :
    monthOfYear day = month ↔ daysBefore month ≤ day ∧ day < daysBefore (month + 1) := by
  unfold monthOfYear daysBefore
  omega

theorem monthOfYear_bounds (day : Nat) :
    daysBefore (monthOfYear day) ≤ day ∧ day < daysBefore (monthOfYear day + 1) :=
  monthOfYear_eq_iff.mp rfl

theorem monthOfYear_lt (hday : day < 366) : monthOfYear day < 12 := by
  unfold monthOfYear
  omega

theorem daysBefore_add_monthLength (year : Int) (hmonth : month < 12) :
    daysBefore month + monthLength (if month < 10 then year else year + 1)
      (if month < 10 then month + 3 else month - 9) =
        min (daysBefore (month + 1)) (yearLength year) := by
  unfold yearLength
  interval_cases month <;> simp only [daysBefore, monthLength] <;> split_ifs <;> omega

/-- The month of such a date goes on after it exactly if neither the next month begins nor the year
ends. -/
theorem Date.ofMarch_day_lt_iff (hday : day < 366) :
    (ofMarch year day).day < monthLength (ofMarch year day).year (ofMarch year day).month ↔
      day + 1 < min (daysBefore (monthOfYear day + 1)) (yearLength year) := by
  obtain ⟨hle, -⟩ := monthOfYear_bounds day
  rw [← daysBefore_add_monthLength year (monthOfYear_lt hday)]
  simp only [ofMarch]
  omega

/-- In a year that begins in March, each day is followed by the next one of its month, or by the
first of the next month. -/
theorem Date.ofMarch_add_one (h : day + 1 < yearLength year) :
    ofMarch year (day + 1) = (ofMarch year day).next := by
  have hmore : day + 1 < 366 := lt_of_lt_yearLength h
  have hday : day < 366 := by omega
  obtain ⟨hle, hlt⟩ := monthOfYear_bounds day
  unfold next
  split
  case isTrue hsame =>
    rw [ofMarch_day_lt_iff hday] at hsame
    have hstay : monthOfYear (day + 1) = monthOfYear day := monthOfYear_eq_iff.mpr (by omega)
    simp only [ofMarch, hstay]
    congr 1
    omega
  case isFalse hlast =>
    rw [ofMarch_day_lt_iff hday] at hlast
    -- the month ends in front of the next one, so it is not the last of its year
    have hfirst : day + 1 = daysBefore (monthOfYear day + 1) := by omega
    have hgoes : monthOfYear (day + 1) = monthOfYear day + 1 :=
      monthOfYear_eq_iff.mpr ⟨hfirst.ge, by unfold daysBefore at *; omega⟩
    have hless := monthOfYear_lt hmore
    obtain hwithin | hdecember | hjanuary :
        monthOfYear day < 9 ∨ monthOfYear day = 9 ∨ monthOfYear day = 10 := by omega
    · have hthis : monthOfYear day < 10 := by omega
      have hthen : monthOfYear day + 1 < 10 := by omega
      have hyet : monthOfYear day + 3 < 12 := by omega
      simp only [ofMarch, hgoes, ← hfirst, Nat.sub_self, Nat.zero_add, hthis, hthen, hyet, if_true]
    · rw [hdecember] at hfirst hgoes
      simp [ofMarch, hgoes, ← hfirst, hdecember]
    · rw [hjanuary] at hfirst hgoes
      simp [ofMarch, hgoes, ← hfirst, hjanuary]

theorem Date.ofMarch_zero (h : day + 1 = yearLength year) :
    ofMarch (year + 1) 0 = (ofMarch year day).next := by
  have hwithin : day < yearLength year := by omega
  have hday := lt_of_lt_yearLength hwithin
  have hlong := le_yearLength year
  unfold next
  rw [if_neg (by rw [ofMarch_day_lt_iff hday]; omega)]
  have hlast : monthOfYear day = 11 := monthOfYear_eq_iff.mpr (by unfold daysBefore; omega)
  have hfirst : monthOfYear 0 = 0 := rfl
  simp [ofMarch, hlast, hfirst, daysBefore]

theorem Date.isProper_ofMarch (h : day < yearLength year) : (ofMarch year day).IsProper := by
  have hmonth := monthOfYear_lt (lt_of_lt_yearLength h)
  obtain ⟨hle, hlt⟩ := monthOfYear_bounds day
  have hlength := daysBefore_add_monthLength year hmonth
  refine ⟨?_, ?_, Nat.le_add_left 1 _, ?_⟩
  · simp only [ofMarch]
    split <;> omega
  · simp only [ofMarch]
    split <;> omega
  · simp only [ofMarch]
    omega

/-! ### The date of a day -/

/-- Every day lies in a year that begins in March. -/
theorem exists_marchStart_add (days : Int) :
    ∃ (year : Int) (day : Nat), day < yearLength year ∧ days = marchStart year + day := by
  induction days using Int.induction_on with
  | zero => exact ⟨0, 0, Nat.le_trans (by decide) (le_yearLength 0), rfl⟩
  | succ days ih =>
    obtain ⟨year, day, hday, heq⟩ := ih
    -- the next day is in this year, or the first one of the next
    by_cases hlast : day + 1 = yearLength year
    · have hstart := marchStart_add_one year
      have hlong := le_yearLength (year + 1)
      exact ⟨year + 1, 0, by omega, by omega⟩
    · exact ⟨year, day + 1, by omega, by omega⟩
  | pred days ih =>
    obtain ⟨year, day, hday, heq⟩ := ih
    -- the day before is in this year, or the last one of the year before
    cases day with
    | zero =>
      have hstart := marchStart_add_one (year - 1)
      rw [Int.sub_add_cancel] at hstart
      have hlong := le_yearLength (year - 1)
      exact ⟨year - 1, yearLength (year - 1) - 1, by omega, by omega⟩
    | succ day => exact ⟨year, day, by omega, by omega⟩

/-- Days of a period of four hundred years in front of a year of it. -/
def periodStart (year : Nat) : Nat := 365 * year + year / 4 - year / 100

/-- The days of a period count its hundreds of years, except that the last one, a leap day, would
begin another hundred. -/
theorem hundreds_eq {total century : Nat} (hcentury : century < 4) (hle : 36524 * century ≤ total)
    (hlt : total < 36524 * (century + 1) ∨ total = 146096 ∧ century = 3) :
    total / 36524 = century + total / 146096 := by
  obtain hless | ⟨rfl, rfl⟩ := hlt
  · have hnone : total / 146096 = 0 := Nat.div_eq_of_lt (by omega)
    rw [hnone]
    exact Nat.div_eq_of_lt_le (by omega) (by omega)
  · rfl

/-- The year of a day, if one day is taken off for every four years, `early` of them too early, and
one is given back for every hundred years. -/
theorem yearOfPeriod_eq {total century four one day early : Nat}
    (htotal : total = 36524 * century + 1461 * four + 365 * one + day)
    (hfours : total / 1460 = 25 * century + four + early)
    (hhundreds : total / 36524 = century + total / 146096) (hearly : early ≤ day)
    (hday : day < 365 + early) : yearOfPeriod total = 100 * century + 4 * four + one := by
  have hsum : total - (25 * century + four + early) + century =
      365 * (100 * century + 4 * four + one) + (day - early) := by omega
  have hrest : day - early < 365 := by omega
  rw [yearOfPeriod, hfours, hhundreds, ← Nat.add_assoc, Nat.add_sub_cancel, hsum,
    Nat.mul_add_div (by decide), Nat.div_eq_of_lt hrest, Nat.add_zero]

/-- A day of a period lies in the year that it was counted in. -/
theorem yearOfPeriod_periodStart_add {year day : Nat} (hyear : year < 400)
    (hday : day < yearLength year) : yearOfPeriod (periodStart year + day) = year := by
  obtain ⟨century, four, one, hcentury, hfour, hone, rfl⟩ : ∃ century four one,
      century < 4 ∧ four < 25 ∧ one < 4 ∧ year = 100 * century + 4 * four + one :=
    ⟨year / 100, year % 100 / 4, year % 4, by omega, by omega, by omega, by omega⟩
  have hleap : day < 365 ∨ day = 365 ∧ one = 3 ∧ (four < 24 ∨ century = 3) := by
    have hlength := yearLength_cases (100 * century + 4 * four + one : Nat)
    unfold IsLeap at hlength
    omega
  have htotal : periodStart (100 * century + 4 * four + one) + day =
      36524 * century + 1461 * four + 365 * one + day := by
    unfold periodStart
    omega
  generalize periodStart (100 * century + 4 * four + one) + day = total at htotal ⊢
  -- some days at the end of every fourth year are too early, and a leap day always is
  obtain ⟨early, hearly⟩ : ∃ early, early = (24 * century + four + 365 * one + day) / 1460 :=
    ⟨_, rfl⟩
  have hfours : total / 1460 = 25 * century + four + early := by omega
  have hhundreds : total / 36524 = century + total / 146096 :=
    hundreds_eq hcentury (by omega) (by omega)
  exact yearOfPeriod_eq htotal hfours hhundreds (by omega) (by omega)

/-- A day that is counted in a year has the date of that year. -/
theorem Date.ofDays_marchStart_add (h : day < yearLength year) :
    ofDays (marchStart year + day - epochDays) = ofMarch year day := by
  -- the algorithm counts periods of four hundred years, and years within a period
  obtain ⟨period, place, hplace, rfl⟩ :
      ∃ (period : Int) (place : Nat), place < 400 ∧ year = period * 400 + place :=
    ⟨year / 400, (year % 400).toNat, by omega, by omega⟩
  have hlength : yearLength (period * 400 + place) = yearLength place := by
    have hleap : IsLeap (period * 400 + place + 1) ↔ IsLeap (place + 1) := by
      unfold IsLeap
      omega
    simp only [yearLength, hleap]
  rw [hlength] at h
  have hend : periodStart place + day < 146097 := by
    have hcases := yearLength_cases place
    unfold IsLeap at hcases
    unfold periodStart
    omega
  have hdays : marchStart (period * 400 + place) + day - epochDays + epochDays =
      (periodStart place + day : Nat) + period * periodDays := by
    unfold marchStart periodDays periodStart
    omega
  -- division finds the period again, and the days left over are those within it
  have hperiod : Int.fdiv ((periodStart place + day : Nat) + period * periodDays) periodDays =
      period := by
    rw [Int.fdiv_eq_ediv_of_nonneg _ (by decide), periodDays]
    omega
  have hrest : Int.fmod ((periodStart place + day : Nat) + period * periodDays) periodDays =
      (periodStart place + day : Nat) := by
    rw [Int.fmod_eq_emod_of_nonneg _ (by decide), periodDays]
    omega
  have hday : dayOfYear (periodStart place + day) place = day := Nat.add_sub_cancel_left ..
  simp only [ofDays, hdays, hperiod, hrest, Int.toNat_natCast, yearOfPeriod_periodStart_add hplace h,
    hday, ofMarch]
  congr 1
  split <;> omega

/-- The first day is the first of January 1970. -/
theorem Date.ofDays_zero : ofDays 0 = ⟨1970, 1, 1⟩ := by decide

theorem Date.exists_ofMarch (days : Int) : ∃ (year : Int) (day : Nat), day < yearLength year ∧
    days = marchStart year + day - epochDays ∧ ofDays days = ofMarch year day := by
  obtain ⟨year, day, hday, heq⟩ := exists_marchStart_add (days + epochDays)
  have hdays : days = marchStart year + day - epochDays := by omega
  exact ⟨year, day, hday, hdays, hdays ▸ ofDays_marchStart_add hday⟩

/-- The date of every day is a date of the calendar. -/
theorem Date.isProper_ofDays (days : Int) : (ofDays days).IsProper := by
  obtain ⟨year, day, hday, -, hdate⟩ := exists_ofMarch days
  rw [hdate]
  exact isProper_ofMarch hday

/-- From one day to the next the date moves on to the next one. -/
theorem Date.ofDays_add_one (days : Int) : ofDays (days + 1) = (ofDays days).next := by
  obtain ⟨year, day, hday, hdays, hdate⟩ := exists_ofMarch days
  rw [hdate]
  by_cases hlast : day + 1 = yearLength year
  · have hnext : days + 1 = marchStart (year + 1) + (0 : Nat) - epochDays := by
      rw [marchStart_add_one, ← hlast]
      omega
    have hlong := le_yearLength (year + 1)
    rw [hnext, ofDays_marchStart_add (by omega), ofMarch_zero hlast]
  · have hnext : days + 1 = marchStart year + (day + 1 : Nat) - epochDays := by omega
    have hwithin : day + 1 < yearLength year := by omega
    rw [hnext, ofDays_marchStart_add hwithin, ofMarch_add_one hwithin]

/-- Different dates of the calendar have different next dates. -/
theorem Date.IsProper.eq_of_next_eq {date other : Date} (h : date.IsProper) (hother : other.IsProper)
    (hnext : date.next = other.next) : date = other := by
  obtain ⟨hmonth, hmonth', hday, hday'⟩ := h
  obtain ⟨hmonths, hmonths', hdays, hdays'⟩ := hother
  have hsame : date.year = other.year ∧ date.month = other.month := by
    unfold next at hnext
    split_ifs at hnext <;> simp only [Date.mk.injEq] at hnext <;> omega
  -- so the two dates lie in one month, and are its last day or both are not
  have hlength : monthLength date.year date.month = monthLength other.year other.month := by
    rw [hsame.1, hsame.2]
  have hlast : date.day = other.day := by
    unfold next at hnext
    split_ifs at hnext <;> simp only [Date.mk.injEq] at hnext <;> omega
  exact (Date.mk.injEq ..).mpr ⟨hsame.1, hsame.2, hlast⟩

/-- The rules of the calendar leave no other dates. -/
theorem Date.eq_ofDays {dates : Int → Date} (hfirst : dates 0 = ⟨1970, 1, 1⟩)
    (hproper : ∀ days, (dates days).IsProper)
    (hnext : ∀ days, dates (days + 1) = (dates days).next) : dates = ofDays := by
  funext days
  induction days using Int.induction_on with
  | zero => rw [hfirst, ofDays_zero]
  | succ days ih => rw [hnext, ofDays_add_one, ih]
  | pred days ih =>
    refine (hproper _).eq_of_next_eq (isProper_ofDays _) ?_
    rw [← hnext, ← ofDays_add_one, Int.sub_add_cancel, ih]

/-! ### Dates move on -/

/-- The place of a date among all dates: first the years count, then the months, then the days. -/
def Date.rank (date : Date) : Int ×ₗ Nat ×ₗ Nat := toLex (date.year, toLex (date.month, date.day))

theorem Date.rank_lt_next (date : Date) : date.rank < date.next.rank := by
  unfold next rank
  split_ifs <;> simp [Prod.Lex.toLex_lt_toLex]

/-- Different days have different dates. -/
theorem Date.ofDays_injective : Function.Injective ofDays := by
  have hmono : StrictMono fun days => (ofDays days).rank := by
    refine strictMono_int_of_lt_succ fun days => ?_
    rw [ofDays_add_one]
    exact rank_lt_next _
  intro days others h
  exact hmono.injective (congrArg rank h)

/-- **Different seconds are different moments.** -/
theorem Moment.ofSeconds_injective : Function.Injective ofSeconds := by
  intro seconds others h
  obtain ⟨hdate, hclock⟩ := (Moment.mk.injEq ..).mp h
  have hdays := Date.ofDays_injective hdate
  rw [Int.fdiv_eq_ediv_of_nonneg _ (by decide), Int.fdiv_eq_ediv_of_nonneg _ (by decide)] at hdays
  rw [Int.fmod_eq_emod_of_nonneg _ (by decide), Int.fmod_eq_emod_of_nonneg _ (by decide)] at hclock
  omega

end Calendar

end Backfill
