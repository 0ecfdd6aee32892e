import Backfill.Proofs.CalendarDays
import Backfill.Proofs.IntegerText

/-!
# Moments written with digits

A moment is written as its date and its time of day, with an underscore in between and nothing
between the numbers of a date.  All numbers but the year fill a fixed width, so they can be taken
off from the end; what is left is the year, which has no fixed width and may have a sign.  The sign
is there exactly for the years that do not fit into four digits, so it cannot be confused with the
digits of another year.

## Main definitions

* `Calendar.Date.text`, `Calendar.Moment.clockText` — the two parts of a moment that is written with
  digits.
* `Calendar.Moment.IsNarrow` — every number of a moment but the year fits into two digits.

## Main results

* `Calendar.yearText_injective` — different years are written differently.
* `Calendar.Moment.eq_of_texts_eq` — **different moments differ in what is written of their dates or
  of their times of day.**
* `Calendar.Moment.isNarrow_ofSeconds` — the moments of all seconds fit.
-/

namespace Backfill

namespace Calendar

open Text

/-! ### Years -/

/-- There is nothing but digits and signs in a year. -/
theorem not_mem_yearText {c : Char} (hdigit : c.isDigit = false) (hminus : c ≠ '-')
    (hplus : c ≠ '+') (year : Int) : c ∉ (yearText year).toList := by
  intro hmem
  unfold yearText at hmem
  split at hmem
  · exact not_mem_writePadded hdigit _ _ hmem
  · rw [String.toList_append, List.mem_append] at hmem
    obtain hsign | hnumber := hmem
    · split at hsign
      · exact hminus (List.mem_singleton.mp hsign)
      · exact hplus (List.mem_singleton.mp hsign)
    · exact not_mem_writePadded hdigit _ _ hnumber

/-- The sign of a year that does not fit into four digits. -/
def sign (year : Int) : Char := if year < 0 then '-' else '+'

theorem toList_yearText {year : Int} (h : ¬(0 ≤ year ∧ year ≤ 9999)) :
    (yearText year).toList = sign year :: (writePadded 4 year.natAbs).toList := by
  rw [yearText, if_neg h, sign, String.toList_append]
  split <;> rfl

theorem sign_eq_minus {year : Int} : sign year = '-' ↔ year < 0 := by
  unfold sign
  split <;> simp [*]

theorem isDigit_sign (year : Int) : (sign year).isDigit = false := by
  unfold sign
  split <;> rfl

theorem sign_not_mem_yearText {year : Int} (h : 0 ≤ year ∧ year ≤ 9999) (other : Int) :
    sign other ∉ (yearText year).toList := by
  rw [yearText, if_pos h]
  exact not_mem_writePadded (isDigit_sign other) 4 _

/-- Different years are written differently. -/
theorem yearText_injective : Function.Injective yearText := by
  intro year other h
  -- a year of four digits has no sign, and all others have one, so the two forms never meet
  by_cases hfits : 0 ≤ year ∧ year ≤ 9999 <;> by_cases hother : 0 ≤ other ∧ other ≤ 9999
  · rw [yearText, yearText, if_pos hfits, if_pos hother] at h
    have hsame := writePadded_injective 4 h
    omega
  · have hnone := sign_not_mem_yearText hfits other
    rw [h, toList_yearText hother] at hnone
    exact absurd List.mem_cons_self hnone
  · have hnone := sign_not_mem_yearText hother year
    rw [← h, toList_yearText hfits] at hnone
    exact absurd List.mem_cons_self hnone
  · have hchars := congrArg String.toList h
    rw [toList_yearText hfits, toList_yearText hother] at hchars
    obtain ⟨hsign, hdigits⟩ := List.cons.inj hchars
    have hsame := writePadded_injective 4 (String.toList_inj.mp hdigits)
    have hside : year < 0 ↔ other < 0 := by rw [← sign_eq_minus, hsign, sign_eq_minus]
    omega

/-! ### Dates and times of day -/

/-- A date that is written with digits. -/
def Date.text (date : Date) : String :=
  yearText date.year ++ writePadded 2 date.month ++ writePadded 2 date.day

/-- A time of day that is written with digits. -/
def Moment.clockText (moment : Moment) : String :=
  writePadded 2 moment.hour ++ writePadded 2 moment.minute ++ writePadded 2 moment.second

theorem Moment.compact_eq (moment : Moment) :
    moment.compact = moment.date.text ++ ("_" ++ moment.clockText) := by
  simp only [compact, Date.text, clockText, String.append_assoc]

/-- Every number of a moment but the year fits into two digits.  A leap second, the sixty-first second
of its minute, would fit as well. -/
structure Moment.IsNarrow (moment : Moment) : Prop where
  month : moment.date.month < 100
  day : moment.date.day < 100
  hour : moment.hour < 100
  minute : moment.minute < 100
  second : moment.second < 100

/-- The moments of all seconds fit. -/
theorem Moment.isNarrow_ofSeconds (seconds : Int) : (ofSeconds seconds).IsNarrow := by
  have hproper : (ofSeconds seconds).date.IsProper := Date.isProper_ofDays _
  have hmonth := hproper.month_le
  have hday := Nat.le_trans hproper.day_le (monthLength_le _ _)
  obtain ⟨hhour, hminute, hsecond⟩ := clock_lt seconds
  exact ⟨by omega, by omega, by omega, by omega, by omega⟩

theorem append_two_inj {front other : String} {n m : Nat} (hn : n < 100) (hm : m < 100)
    (h : front ++ writePadded 2 n = other ++ writePadded 2 m) : front = other ∧ n = m := by
  have htwo {k : Nat} (hk : k < 100) : (Nat.toDigits 10 k).length ≤ 2 :=
    (Nat.length_toDigits_le_iff (by decide) (by decide)).mpr hk
  exact append_writePadded_inj (htwo hn) (htwo hm) h

/-- **Different moments differ in what is written of their dates or of their times of day.** -/
theorem Moment.eq_of_texts_eq {moment other : Moment} (h : moment.IsNarrow)
    (hother : other.IsNarrow) (hdate : moment.date.text = other.date.text)
    (hclock : moment.clockText = other.clockText) : moment = other := by
  obtain ⟨hyearMonth, hday⟩ := append_two_inj h.day hother.day hdate
  obtain ⟨hyear, hmonth⟩ := append_two_inj h.month hother.month hyearMonth
  obtain ⟨hhourMinute, hsecond⟩ := append_two_inj h.second hother.second hclock
  obtain ⟨hhour, hminute⟩ := append_two_inj h.minute hother.minute hhourMinute
  have hsame : moment.date = other.date :=
    (Date.mk.injEq ..).mpr ⟨yearText_injective hyear, hmonth, hday⟩
  exact (Moment.mk.injEq ..).mpr ⟨hsame, writePadded_injective 2 hhour, hminute, hsecond⟩

/-! ### Characters -/

theorem Date.not_mem_text {c : Char} (hdigit : c.isDigit = false) (hminus : c ≠ '-')
    (hplus : c ≠ '+') (date : Date) : c ∉ date.text.toList := by
  simp only [text, String.toList_append, List.mem_append, not_or]
  exact ⟨⟨not_mem_yearText hdigit hminus hplus _, not_mem_writePadded hdigit _ _⟩,
    not_mem_writePadded hdigit _ _⟩

theorem Moment.not_mem_clockText {c : Char} (hdigit : c.isDigit = false) (moment : Moment) :
    c ∉ moment.clockText.toList := by
  simp only [clockText, String.toList_append, List.mem_append, not_or]
  exact ⟨⟨not_mem_writePadded hdigit _ _, not_mem_writePadded hdigit _ _⟩,
    not_mem_writePadded hdigit _ _⟩

end Calendar

end Backfill
