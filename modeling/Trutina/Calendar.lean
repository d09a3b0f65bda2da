/-
This file is a small library about the Gregorian calendar. A date is a valid
year, month and day. Its ordinal counts the days up to it, one for each, so the
order of dates is the order of their ordinals. An instant is a number of
microseconds since the start of 1970, and lies on the date whose midnight was the
last one up to it.
-/

import Mathlib

namespace Gregorian

/-! ### Lengths -/

def isLeap (year : Nat) : Bool := year % 4 == 0 && (year % 100 != 0 || year % 400 == 0)

def daysInMonth (year : Nat) : Nat → Nat
  | 2 => if isLeap year then 29 else 28
  | 4 | 6 | 9 | 11 => 30
  | _ => 31

def daysInYear (year : Nat) : Nat := if isLeap year then 366 else 365

/-- The days of the first months of a year. -/
def daysThroughMonth (year : Nat) : Nat → Nat
  | 0 => 0
  | month + 1 => daysThroughMonth year month + daysInMonth year (month + 1)

/-- The days of the years up to one. -/
def daysThroughYear (year : Nat) : Nat := 365 * year + year / 4 - year / 100 + year / 400

theorem daysInMonth_bounds (year month : Nat) :
    28 ≤ daysInMonth year month ∧ daysInMonth year month ≤ 31 := by
  unfold daysInMonth
  split
  · split <;> omega
  all_goals omega

theorem daysThroughMonth_mono (year : Nat) {first second : Nat} (le : first ≤ second) :
    daysThroughMonth year first ≤ daysThroughMonth year second := by
  induction le with
  | refl => exact le_rfl
  | step _ inductionHypothesis => exact inductionHypothesis.trans (Nat.le_add_right _ _)

/-- The months of a year make up the year. -/
theorem daysThroughMonth_twelve (year : Nat) : daysThroughMonth year 12 = daysInYear year := by
  simp only [daysThroughMonth, daysInMonth, daysInYear]
  split <;> rfl

theorem isLeap_iff (year : Nat) : isLeap year = true ↔ 4 ∣ year ∧ (¬100 ∣ year ∨ 400 ∣ year) := by
  simp [isLeap, Nat.dvd_iff_mod_eq_zero]

theorem daysThroughYear_succ (year : Nat) :
    daysThroughYear (year + 1) = daysThroughYear year + daysInYear (year + 1) := by
  have centuries : 100 ∣ year + 1 → 4 ∣ year + 1 := (Dvd.intro 25 rfl : 4 ∣ 100).trans
  have cycles : 400 ∣ year + 1 → 100 ∣ year + 1 := (Dvd.intro 4 rfl : 100 ∣ 400).trans
  have fewer : year / 100 ≤ year / 4 := Nat.div_le_div_left (by decide) (by decide)
  unfold daysThroughYear daysInYear
  simp only [isLeap_iff, Nat.succ_div]
  split_ifs <;> omega

theorem daysThroughYear_mono {first second : Nat} (le : first ≤ second) :
    daysThroughYear first ≤ daysThroughYear second := by
  induction le with
  | refl => exact le_rfl
  | step _ inductionHypothesis =>
    rw [daysThroughYear_succ]
    exact inductionHypothesis.trans (Nat.le_add_right _ _)

/-! ### Dates -/

/-- A date of the calendar. -/
structure Date where
  year : Nat
  month : Nat
  day : Nat
  year_pos : 1 ≤ year
  month_bounds : 1 ≤ month ∧ month ≤ 12
  day_bounds : 1 ≤ day ∧ day ≤ daysInMonth year month

namespace Date

variable {first second date : Date}

theorem ext_fields (year : first.year = second.year) (month : first.month = second.month)
    (day : first.day = second.day) : first = second := by
  obtain ⟨firstYear, firstMonth, firstDay, _, _, _⟩ := first
  obtain ⟨secondYear, secondMonth, secondDay, _, _, _⟩ := second
  simp only at year month day
  subst year month day
  rfl

/-- The date with these parts, if there is one. -/
def ofParts? (year month day : Nat) : Option Date :=
  if valid : 1 ≤ year ∧ (1 ≤ month ∧ month ≤ 12) ∧ 1 ≤ day ∧ day ≤ daysInMonth year month then
    some ⟨year, month, day, valid.1, valid.2.1, valid.2.2⟩
  else none

theorem ofParts?_self (date : Date) : ofParts? date.year date.month date.day = some date :=
  dif_pos ⟨date.year_pos, date.month_bounds, date.day_bounds⟩

/-- Dates are ordered by year, month and day. -/
def Before (first second : Date) : Prop :=
  first.year < second.year ∨ (first.year = second.year ∧
    (first.month < second.month ∨ (first.month = second.month ∧ first.day < second.day)))

instance (first second : Date) : Decidable (first.Before second) :=
  inferInstanceAs (Decidable (_ ∨ _))

theorem before_or_eq_or_after (first second : Date) :
    first.Before second ∨ first = second ∨ second.Before first := by
  unfold Before
  by_cases same : first.year = second.year ∧ first.month = second.month ∧ first.day = second.day
  · exact .inr (.inl (ext_fields same.1 same.2.1 same.2.2))
  · omega

/-- The day of the year. -/
def dayOfYear (date : Date) : Nat := daysThroughMonth date.year (date.month - 1) + date.day

/-- The number of days up to and including a date. -/
def ordinal (date : Date) : Nat := daysThroughYear (date.year - 1) + date.dayOfYear

theorem dayOfYear_le (date : Date) :
    date.dayOfYear ≤ daysThroughMonth date.year date.month := by
  obtain ⟨month, equal⟩ : ∃ month, date.month = month + 1 :=
    ⟨date.month - 1, by have := date.month_bounds.1; omega⟩
  have day := date.day_bounds.2
  unfold dayOfYear
  rw [equal] at day ⊢
  simp only [Nat.add_sub_cancel, daysThroughMonth]
  omega

theorem dayOfYear_bounds (date : Date) :
    1 ≤ date.dayOfYear ∧ date.dayOfYear ≤ daysInYear date.year := by
  refine ⟨le_add_of_nonneg_of_le (Nat.zero_le _) date.day_bounds.1, ?_⟩
  rw [← daysThroughMonth_twelve]
  exact date.dayOfYear_le.trans (daysThroughMonth_mono _ date.month_bounds.2)

/-- Earlier dates have smaller ordinals. -/
theorem ordinal_lt_of_before (before : first.Before second) : first.ordinal < second.ordinal := by
  unfold ordinal
  rcases before with years | ⟨sameYear, months | ⟨sameMonth, days⟩⟩
  · obtain ⟨year, equal⟩ : ∃ year, first.year = year + 1 :=
      ⟨first.year - 1, by have := first.year_pos; omega⟩
    have through : daysThroughYear (first.year - 1) + daysInYear first.year ≤
        daysThroughYear (second.year - 1) := by
      rw [equal, Nat.add_sub_cancel, ← daysThroughYear_succ]
      exact daysThroughYear_mono (by omega)
    have firstBounds := first.dayOfYear_bounds
    have secondBounds := second.dayOfYear_bounds
    omega
  · have through := daysThroughMonth_mono second.year (show first.month ≤ second.month - 1 by omega)
    have day := first.dayOfYear_le
    rw [sameYear] at day ⊢
    have pos := second.day_bounds.1
    refine Nat.add_lt_add_left (lt_of_le_of_lt (day.trans through) ?_) _
    unfold dayOfYear
    omega
  · unfold dayOfYear
    rw [sameYear, sameMonth]
    omega

/-- Every date is followed by another. -/
theorem exists_next (date : Date) : ∃ next : Date, next.ordinal = date.ordinal + 1 := by
  obtain ⟨year, month, day, yearPos, monthBounds, dayBounds⟩ := date
  obtain ⟨month, rfl⟩ : ∃ previous, month = previous + 1 :=
    ⟨month - 1, by omega⟩
  by_cases last : day = daysInMonth year (month + 1)
  · by_cases december : month + 1 = 12
    · refine ⟨⟨year + 1, 1, 1, by omega, by omega,
        ⟨le_rfl, (Nat.le_of_ble_eq_true rfl).trans (daysInMonth_bounds _ _).1⟩⟩, ?_⟩
      obtain ⟨year, rfl⟩ : ∃ previous, year = previous + 1 := ⟨year - 1, by omega⟩
      have through := daysThroughMonth_twelve (year + 1)
      rw [← december] at through
      have succ := daysThroughYear_succ year
      simp only [ordinal, dayOfYear, daysThroughMonth, Nat.add_sub_cancel, Nat.sub_self] at *
      omega
    · refine ⟨⟨year, month + 2, 1, yearPos, by omega,
        ⟨le_rfl, (Nat.le_of_ble_eq_true rfl).trans (daysInMonth_bounds _ _).1⟩⟩, ?_⟩
      simp only [ordinal, dayOfYear, Nat.add_sub_cancel,
        show month + 2 - 1 = month + 1 from rfl, daysThroughMonth]
      omega
  · refine ⟨⟨year, month + 1, day + 1, yearPos, monthBounds, by omega⟩, ?_⟩
    simp only [ordinal, dayOfYear]
    omega

/-- Every positive number is the ordinal of a date. -/
theorem exists_of_ordinal {number : Nat} (positive : 1 ≤ number) :
    ∃ date : Date, date.ordinal = number := by
  induction number, positive using Nat.le_induction with
  | base => exact ⟨⟨1, 1, 1, le_rfl, by decide, by decide⟩, rfl⟩
  | succ number _ inductionHypothesis =>
    obtain ⟨date, rfl⟩ := inductionHypothesis
    exact date.exists_next

/-! ### Instants -/

def microsecondsPerDay : Int := 86400000000

/-- The ordinal of the first of January 1970. -/
def epochOrdinal : Int := 719163

example : (ofParts? 1970 1 1).map ordinal = some 719163 := by decide

/-- The instant a date starts at, in microseconds since the start of 1970. -/
def midnight (date : Date) : Int := (date.ordinal - epochOrdinal) * microsecondsPerDay

/-- An instant lies on a date. -/
def Contains (date : Date) (instant : Int) : Prop :=
  date.midnight ≤ instant ∧ instant < date.midnight + microsecondsPerDay

instance (date : Date) (instant : Int) : Decidable (date.Contains instant) :=
  inferInstanceAs (Decidable (_ ∧ _))

/-- An earlier date is over when a later one starts. -/
theorem midnight_of_before (before : first.Before second) :
    first.midnight + microsecondsPerDay ≤ second.midnight := by
  have days := ordinal_lt_of_before before
  unfold midnight microsecondsPerDay
  omega

/-- From the first year on every instant lies on a date. -/
theorem exists_contains {instant : Int}
    (late : (1 - epochOrdinal) * microsecondsPerDay ≤ instant) :
    ∃ date : Date, date.Contains instant := by
  unfold microsecondsPerDay at late
  obtain ⟨date, counted⟩ : ∃ date : Date,
      (date.ordinal : Int) = instant / microsecondsPerDay + epochOrdinal := by
    obtain ⟨date, counted⟩ := exists_of_ordinal
      (show 1 ≤ (instant / microsecondsPerDay + epochOrdinal).toNat by
        unfold microsecondsPerDay
        omega)
    refine ⟨date, ?_⟩
    rw [counted]
    unfold microsecondsPerDay
    omega
  refine ⟨date, ?_⟩
  unfold Contains midnight
  rw [counted]
  unfold microsecondsPerDay
  omega

/-- What lies up to the start of a date lies on an earlier date, or is that start. -/
theorem le_midnight_iff {instant : Int} (own : date.Contains instant) :
    instant ≤ second.midnight ↔
      date.Before second ∨ (date = second ∧ instant = second.midnight) := by
  obtain ⟨started, unfinished⟩ := own
  constructor
  · intro upTo
    rcases before_or_eq_or_after date second with before | rfl | after
    · exact .inl before
    · exact .inr ⟨rfl, le_antisymm upTo started⟩
    · have ended := midnight_of_before after
      unfold microsecondsPerDay at ended
      omega
  · rintro (before | ⟨_, start⟩)
    · have ended := midnight_of_before before
      omega
    · exact start.le

/-- An instant lies on a date or before it. -/
def UpTo (date : Date) (instant : Int) : Prop := instant < date.midnight + microsecondsPerDay

instance (date : Date) (instant : Int) : Decidable (date.UpTo instant) :=
  inferInstanceAs (Decidable (_ < _))

theorem upTo_iff {instant : Int} (own : date.Contains instant) :
    second.UpTo instant ↔ date.Before second ∨ date = second := by
  obtain ⟨started, unfinished⟩ := own
  constructor
  · intro upTo
    rcases before_or_eq_or_after date second with before | same | after
    · exact .inl before
    · exact .inr same
    · exact absurd (upTo.trans_le (midnight_of_before after)) (not_lt.mpr started)
  · rintro (before | rfl)
    · have ended := midnight_of_before before
      unfold UpTo microsecondsPerDay at *
      omega
    · exact unfinished

/-- The start of a date stands for all of it where it is the only instant of the date. -/
theorem le_midnight_iff_upTo {instant : Int} :
    (instant ≤ date.midnight ↔ date.UpTo instant) ↔
      (date.Contains instant → instant = date.midnight) := by
  unfold UpTo Contains microsecondsPerDay
  omega

/-! ### Text -/

/-- The digits of a number, as many as asked for. -/
def digits : Nat → Nat → List Char
  | 0, _ => []
  | count + 1, number => digits count (number / 10) ++ [Char.ofNat (48 + number % 10)]

/-- A date as `YYYY-MM-DD`. -/
def isoFormat (date : Date) : String :=
  String.ofList (['-'].intercalate [digits 4 date.year, digits 2 date.month, digits 2 date.day])

end Date

end Gregorian
