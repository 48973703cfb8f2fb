/-! # Instants

  The time at which a product was created: a date of the proleptic Gregorian
  calendar and a time of day, both in UTC, down to the nanosecond. A leap
  second is second 60 of its minute and stays what it is.

  Clocks elsewhere differ from UTC by less than a day, so `Instant.ofLocal?`
  takes the offset away within the day and moves the date by one at most.
-/

namespace ProductSegments

/-! ### Dates -/

/-- A year of the Gregorian calendar with 366 days. Year 0 is a leap year. -/
def isLeapYear (year : Int) : Bool := year % 4 == 0 && (year % 100 != 0 || year % 400 == 0)

/-- The number of days of a month. -/
def daysInMonth (year : Int) (month : Nat) : Nat :=
  if month = 2 then (if isLeapYear year then 29 else 28)
  else if month = 4 ∨ month = 6 ∨ month = 9 ∨ month = 11 then 30
  else 31

/-- The least year that an instant can have. -/
def minYear : Int := -262143

/-- The greatest year that an instant can have. -/
def maxYear : Int := 262142

/-- The numbers name a day of the calendar. -/
def IsDate (year : Int) (month day : Nat) : Prop :=
  minYear ≤ year ∧ year ≤ maxYear ∧ 1 ≤ month ∧ month ≤ 12 ∧ 1 ≤ day ∧ day ≤ daysInMonth year month

instance (year : Int) (month day : Nat) : Decidable (IsDate year month day) :=
  inferInstanceAs (Decidable (_ ∧ _))

/-- A day of the calendar. -/
structure Date where
  /-- The year; year 0 is the one before year 1. -/
  year : Int
  /-- The month, from 1 to 12. -/
  month : Nat
  /-- The day of the month, from 1. -/
  day : Nat
  /-- The calendar has the day. -/
  isDate : IsDate year month day
deriving DecidableEq

namespace Date

/-- The day with the given numbers, if the calendar has it. -/
def ofNumbers? (year : Int) (month day : Nat) : Option Date :=
  if h : IsDate year month day then some ⟨year, month, day, h⟩ else none

/-- The day after, unless the calendar ends. -/
def next? (d : Date) : Option Date :=
  if d.day < daysInMonth d.year d.month then ofNumbers? d.year d.month (d.day + 1)
  else if d.month < 12 then ofNumbers? d.year (d.month + 1) 1
  else ofNumbers? (d.year + 1) 1 1

/-- The day before, unless the calendar starts. -/
def previous? (d : Date) : Option Date :=
  if 1 < d.day then ofNumbers? d.year d.month (d.day - 1)
  else if 1 < d.month then ofNumbers? d.year (d.month - 1) (daysInMonth d.year (d.month - 1))
  else ofNumbers? (d.year - 1) 12 31

end Date

/-! ### Instants -/

/-- The number of minutes of a day. -/
def minutesPerDay : Nat := 1440

/-- A point in time, in UTC. -/
structure Instant where
  /-- The day. -/
  date : Date
  /-- The minute of the day. -/
  minute : Fin minutesPerDay
  /-- The second of the minute; 60 is a leap second. -/
  second : Fin 61
  /-- The nanosecond of the second. -/
  nanosecond : Fin 1000000000
deriving DecidableEq

namespace Instant

/-- The instant at which a clock that is `offset` minutes ahead of UTC shows
    the given date and time, if it lies within the calendar. -/
def ofLocal? (date : Date) (minute : Fin minutesPerDay) (second : Fin 61)
    (nanosecond : Fin 1000000000) (offset : Int) : Option Instant := do
  let shifted : Int := minute.val - offset
  let date ←
    if shifted < 0 then date.previous?
    else if minutesPerDay ≤ shifted then date.next?
    else some date
  let minute : Fin minutesPerDay :=
    ⟨(shifted % minutesPerDay).toNat, by unfold minutesPerDay; omega⟩
  return { date, minute, second, nanosecond }

end Instant

end ProductSegments
