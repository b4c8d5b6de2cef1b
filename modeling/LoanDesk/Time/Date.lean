/-
# Dates

A date of the Gregorian calendar between the years 1 and 9999. Days are counted
from 31 December of the year before the first, so that 1 January of year 1 is day
1; weeks start on Monday, and the first week of a year holds its first Thursday.

Key definitions: `Date`, `Date.make?`, `Date.dayNumber`, `Date.ofDayNumber?`,
`Date.ofWeek?`.
-/

namespace LoanDesk

/-- A year has a 29 February. -/
def isLeapYear (y : Nat) : Bool :=
  y % 4 == 0 && (y % 100 != 0 || y % 400 == 0)

/-- The days of a month. -/
def daysInMonth (y m : Nat) : Nat :=
  if m = 2 then if isLeapYear y then 29 else 28
  else if m = 4 ∨ m = 6 ∨ m = 9 ∨ m = 11 then 30
  else 31

/-- The three numbers name a day of the calendar. -/
def isDate (y m d : Nat) : Bool :=
  1 ≤ y && y ≤ 9999 && 1 ≤ m && m ≤ 12 && 1 ≤ d && d ≤ daysInMonth y m

/-- A day of the calendar. -/
structure Date where
  year : Nat
  month : Nat
  day : Nat
  inCalendar : isDate year month day = true
deriving DecidableEq, Repr

namespace Date

/-- The day of these three numbers, if the calendar has it. -/
def make? (y m d : Nat) : Option Date :=
  if h : isDate y m d = true then some ⟨y, m, d, h⟩ else none

/-- The first day of the calendar. -/
def first : Date := ⟨1, 1, 1, by decide⟩

/-- The days before 1 January of a year. -/
def daysBeforeYear (y : Nat) : Nat :=
  (y - 1) * 365 + (y - 1) / 4 - (y - 1) / 100 + (y - 1) / 400

/-- The days of a year before the first of a month. -/
def daysBeforeMonth (y : Nat) : Nat → Nat
  | 0 => 0
  | m + 1 => if m = 0 then 0 else daysBeforeMonth y m + daysInMonth y m

/-- The place of a day in the calendar, counted from 1. -/
def dayNumber (d : Date) : Nat :=
  daysBeforeYear d.year + daysBeforeMonth d.year d.month + d.day

/-- The month that holds the day `n` of a year, at least `m`, and the day in it. -/
def monthAndDay (y : Nat) : Nat → Nat → Nat → Nat × Nat
  | 0, m, n => (m, n)
  | tries + 1, m, n =>
    if n ≤ daysInMonth y m then (m, n) else monthAndDay y tries (m + 1) (n - daysInMonth y m)

/-- The year, at least `y`, that holds the day `n` of the calendar. -/
def yearFrom : Nat → Nat → Nat → Nat
  | 0, y, _ => y
  | tries + 1, y, n => if n ≤ daysBeforeYear (y + 1) then y else yearFrom tries (y + 1) n

/-- The day at a place of the calendar. The years up to it have 365 days each and some more,
so the search for the year starts not far below. -/
def ofDayNumber? (n : Int) : Option Date :=
  if n < 1 ∨ 3652059 < n then none
  else
    let n := n.toNat
    let y := yearFrom 40 ((n - 1) / 366 + 1) n
    let (m, d) := monthAndDay y 12 1 (n - daysBeforeYear y)
    make? y m d

/-- The day on which the first week of a year starts. -/
def firstMonday (y : Nat) : Int :=
  let first : Int := daysBeforeYear y + 1
  let w := (first + 6) % 7
  let monday := first - w
  if 3 < w then monday + 7 else monday

/-- A year has a week 53: it starts on a Thursday, or on a Wednesday and is a leap year. -/
def hasLongWeekCount (y : Nat) : Bool :=
  let w := (daysBeforeYear y + 7) % 7
  w == 3 || (w == 2 && isLeapYear y)

/-- The day of a year, week and day of the week, Monday being one. -/
def ofWeek? (y week day : Nat) : Option Date :=
  if y < 1 ∨ 9999 < y ∨ week < 1 ∨ 53 < week ∨ (week = 53 ∧ !hasLongWeekCount y)
      ∨ day < 1 ∨ 7 < day then none
  else ofDayNumber? (firstMonday y + (week - 1) * 7 + (day - 1))

end Date
end LoanDesk
