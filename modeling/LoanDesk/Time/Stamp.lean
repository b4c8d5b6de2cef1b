import LoanDesk.Time.Date

/-
# Points in time

A stamp is a date and a time of day to the microsecond, with or without an offset
from universal time. Two stamps with offsets compare by the instant they mean, two
without by what they show; one of each kind does not compare.

Key definitions: `Offset`, `Stamp`, `Stamp.wall`, `Stamp.instant`, `Stamp.plus?`,
`Stamp.order?`, `Stamp.epochMicros`.
-/

namespace LoanDesk

/-- A distance from universal time in microseconds, less than a day. -/
structure Offset where
  micros : Int
  withinDay : micros.natAbs < 86400000000
deriving DecidableEq, Repr

namespace Offset

/-- Universal time. -/
def zero : Offset := ⟨0, by decide⟩

/-- The offset of so many microseconds, if it is less than a day. -/
def make? (micros : Int) : Option Offset :=
  if h : micros.natAbs < 86400000000 then some ⟨micros, h⟩ else none

end Offset

/-- A date and a time of day. -/
structure Stamp where
  date : Date
  hour : Fin 24
  minute : Fin 60
  second : Fin 60
  micro : Fin 1000000
  offset : Option Offset
deriving DecidableEq, Repr

namespace Stamp

/-- The stamp of these numbers, if each is in its range. -/
def make? (date : Date) (hour minute second micro : Nat) (offset : Option Offset) :
    Option Stamp :=
  if h : hour < 24 ∧ minute < 60 ∧ second < 60 ∧ micro < 1000000 then
    some ⟨date, ⟨hour, h.1⟩, ⟨minute, h.2.1⟩, ⟨second, h.2.2.1⟩, ⟨micro, h.2.2.2⟩, offset⟩
  else none

/-- The start of a day. -/
def midnight (date : Date) (offset : Option Offset) : Stamp :=
  ⟨date, 0, 0, 0, 0, offset⟩

/-- The start of the years counted by machines, 1 January 1970 in universal time. -/
def epoch : Stamp :=
  midnight ⟨1970, 1, 1, by decide⟩ (some Offset.zero)

instance : Inhabited Stamp := ⟨epoch⟩

/-- The microseconds of a day. -/
def dayMicros : Int := 86400000000

/-- The microseconds of the time of day. -/
def timeOfDay (t : Stamp) : Int :=
  ((t.hour.val * 60 + t.minute.val) * 60 + t.second.val) * 1000000 + t.micro.val

/-- The microseconds that the clock on the wall shows, counted through the calendar. -/
def wall (t : Stamp) : Int :=
  t.date.dayNumber * dayMicros + t.timeOfDay

/-- The microseconds of the instant in universal time; without an offset, of what is shown. -/
def instant (t : Stamp) : Int :=
  match t.offset with
  | some o => t.wall - o.micros
  | none => t.wall

/-- The stamp that shows these microseconds on the wall. -/
def ofWall? (micros : Int) (offset : Option Offset) : Option Stamp := do
  let date ← Date.ofDayNumber? (micros.fdiv dayMicros)
  let rest := (micros.fmod dayMicros).toNat
  make? date (rest / 3600000000) (rest / 60000000 % 60) (rest / 1000000 % 60) (rest % 1000000)
    offset

/-- The stamp so many microseconds later, unless it leaves the calendar. -/
def plus? (t : Stamp) (micros : Int) : Option Stamp :=
  ofWall? (t.wall + micros) t.offset

/-- The microseconds since the epoch; a stamp without an offset is taken as universal time. -/
def epochMicros (t : Stamp) : Int :=
  t.instant - epoch.instant

/-- The whole seconds since the epoch, a fraction dropped. -/
def epochSeconds (t : Stamp) : Int :=
  t.epochMicros.fdiv 1000000

/-- How two stamps compare, if both or neither have an offset. -/
def order? (a b : Stamp) : Option Ordering :=
  if a.offset.isSome = b.offset.isSome then some (compare a.instant b.instant) else none

/-- The two stamps mean the same time. -/
def same (a b : Stamp) : Bool :=
  a.order? b == some .eq

/-- The same instant in universal time, if it lies in the calendar. -/
def universal? (t : Stamp) : Option Stamp :=
  ofWall? t.instant (some Offset.zero)

end Stamp
end LoanDesk
