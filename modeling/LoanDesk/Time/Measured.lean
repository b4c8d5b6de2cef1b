import LoanDesk.Binary64
import LoanDesk.Time.Stamp

/-
# Time as a machine measures it

A machine counts the seconds since the epoch in one binary number, which has less room
for fractions the farther the epoch is: near it every microsecond has a number of its
own, and some thousand years away sixteen share one. Taking the number for a stamp
again gives the microsecond nearest to it. A stamp without an offset can be measured
only if there is a day before it in the calendar, since the same wall clock may have
shown the same time before.

Key definitions: `Stamp.measured?`, `Stamp.ofMeasured?`, `Stamp.remeasured?`.
-/

namespace LoanDesk
namespace Stamp

/-- The stamp says which instant it means, or there is a day before it. -/
def isMeasurable (t : Stamp) : Bool :=
  t.offset.isSome || Date.first.dayNumber < t.date.dayNumber

/-- The seconds since the epoch, as the nearest binary number. -/
def measured? (t : Stamp) : Option Binary64 :=
  if t.isMeasurable then
    some (Binary64.nearest (t.epochMicros < 0) t.epochMicros.natAbs 1000000)
  else none

/-- The microseconds in a fraction of a second `n / d`: a binary product first, and then the whole
number nearest to it. -/
def microsOf (n d : Nat) : Nat :=
  match Binary64.nearest false (n * 1000000) d with
  | .finite _ m e => Binary64.roundDiv (m * Nat.pow 2 e.toNat) (Nat.pow 2 (-e).toNat)
  | _ => 0

/-- The microseconds since the epoch that a finite number of seconds stands for. -/
def measuredMicros (negative : Bool) (m : Nat) (e : Int) : Int :=
  let n := m * Nat.pow 2 e.toNat
  let d := Nat.pow 2 (-e).toNat
  let micros : Int := (n / d * 1000000 + microsOf (n % d) d : Nat)
  if negative then -micros else micros

/-- The stamp in universal time that a number of seconds since the epoch stands for, if it lies in
the calendar. -/
def ofMeasured? : Binary64 → Option Stamp
  | .finite negative m e =>
    ofWall? (epoch.instant + measuredMicros negative m e) (some Offset.zero)
  | _ => none

/-- The stamp in universal time after it has been measured. -/
def remeasured? (t : Stamp) : Option Stamp :=
  t.measured?.bind ofMeasured?

end Stamp
end LoanDesk
