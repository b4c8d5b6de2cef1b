import LoanDesk.Time.Stamp
import LoanDesk.Text.Digit

/-
# Written points in time

A stamp is written as `2024-05-01T10:00:00.250000+05:30`: no fraction if it is zero,
seconds of the offset only if there are any, nothing for a missing offset. Reading
takes the forms of the international standard as well: dates without hyphens and by
week, times without colons or cut short, fractions of any length after a point or a
comma, `Z` for universal time, and any one character between date and time.

Key definitions: `Stamp.iso`, `Stamp.spaced`, `Stamp.constructed`, `Stamp.ofIso?`.
-/

namespace LoanDesk
namespace Stamp

open LoanDesk.Text

/-- The sign, hours and minutes of an offset, and what is left if it is not zero. -/
def offsetChars (o : Offset) : List Char :=
  let n := o.micros.natAbs
  (if o.micros < 0 then '-' else '+') :: padded 2 (n / 3600000000) ++
    ':' :: padded 2 (n / 60000000 % 60) ++
    (if n % 60000000 = 0 then []
     else ':' :: padded 2 (n / 1000000 % 60) ++
       (if n % 1000000 = 0 then [] else '.' :: padded 6 (n % 1000000)))

/-- The characters of a date. -/
def dateChars (d : Date) : List Char :=
  padded 4 d.year ++ '-' :: padded 2 d.month ++ '-' :: padded 2 d.day

/-- The characters of a time of day. -/
def timeChars (t : Stamp) : List Char :=
  padded 2 t.hour.val ++ ':' :: padded 2 t.minute.val ++ ':' :: padded 2 t.second.val ++
    (if t.micro.val = 0 then [] else '.' :: padded 6 t.micro.val)

/-- The characters of a stamp with `separator` between date and time. -/
def charsWith (separator : Char) (t : Stamp) : List Char :=
  dateChars t.date ++ separator :: timeChars t ++
    (match t.offset with
     | some o => offsetChars o
     | none => [])

/-- The text of a stamp. -/
def iso (t : Stamp) : String :=
  String.ofList (charsWith 'T' t)

/-- The text of a stamp with a space between date and time. -/
def spaced (t : Stamp) : String :=
  String.ofList (charsWith ' ' t)

/-- An integer in words of a constructor call. -/
def number (i : Int) : String :=
  String.ofList (intDigits i)

/-- The days, seconds and microseconds of an offset that are not zero, each with its name. -/
def durationArguments (micros : Int) : String :=
  let days := micros.fdiv dayMicros
  let rest := micros.fmod dayMicros
  let parts := [("days=", days), ("seconds=", rest / 1000000), ("microseconds=", rest % 1000000)]
  match parts.filter fun p => p.2 != 0 with
  | [] => "0"
  | parts => ", ".intercalate (parts.map fun p => p.1 ++ number p.2)

/-- The stamp as the call that makes it, the form in which messages quote it. -/
def constructed (t : Stamp) : String :=
  let front := [t.date.year, t.date.month, t.date.day, t.hour.val, t.minute.val]
  let back :=
    if t.micro.val ≠ 0 then [t.second.val, t.micro.val]
    else if t.second.val ≠ 0 then [t.second.val]
    else []
  let zone :=
    match t.offset with
    | none => []
    | some o =>
      ["tzinfo=datetime.timezone" ++
        (if o.micros = 0 then ".utc"
         else "(datetime.timedelta(" ++ durationArguments o.micros ++ "))")]
  "datetime.datetime(" ++
    ", ".intercalate ((front ++ back).map (fun n => String.ofList (natDigits n)) ++ zone) ++ ")"

/-- The number written in exactly `n` digits and the rest. -/
def take? : Nat → List Char → Option (Nat × List Char)
  | 0, cs => some (0, cs)
  | _ + 1, [] => none
  | n + 1, c :: cs => do
    let d ← asciiDigit? c
    let (m, rest) ← take? n cs
    return (d * Nat.pow 10 n + m, rest)

/-- The first character, if there is one. -/
def front (cs : List Char) : Char :=
  cs.headD '\x00'

/-- A date by year, week and, unless the text ends, day of the week. -/
def readWeekDate (year : Nat) (hyphens : Bool) (cs : List Char) : Option Date := do
  let (week, cs) ← take? 2 cs
  match cs with
  | [] => Date.ofWeek? year week 1
  | c :: rest =>
    let cs ← if hyphens then (if c = '-' then some rest else none) else some cs
    let (day, cs) ← take? 1 cs
    if cs.isEmpty then Date.ofWeek? year week day else none

/-- A date that fills the text. -/
def readDate (cs : List Char) : Option Date := do
  let (year, cs) ← take? 4 cs
  let hyphens := front cs == '-'
  let cs := if hyphens then cs.tail else cs
  if front cs = 'W' then readWeekDate year hyphens cs.tail
  else
    let (month, cs) ← take? 2 cs
    let cs ← if hyphens then (if front cs = '-' then some cs.tail else none) else some cs
    let (day, cs) ← take? 2 cs
    if cs.isEmpty then Date.make? year month day else none

/-- The fraction of a second that `cs` holds, of which six digits count; `follow` is what stands
behind it. Also says whether nothing is left after the digits. -/
def readMicros (follow cs : List Char) : Option (Nat × Bool) := do
  let n := min 6 cs.length
  let (m, rest) ← take? n cs
  let rest := (rest ++ follow).dropWhile fun c => (asciiDigit? c).isSome
  return (m * Nat.pow 10 (6 - n), rest.isEmpty)

/-- What a text of hours, minutes, seconds and fraction says, and whether it ended with a part
and nothing stood behind it. -/
structure Reading where
  parts : List Nat
  micro : Nat
  ended : Bool
deriving Repr

/-- Reads `left` more parts of two digits and then a fraction. The first part settles whether
colons separate them; a text may break off behind a part or behind one plain character after it. -/
def readParts (follow : List Char) : Nat → Option Bool → List Char → Option Reading
  | 0, _, cs => do
    let (m, ended) ← readMicros follow cs
    return ⟨[], m, ended⟩
  | left + 1, colons, cs => do
    let (n, rest) ← take? 2 cs
    match rest with
    | [] => return ⟨[n], 0, follow.isEmpty⟩
    | [c] => if c.toNat < 128 then return ⟨[n], 0, false⟩ else none
    | c :: tail =>
      let colons := colons.getD (c == ':')
      if colons && c == ':' then
        let r ← readParts follow left (some colons) tail
        return { r with parts := n :: r.parts }
      else if c == '.' || c == ',' then
        let (m, ended) ← readMicros follow tail
        return ⟨[n], m, ended⟩
      else if colons then none
      else
        let r ← readParts follow left (some colons) rest
        return { r with parts := n :: r.parts }

/-- Hours, minutes and seconds from the parts that were read; missing ones are zero. -/
def Reading.clock (r : Reading) : Nat × Nat × Nat :=
  (r.parts.getD 0 0, r.parts.getD 1 0, r.parts.getD 2 0)

/-- The character starts an offset. -/
def startsOffset (c : Char) : Bool :=
  c == '+' || c == '-' || c == 'Z'

/-- An offset: `Z` alone, or a sign and a time. One of whole zero seconds is universal time. -/
def readOffset (cs : List Char) : Option Offset := do
  match cs with
  | [] => none
  | 'Z' :: rest => if rest.isEmpty then return Offset.zero else none
  | mark :: rest =>
    let r ← readParts [] 3 none rest
    if !r.ended then none
    let (h, m, s) := r.clock
    let seconds := (h * 60 + m) * 60 + s
    if seconds = 0 then return Offset.zero
    let micros : Int := seconds * 1000000 + r.micro
    Offset.make? (if mark = '-' then -micros else micros)

/-- A time of day with or without an offset, on a date. -/
def readTime (date : Date) (cs : List Char) : Option Stamp := do
  let clock := cs.takeWhile fun c => !startsOffset c
  let zone := cs.dropWhile fun c => !startsOffset c
  let r ← readParts zone 3 none clock
  let (h, m, s) := r.clock
  if zone.isEmpty then
    if r.ended then make? date h m s r.micro none else none
  else
    let o ← readOffset zone
    make? date h m s r.micro (some o)

/-- The character at a place; the character after the end of every text otherwise. -/
def charAt (cs : List Char) (i : Nat) : Char :=
  cs.getD i '\x00'

/-- The length of the date at the start of a text, as far as its fifth and sixth characters and,
for weeks, the characters after them tell. A digit after week and hyphen is taken for an hour. -/
def dateLength (cs : List Char) : Nat :=
  let isDigitAt (i : Nat) : Bool := (asciiDigit? (charAt cs i)).isSome
  if cs.length = 7 then 7
  else if charAt cs 4 = '-' then
    if charAt cs 5 = 'W' then
      if charAt cs 8 = '-' then if isDigitAt 10 then 8 else 10
      else 8
    else 10
  else if charAt cs 4 = 'W' then
    let digits := ((cs.drop 7).takeWhile fun c => (asciiDigit? c).isSome).length
    if digits < 2 then 7 + digits
    else if digits % 2 = 1 then 7
    else 8
  else 8

/-- The stamp that the characters stand for. A date alone is the start of the day. -/
def read (cs : List Char) : Option Stamp := do
  let n := dateLength cs
  let date ← readDate (cs.take n)
  match cs.drop n with
  | [] => return midnight date none
  | _ :: time => readTime date time

/-- The stamp that a text stands for. -/
def ofIso? (s : String) : Option Stamp :=
  read s.toList

end Stamp
end LoanDesk
