import LoanDesk.Json.Printer
import LoanDesk.Journal.Level
import LoanDesk.Refusal
import LoanDesk.Time.Measured

/-
# Entries of the journal

An entry says what happened, who did it, to what, and a correlation id joins it to
others. It is written as one JSON object on one line: what is null is left out, and an
entry without an id of its own takes the one in force. Its time is the one that a
machine has measured; where that lies outside the calendar nothing is written, and
nothing is either where an integer has too many digits to be written. Both pass
unnoticed. Lists and records too deep within each other do not: they are a fault of the
call that was to write them.

Key definitions: `Journal.Entry`, `Journal.Entry.correlation`, `Journal.Entry.body`,
`Journal.Entry.record`, `Journal.Entry.line`, `Journal.Entry.lineAt`.
-/

namespace LoanDesk
namespace Journal

/-- What entries say about themselves, besides their message. -/
structure Marks where
  user : Value := .null
  action : Value := .null
  resource : Value := .null
  correlation : Value := .null
  extra : Value := .null
deriving Repr, Inhabited

/-- An entry. -/
structure Entry where
  level : String
  logger : String
  message : Value
  marks : Marks := {}
  /-- The failure that is told along with the message. -/
  failure : Option String := none
deriving Repr

/-- The service that the journal belongs to. -/
def service : String := "loan_simulator"

/-- The value, unless it counts as false. -/
def substantial (v : Value) : Value :=
  if v.truthy then v else .null

/-- The marks without those that are empty. -/
def Marks.substantial (m : Marks) : Marks :=
  { user := Journal.substantial m.user, action := Journal.substantial m.action,
    resource := Journal.substantial m.resource,
    correlation := Journal.substantial m.correlation, extra := Journal.substantial m.extra }

/-- The value is null. -/
def isNull : Value → Bool
  | .null => true
  | _ => false

/-- The fields that are not null. -/
def present (fs : Fields) : Fields :=
  fs.filter fun f => !isNull f.2

namespace Entry

/-- The correlation id of an entry: its own, or the one in force. -/
def correlation (e : Entry) (inForce : Value) : Value :=
  if e.marks.correlation.truthy then e.marks.correlation else inForce

/-- The fields of an entry except its time and its failure. -/
def body (e : Entry) (inForce : Value) : Fields :=
  present [
    ("level", .text e.level),
    ("service", .text service),
    ("logger", .text e.logger),
    ("message", e.message),
    ("correlation_id", e.correlation inForce),
    ("user_id", e.marks.user),
    ("action", e.marks.action),
    ("resource", e.marks.resource),
    ("extra", e.marks.extra)]

/-- The fields for a failure. -/
def failureFields (e : Entry) : Fields :=
  match e.failure with
  | some s => [("exception", .text s)]
  | none => []

/-- The record of an entry with its time. -/
def record (e : Entry) (time : Stamp) (inForce : Value) : Fields :=
  ("timestamp", .text time.iso) :: (e.body inForce ++ e.failureFields)

/-- The line of an entry with its time (`JSONFormatter.format`). -/
def line (e : Entry) (time : Stamp) (inForce : Value) : String :=
  Json.print .wide (.record (e.record time inForce))

/-- The line of an entry made at a time of the clock, with room for values whose lists and records
lie `room` deep within each other. There is none where the time cannot be dated or an integer cannot
be written. -/
def lineAt (e : Entry) (room : Nat) (clock : Stamp) (inForce : Value) :
    Except Fault (Option String) :=
  match clock.remeasured? with
  | none => .ok none
  | some time =>
    match Json.obstacle? (room + 1) (.record (e.record time inForce)) with
    | none => .ok (some (e.line time inForce))
    | some .tooLong => .ok none
    | some .tooDeep => .error .tooDeep

end Entry

/-- The text of a failure of a kind. -/
def failureText (kind message : String) : String :=
  if message = "" then kind else kind ++ ": " ++ message

end Journal
end LoanDesk
