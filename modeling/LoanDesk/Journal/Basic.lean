import LoanDesk.Journal.Entry
import LoanDesk.Value.Template

/-
# The journal

The journal belongs to a family of loggers, those whose names continue its own behind a
point and the one of that name, and has a threshold and the trail of the open
correlation ids, innermost first. An entry is kept if its level reaches the threshold,
and it belongs to the innermost id unless it names its own. Leaving an id brings the
one around it back. Loggers outside the family have a threshold that they inherit, and
none of their entries is kept, though an entry that cannot be made is a fault for them
as well. The journal has room for lists and records so deep within each other in the
values of an entry (`Journal.Entry.lineAt`): calls and nesting share one limit, and `room`
is what the calls that are open leave of it.

Key definitions: `Journal`, `Journal.inForce`, `Journal.enter`, `Journal.leave`,
`Journal.setLevel`, `Journal.owns`, `Journal.reaches`, `Journal.note`, `Journal.write`.
-/

namespace LoanDesk

/-- The state of a journal. -/
structure Journal where
  family : String := "loan_simulator"
  threshold : Nat := 20
  trail : List Value := []
  room : Nat := 960
deriving Repr

namespace Journal

/-- The innermost correlation id (`get_correlation_id`). -/
def inForce (j : Journal) : Value :=
  j.trail.headD .null

/-- The journal within a correlation id, as at the start of a `correlation_context`. -/
def enter (j : Journal) (id : Value) : Journal :=
  { j with trail := id :: j.trail }

/-- The journal after the innermost correlation id, as at the end of a `correlation_context`. -/
def leave (j : Journal) : Journal :=
  { j with trail := j.trail.tail }

/-- The journal with the threshold of a level (`setup_logging`). -/
def setLevel (j : Journal) (name : Value) : Except Fault Journal := do
  return { j with threshold := ← (← Level.named name).threshold }

/-- The logger belongs to the journal's family. -/
def owns (j : Journal) (logger : String) : Bool :=
  logger == j.family || (j.family ++ ".").toList.isPrefixOf logger.toList

/-- The threshold for the entries of a logger. -/
def thresholdOf (j : Journal) (logger : String) : Nat :=
  if j.owns logger && j.threshold != 0 then j.threshold else Level.inherited

/-- An entry of a weight reaches the threshold of its logger. -/
def reaches (j : Journal) (logger : String) (weight : Int) : Bool :=
  decide ((j.thresholdOf logger : Int) ≤ weight)

/-- The entry, if the journal keeps those of its logger. -/
def kept (j : Journal) (e : Entry) : Option Entry :=
  if j.owns e.logger then some e else none

/-- Entries can be made at a time that can be measured. -/
def checkClock (clock : Stamp) : Except Fault Unit :=
  if clock.isMeasurable then .ok () else .error .noMeaning

/-- The names of the marks. -/
def Marks.names : List String := ["user_id", "action", "resource", "correlation_id", "extra"]

/-- The marks among named values. -/
def Marks.among (fs : Fields) : Marks :=
  { user := Fields.get fs "user_id", action := Fields.get fs "action"
    resource := Fields.get fs "resource", correlation := Fields.get fs "correlation_id"
    extra := Fields.get fs "extra" }

/-- The marks that named values give, none of which has another name. -/
def Marks.ofFields (fs : Fields) : Except Fault Marks :=
  if fs.all fun f => Marks.names.contains f.1 then .ok (.among fs) else .error .wrongKind

/-- Notes an action at a level (`log_action`): the entry with its marks, without the empty ones, if
the journal keeps it. -/
def note (j : Journal) (clock : Stamp) (logger : String) (level message : Value)
    (marks : Marks) : Except Fault (Option Entry) := do
  let weight ← (← Level.named level).weight
  if j.reaches logger weight then
    checkClock clock
    return j.kept { level := Level.label weight, logger, message := .ofSigns message.signs,
                    marks := marks.substantial }
  else return none

/-- The names that belong to every entry and cannot be given to it. -/
def ownNames : List String := [
  "message", "asctime", "name", "msg", "args", "levelname", "levelno", "pathname", "filename",
  "module", "exc_info", "exc_text", "stack_info", "lineno", "funcName", "created", "msecs",
  "relativeCreated", "thread", "threadName", "processName", "process"]

/-- The weight of an entry, which must be an integer. -/
def weightOf : Value → Except Fault Int
  | .int i => .ok i
  | .bool b => .ok (if b then 1 else 0)
  | _ => .error .wrongKind

/-- The attributes, none of which may belong to every entry. -/
def checkAttributes (attributes : Fields) : Except Fault Unit :=
  if attributes.any fun f => ownNames.contains f.1 then .error .missingField else .ok ()

/-- Writes a message with values in its places and attributes of any name, of which the marks are
taken. A message that its values do not fit is not written. -/
def write (j : Journal) (clock : Stamp) (logger : String) (weight template : Value)
    (values : List Value) (attributes : Fields) (failure : Option String) :
    Except Fault (Option Entry) := do
  let weight ← weightOf weight
  if j.reaches logger weight then
    checkClock clock
    checkAttributes attributes
    return (Template.filled? template.signs values).bind fun message =>
      j.kept { level := Level.label weight, logger, message, marks := .among attributes, failure }
  else return none

end Journal
end LoanDesk
