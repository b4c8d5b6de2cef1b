import LoanDesk.Refusal

/-
# Levels of the journal

Every entry has a level, a weight that says how much it matters, and the journal keeps
the entries that weigh enough. Levels are asked for by name, in letters of any size.

Key definitions: `Journal.Level`, `Journal.Level.named`, `Journal.Level.weight`,
`Journal.Level.threshold`, `Journal.Level.label`.
-/

namespace LoanDesk
namespace Journal

/-- What a name for a level stands for. Two names belong to other things that the journal has: the
pattern of its plain lines and the table of pattern styles. -/
inductive Level where
  | weighing (n : Nat)
  | pattern
  | styles
deriving DecidableEq, Repr

namespace Level

/-- The levels by their names. -/
def table : List (String × Level) := [
  ("NOTSET", .weighing 0), ("DEBUG", .weighing 10), ("INFO", .weighing 20),
  ("WARNING", .weighing 30), ("WARN", .weighing 30), ("ERROR", .weighing 40),
  ("CRITICAL", .weighing 50), ("FATAL", .weighing 50), ("BASIC_FORMAT", .pattern),
  ("_STYLES", .styles)]

/-- The level of a name. -/
def named (name : Value) : Except Fault Level :=
  match name with
  | .text s =>
    match (table.find? fun p => p.1 == Text.capitals s).map (·.2) with
    | some l => .ok l
    | none => .error .missingPart
  | _ => .error .missingPart

/-- The weight of an entry at a level. -/
def weight : Level → Except Fault Nat
  | weighing n => .ok n
  | _ => .error .wrongKind

/-- The least weight that a level asks for. -/
def threshold : Level → Except Fault Nat
  | weighing n => .ok n
  | pattern => .error .noMeaning
  | styles => .error .wrongKind

/-- The label of an entry of a weight: the name of its level, if there is one. -/
def label (weight : Int) : String :=
  match weight with
  | 0 => "NOTSET"
  | 10 => "DEBUG"
  | 20 => "INFO"
  | 30 => "WARNING"
  | 40 => "ERROR"
  | 50 => "CRITICAL"
  | n => "Level " ++ Value.intText n

/-- The threshold in force where a level sets none. -/
def inherited : Nat := 30

end Level
end Journal
end LoanDesk
