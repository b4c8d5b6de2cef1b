import LoanDesk.Proofs.Desk.Accounts
import LoanDesk.Proofs.Desk.Lending
import LoanDesk.Proofs.Store.RoundTrip

/-
# Callers at one desk

Any number of callers ask for loans, review them and delete them, and their steps come in
any order. To ask for a loan is one step, `Desk.createLoan`. A review is two: `Desk.readLoan`
reads a copy, and `Desk.concludeReview` decides on the copy and writes it back. To delete a
loan is two as well: `Desk.confirmLoan` looks whether it is there, and `Desk.removeLoan`
removes it. Between the steps the time moves, and users are enlisted, register and are
dismissed.

Key definitions: `Review.Call`, `Review.Stage`, `Review.System`, `Review.System.step`,
`Review.Event`, `Review.System.run`, `Review.readable`.
Key theorems: `Review.next_review_waiting`, `Review.next_review_reviewing`,
`Review.next_create_waiting`, `Review.next_delete_deleting`.
-/

namespace LoanDesk
namespace Review

open Store Desk

/-- A number that can be written. -/
abbrev Amount := { d : Decimal // d.withinReach = true }

/-- What a caller wants: a call of `createLoan`, `reviewLoan` or `deleteLoan`. -/
inductive Call where
  | create (owner : String) (amount rate : Amount) (term : ℤ)
  | review (id : String) (target : Loan.Status) (comments : Option Text.Torn)
  | delete (id : String)

/-- How far a call has come. -/
inductive Stage where
  | waiting
  /-- The copy of the loan has been read. -/
  | reviewing (copy : Loan)
  /-- The loan has been seen. -/
  | deleting
  | created (sheet : Loan.Sheet)
  | reviewed (sheet : Loan.Sheet)
  | deleted (there : Bool)
  | failed (f : Fault)

/-- A desk and how far each call has come there. -/
structure System where
  desk : Desk
  stage : ℕ → Stage

/-- The comments of a call as values, `.null` where there are none. -/
def commentsOf : Option Text.Torn → Value
  | some t => Value.ofSigns t
  | none => .null

/-- The request of a call. -/
def requestOf (amount rate : Amount) (term : ℤ) : Loan.Request :=
  ⟨.decimal (.finite amount), .decimal (.finite rate), .int term⟩

/-- The next step of a call, and how far it takes the call: `reviewLoan` is taken apart into
`readLoan` and `concludeReview`, and `deleteLoan` into `confirmLoan` and `removeLoan`. -/
def Call.next (c : Call) (stage : Stage) : Work Stage :=
  match c, stage with
  | .create owner amount rate term, .waiting => do
    return .created (← createLoan (.text owner) (requestOf amount rate term))
  | .review id _ _, .waiting => do return .reviewing (← readLoan (.text id))
  | .review id target comments, .reviewing copy => do
    return .reviewed (← concludeReview (.text id) copy target (commentsOf comments))
  | .delete id, .waiting => do
    confirmLoan (.text id)
    return .deleting
  | .delete id, .deleting => do return .deleted (← removeLoan (.text id))
  | _, stage => return stage

/-- The stage of a call whose step has come to this. -/
def stageOf : Except Fault Stage → Stage
  | .ok stage => stage
  | .error f => .failed f

namespace System

/-- A desk with an empty store, and no call begun. -/
def opening (kind : Storage.Kind) (terms : Terms) (clock : Stamp) : System where
  desk := { terms, storage := .ofKind kind, clock }
  stage := fun _ => .waiting

/-- A call takes its next step. -/
def step (calls : ℕ → Call) (s : System) (n : ℕ) : System where
  desk := (s.desk.perform ((calls n).next (s.stage n))).2
  stage := Function.update s.stage n
    (stageOf (s.desk.perform ((calls n).next (s.stage n))).1)

end System

/-- What may happen. -/
inductive Event where
  | step (n : ℕ)
  | tick (clock : Stamp)
  | enlist (r : Resident)
  | register (name email password : Value)
  | dismiss (id : String)

namespace System

/-- The system after an event. -/
def after (calls : ℕ → Call) (s : System) : Event → System
  | .step n => s.step calls n
  | .tick clock => { s with desk := { s.desk with clock } }
  | .enlist r => { s with desk := (s.desk.perform (addUser r.user)).2 }
  | .register name email password =>
    { s with desk := (s.desk.perform (Desk.register name email password)).2 }
  | .dismiss id => { s with desk := (s.desk.perform (removeUser (.text id))).2 }

/-- The system after events, one after the other. -/
def run (calls : ℕ → Call) (s : System) (events : List Event) : System :=
  events.foldl (after calls) s

variable {calls : ℕ → Call} {s : System} {n m : ℕ} {d : Desk} {r : Except Fault Stage}

theorem step_eq (h : s.desk.perform ((calls n).next (s.stage n)) = (r, d)) :
    s.step calls n = ⟨d, Function.update s.stage n (stageOf r)⟩ := by
  unfold step
  rw [h]

theorem step_stage_of_ne (h : m ≠ n) : (s.step calls n).stage m = s.stage m :=
  Function.update_of_ne h _ _

theorem step_desk (h : s.desk.perform ((calls n).next (s.stage n)) = (r, d)) :
    (s.step calls n).desk = d := by
  rw [step_eq h]

theorem step_stage (h : s.desk.perform ((calls n).next (s.stage n)) = (r, d)) :
    (s.step calls n).stage n = stageOf r := by
  rw [step_eq h]
  exact Function.update_self ..

end System

/-! ### What each step comes to -/

section Steps

variable {d : Desk} {ts : Shelves} {id : String} {copy : Loan} {target : Loan.Status}
  {comments : Option Text.Torn}

theorem commentsOf_isText (comments : Option Text.Torn) :
    commentsOf comments = .null ∨ (commentsOf comments).IsText := by
  cases comments with
  | none => exact .inl rfl
  | some t => exact .inr (.ofSigns t)

/-- The id of a user, whoever has given it out. -/
def AnyId (_count : ℕ) (_id : String) : Prop := True

theorem anyId {count : ℕ} {id : String} : AnyId count id := trivial

/-- Users may have any id; loans can be read, as `Loan.IsReadable` says. -/
def readable : Rule where
  user := AnyId
  loan := Loan.IsReadable
  issued _ := anyId
  mono _ _ := anyId
  reviewed := by
    intro id l l' target comments at_ hl hfiled hread
    rw [hl.ofRecord_document hfiled] at hread
    obtain rfl := Except.ok.inj hread
    exact hl.kept.reviewedAs target comments at_

/-- A request in decimals that can be written makes a loan that can be read. -/
theorem readable_of_lent {owner : String} {term : Value} {amount rate : Decimal.Extended}
    {l : Loan} (hamount : amount.isWithinReach = true) (hrate : rate.isWithinReach = true)
    (h : Keeps.Lent d ⟨.decimal amount, .decimal rate, term⟩ owner l) : l.IsReadable := by
  refine h.isReadable (fun x hx => ?_) fun x hx => ?_
  · obtain rfl := Except.ok.inj hx
    exact hamount
  · obtain rfl := Except.ok.inj hx
    exact hrate

/-- A review begins with a copy of the stored loan, which would be read again as it is, or finds
none: what `readLoan` comes to. -/
theorem next_review_waiting (h : d.Keeps readable ts) (id : String)
    (target : Loan.Status) (comments : Option Text.Torn) :
    ((ts .loans).get? id = none ∧ d.perform (Call.next (.review id target comments) .waiting) =
      (refuse (.missing "loan" (.text id)), d)) ∨
    ∃ l : Loan, l.Filed id ∧ l.IsReadable ∧ l.kept = l ∧ (ts .loans).has id = true ∧
      d.perform (Call.next (.review id target comments) .waiting) = (.ok (.reviewing l), d) := by
  unfold Call.next
  rcases h.readLoan id with ⟨hnone, hp⟩ | ⟨l, hl, hread, hg, hp⟩
  · exact .inl ⟨hnone, perform_bind_error hp _⟩
  · rw [hread.ofRecord_document hl] at hp
    refine .inr ⟨l.kept, ?_, hread.kept, hl.isWritten.kept_kept, ?_, perform_bind_ok hp _⟩
    · exact (hl.read (hread.ofRecord_document hl)).1
    · rw [Table.has_eq, hg]
      rfl

/-- A review ends with a refusal, or with the copy written back: what `concludeReview` comes to. -/
theorem next_review_reviewing (h : d.Keeps readable ts) (hl : copy.Filed id)
    (hread : copy.IsReadable) (target : Loan.Status) (comments : Option Text.Torn) :
    ∃ x d', Keeps.Concludes readable d ts id copy target (commentsOf comments) x d' ∧
      d.perform (Call.next (.review id target comments) (.reviewing copy)) =
        (x.map .reviewed, d') := by
  obtain ⟨x, d', hp, hx⟩ := (h.concludeReview hl target (commentsOf_isText comments)
    (hread.reviewedAs target _ _)).elim
  refine ⟨x, d', hx, ?_⟩
  unfold Call.next
  rw [perform_bind, hp]
  cases x <;> rfl

theorem next_create_waiting (h : d.Keeps readable ts) (owner : String)
    (amount rate : Amount) (term : ℤ) :
    ∃ x d', Keeps.Lends readable d ts owner (requestOf amount rate term) x d' ∧
      d.perform (Call.next (.create owner amount rate term) .waiting) = (x.map .created, d') := by
  have hamount : (Decimal.Extended.finite amount).isWithinReach = true := amount.2
  have hrate : (Decimal.Extended.finite rate).isWithinReach = true := rate.2
  obtain ⟨x, d', hp, hx⟩ := (h.createLoan owner (requestOf amount rate term)
    fun l _ hl => readable_of_lent hamount hrate hl).elim
  refine ⟨x, d', hx, ?_⟩
  unfold Call.next
  rw [perform_bind, hp]
  cases x <;> rfl

theorem next_delete_waiting (h : d.Keeps readable ts) (id : String) :
    d.perform (Call.next (.delete id) .waiting) =
      (if (ts .loans).has id then .ok .deleting else refuse (.missing "loan" (.text id)), d) := by
  have hp := h.confirmLoan id
  unfold Call.next
  rw [perform_bind, hp]
  cases (ts .loans).has id <;> rfl

theorem next_delete_deleting (h : d.Keeps readable ts) (id : String) :
    ∃ s, d.perform (Call.next (.delete id) .deleting) =
        (.ok (.deleted ((ts .loans).has id)), { d with storage := s }) ∧
      Keeps readable { d with storage := s }
        (Function.update ts .loans ((ts .loans).erase id)) ∧ s.Follows d.storage .loans := by
  obtain ⟨s, hp, hkeeps, hfollows⟩ := h.removeLoan id
  refine ⟨s, ?_, hkeeps, hfollows⟩
  unfold Call.next
  exact perform_bind_ok hp _

end Steps
end Review
end LoanDesk
