import LoanDesk.Proofs.Desk.Accounts
import LoanDesk.Proofs.Desk.Reads
import LoanDesk.Proofs.Review.Run

/-
# One caller at a desk

The service is used by one caller at a time: users are enlisted, register and are dismissed,
the time moves, loans are asked for, reviewed and deleted, and whatever can be asked is asked.
Every act may fail. Whatever comes of it, the desk stays in order, and the stored loans stay as
they were, or one comes at their end, or one is replaced by its review, or one is removed.

Key definitions: `Service.Act`, `Service.Act.work`, `Service.System`, `Service.System.step`,
`Service.System.run`, `Service.Act.Fits`, `Service.Moves`, `Service.Turns`.
Key theorems: `Service.System.run_of_step`, `Service.step_clock_terms`, `Service.turns_review`,
`Service.turns_step`.
-/

namespace LoanDesk
namespace Service

open Store Desk Review

/-- A request whose numbers can be written, if they are numbers at all. No others can be built: the
exponents of decimals are bounded, whatever they are built from. -/
structure WrittenRequest where
  request : Loan.Request
  amount : ∀ x, request.amount.toDecimal = .ok x → x.isWithinReach = true
  rate : ∀ x, request.rate.toDecimal = .ok x → x.isWithinReach = true

/-- What can be asked without changing anything. -/
inductive Look where
  | loan (id : Value)
  | loansOf (user : Value)
  | loans (status : Option Loan.Status)
  | pending
  | summary (user : Value)
  | payment (amount rate term : Value)
  | quote (r : Loan.Request)
  | schedule (r : Loan.Request)

/-- The work of answering, the answer aside. -/
def Look.work : Look → Work Unit
  | loan id => do let _ ← loanSheet id
  | loansOf user => do let _ ← loansOfUser user
  | loans status => do let _ ← allLoans status
  | pending => do let _ ← countPending
  | summary user => do let _ ← summarize user
  | payment amount rate term => do let _ ← lifted (Annuity.paymentFor amount rate term)
  | quote r => do let _ ← quoteFor r
  | schedule r => do let _ ← scheduleFor r

/-- What may be done at the desk. -/
inductive Act where
  | enlist (r : Resident)
  | register (name email password : Value)
  | dismiss (id : String)
  | tick (clock : Stamp)
  | lend (owner : String) (r : WrittenRequest)
  | review (id : String) (target : Loan.Status) (comments : Option Text.Torn)
  | delete (id : String)
  | look (l : Look)

/-- The work of an act, its answer aside: the operation of `Desk` that the act is named for. -/
def Act.work : Act → Work Unit
  | enlist r => do let _ ← addUser r.user
  | register name email password => do let _ ← Desk.register name email password
  | dismiss id => do let _ ← removeUser (.text id)
  | tick clock => do let _ ← setClock clock
  | lend owner r => do let _ ← createLoan (.text owner) r.request
  | review id target comments => do let _ ← reviewLoan (.text id) target (commentsOf comments)
  | delete id => do let _ ← deleteLoan (.text id)
  | look l => l.work

/-- The loan that an act has reviewed, and when. -/
def Act.reviewed (a : Act) (clock : Stamp) (x : Except Fault Unit) : List (String × Stamp) :=
  match a, x with
  | review id _ _, .ok () => [(id, clock)]
  | _, _ => []

/-- A desk and the reviews that have succeeded there, with the time of each. -/
structure System where
  desk : Desk
  reviews : List (String × Stamp) := []

namespace System

/-- A desk with an empty store. -/
def opening (kind : Storage.Kind) (terms : Terms) (clock : Stamp) : System where
  desk := { terms, storage := .ofKind kind, clock }

/-- The system after an act. -/
def step (s : System) (a : Act) : System where
  desk := (s.desk.perform a.work).2
  reviews := s.reviews ++ a.reviewed s.desk.clock (s.desk.perform a.work).1

/-- The system after acts, one after the other. -/
def run (s : System) (acts : List Act) : System :=
  acts.foldl step s

variable {s : System} {a : Act} {d : Desk} {x : Except Fault Unit}

theorem step_eq (h : s.desk.perform a.work = (x, d)) :
    s.step a = ⟨d, s.reviews ++ a.reviewed s.desk.clock x⟩ := by
  unfold step
  rw [h]

/-- What every fitting act keeps is kept by all of them: the induction behind every invariant of a
`run`. -/
theorem run_of_step {P : System → Prop} {fits : Act → Prop}
    (hstep : ∀ s a, P s → fits a → P (s.step a)) (h : P s) {acts : List Act}
    (ha : ∀ a ∈ acts, fits a) : P (s.run acts) := by
  induction acts generalizing s with
  | nil => exact h
  | cons a rest ih =>
    exact ih (hstep s a h (ha a List.mem_cons_self)) fun b hb => ha b (List.mem_cons_of_mem a hb)

end System

/-! ### The clock and the terms -/

theorem isLook_look (l : Look) : IsLook l.work := by
  cases l with
  | loan id => exact .bind (isLook_loanSheet id) fun _ => .pure ()
  | loansOf user => exact .bind (isLook_loansOfUser user) fun _ => .pure ()
  | loans status => exact .bind (isLook_allLoans status) fun _ => .pure ()
  | pending => exact .bind (.reading _) fun _ => .pure ()
  | summary user => exact .bind (isLook_summarize user) fun _ => .pure ()
  | payment amount rate term => exact .bind (.lifted _) fun _ => .pure ()
  | quote r => exact .bind (isLook_quoteFor r) fun _ => .pure ()
  | schedule r => exact .bind (isLook_scheduleFor r) fun _ => .pure ()

/-- What the clock shows after an act. -/
def Act.clock (a : Act) (now : Stamp) : Stamp :=
  match a with
  | tick clock => clock
  | _ => now

/-- Nothing but a tick moves the clock, and nothing changes the terms. -/
theorem step_clock_terms (s : System) (a : Act) :
    (s.step a).desk.clock = a.clock s.desk.clock ∧ (s.step a).desk.terms = s.desk.terms := by
  have hdone : ∀ {α : Type} {w : Work α}, IsSteady w →
      IsSteady (do let _ ← w : Work Unit) := fun hw => .bind hw fun _ => (IsLook.pure ()).isSteady
  cases a with
  | enlist r => exact hdone (isSteady_addUser r.user) s.desk
  | register name email password => exact hdone (isSteady_register name email password) s.desk
  | dismiss id => exact hdone (.changing _) s.desk
  | tick clock => exact ⟨rfl, rfl⟩
  | lend owner r => exact hdone (isSteady_createLoan _ r.request) s.desk
  | review id target comments => exact hdone (isSteady_reviewLoan _ target _) s.desk
  | delete id => exact hdone (isSteady_deleteLoan _) s.desk
  | look l => exact (isLook_look l).isSteady s.desk

/-! ### What an act does to the loans -/

/-- The act keeps to a rule: a user is enlisted under an id that users may have, and what comes of
a request is a loan that may be kept. -/
def Act.Fits (R : Rule) (d : Desk) : Act → Prop
  | enlist r => R.user d.ids r.id
  | lend owner r => ∀ l, R.user d.ids owner → Keeps.Lent d r.request owner l → R.loan l
  | _ => True

/-- What an act may do to the stored loans and to the list of reviews: all stay, or a new loan
comes at the end, or a pending loan is replaced by its review, or a loan is removed. -/
inductive Moves (R : Rule) (s : System) (ts : Shelves) (s' : System) (ts' : Shelves) : Prop
  | still : ts' .loans = ts .loans → s'.reviews = s.reviews → Moves R s ts s' ts'
  | lent {l : Loan} {owner : String} {r : Loan.Request} : l.Filed (idOf (s.desk.ids + 1)) →
      R.loan l → Keeps.Lent s.desk r owner l → s'.desk.ids = s.desk.ids + 1 →
      ts' .loans = ts .loans ++ [(idOf (s.desk.ids + 1), l.document)] →
      s'.reviews = s.reviews → Moves R s ts s' ts'
  | reviewed {id : String} {l : Loan} {target : Loan.Status} {comments : Option Text.Torn} :
      (ts .loans).get? id = some l.document → l.Filed id → R.loan l → l.status = .pending →
      target.isFinal = true →
      ts' .loans = (ts .loans).put id
        (l.kept.reviewedAs target (commentsOf comments) s.desk.clock).document →
      s'.reviews = s.reviews ++ [(id, s.desk.clock)] → Moves R s ts s' ts'
  | removed (id : String) : ts' .loans = (ts .loans).erase id → s'.reviews = s.reviews →
      Moves R s ts s' ts'

section Moves

variable {R : Rule} {s : System} {ts : Shelves}

/-- An act leaves the desk in order, takes back no id, and `Moves` the loans. -/
def Turns (R : Rule) (s : System) (ts : Shelves) (s' : System) : Prop :=
  ∃ ts', s'.desk.Keeps R ts' ∧ s.desk.ids ≤ s'.desk.ids ∧ Moves R s ts s' ts'

/-- An act whose answer does not matter comes to what its work comes to. -/
theorem step_of_perform {α : Type} {w : Work α} {x : Except Fault α} {d : Desk} {a : Act}
    (hw : a.work = do let _ ← w) (hp : s.desk.perform w = (x, d)) :
    s.step a = ⟨d, s.reviews ++ a.reviewed s.desk.clock (x.map fun _ => ())⟩ := by
  refine System.step_eq ?_
  rw [hw, perform_bind, hp]
  cases x <;> rfl

/-- An act that is no review leaves the list of reviews. -/
theorem reviews_of_perform {α : Type} {w : Work α} {x : Except Fault α} {d : Desk} {a : Act}
    (hw : a.work = do let _ ← w) (ha : ∀ clock y, a.reviewed clock y = [])
    (hp : s.desk.perform w = (x, d)) : s.step a = ⟨d, s.reviews⟩ := by
  rw [step_of_perform hw hp, ha, List.append_nil]

theorem turns_enlist (h : s.desk.Keeps R ts) (r : Resident) (hr : R.user s.desk.ids r.id) :
    Turns R s ts (s.step (.enlist r)) := by
  obtain ⟨x, d, hp, -, st, rfl, hput⟩ := (h.addUser r.filed hr).elim
  rw [reviews_of_perform rfl (fun _ _ => rfl) hp]
  rcases hput with rfl | ⟨-, hkeeps⟩
  · exact ⟨ts, h, le_rfl, .still rfl rfl⟩
  · exact ⟨_, hkeeps, le_rfl, .still (Function.update_of_ne (by decide) ..) rfl⟩

theorem turns_register (h : s.desk.Keeps R ts) (name email password : Value) :
    Turns R s ts (s.step (.register name email password)) := by
  obtain ⟨x, d, hp, henrols, -⟩ := (h.register name email password).elim
  rw [reviews_of_perform rfl (fun _ _ => rfl) hp]
  cases henrols with
  | none _ hids hkeeps => exact ⟨ts, hkeeps, hids, .still rfl rfl⟩
  | enrolled _ _ _ hids hkeeps =>
    exact ⟨_, hkeeps, hids.le, .still (Function.update_of_ne (by decide) ..) rfl⟩

theorem turns_dismiss (h : s.desk.Keeps R ts) (id : String) :
    Turns R s ts (s.step (.dismiss id)) := by
  obtain ⟨st, hp, hkeeps, -⟩ := h.removeUser id
  rw [reviews_of_perform rfl (fun _ _ => rfl) hp]
  exact ⟨_, hkeeps, le_rfl, .still (Function.update_of_ne (by decide) ..) rfl⟩

theorem turns_lend (h : s.desk.Keeps R ts) (owner : String) (r : WrittenRequest)
    (hr : ∀ l, R.user s.desk.ids owner → Keeps.Lent s.desk r.request owner l → R.loan l) :
    Turns R s ts (s.step (.lend owner r)) := by
  obtain ⟨x, d, hp, hx⟩ := (h.createLoan owner r.request hr).elim
  rw [reviews_of_perform rfl (fun _ _ => rfl) hp]
  cases hx with
  | refused f => exact ⟨ts, h, le_rfl, .still rfl rfl⟩
  | failed f => exact ⟨ts, h.freshId, Nat.le_succ _, .still rfl rfl⟩
  | lent hfiled hrule hlent _ hkeeps =>
    exact ⟨_, hkeeps, Nat.le_succ _,
      .lent hfiled.loan hrule hlent rfl (Function.update_self ..) rfl⟩

theorem turns_review (h : s.desk.Keeps R ts) (hR : ∀ l, R.loan l → l.IsReadable) (id : String)
    (target : Loan.Status) (comments : Option Text.Torn) :
    Turns R s ts (s.step (.review id target comments)) := by
  obtain ⟨x, d, hp, hx⟩ := (h.reviewLoan id target (commentsOf_isText comments)).elim
  rw [step_of_perform rfl hp]
  cases hx with
  | failed f hkeeps => exact ⟨ts, hkeeps, le_rfl, .still rfl (List.append_nil _)⟩
  | reviewed hg hl hrule hread hpending hfinal hsheet hkeeps =>
    rw [(hR _ hrule).ofRecord_document hl] at hread
    obtain rfl := Except.ok.inj hread
    rw [hsheet] at hkeeps
    exact ⟨_, hkeeps, le_rfl, .reviewed hg hl hrule hpending hfinal (Function.update_self ..) rfl⟩

theorem turns_delete (h : s.desk.Keeps R ts) (id : String) :
    Turns R s ts (s.step (.delete id)) := by
  cases hg : (ts .loans).get? id with
  | none =>
    have hconfirm := h.confirmLoan id
    rw [Table.has_eq, hg] at hconfirm
    rw [reviews_of_perform rfl (fun _ _ => rfl) (perform_bind_error hconfirm _)]
    exact ⟨ts, h, le_rfl, .still rfl rfl⟩
  | some fs =>
    obtain ⟨st, hp, hkeeps⟩ := h.deleteLoan hg
    rw [reviews_of_perform rfl (fun _ _ => rfl) hp]
    exact ⟨_, hkeeps, le_rfl, .removed id (Function.update_self ..) rfl⟩

theorem turns_step (h : s.desk.Keeps R ts) (hR : ∀ l, R.loan l → l.IsReadable) {a : Act}
    (ha : a.Fits R s.desk) : Turns R s ts (s.step a) := by
  cases a with
  | enlist r => exact turns_enlist h r ha
  | register name email password => exact turns_register h name email password
  | dismiss id => exact turns_dismiss h id
  | tick clock =>
    exact ⟨ts, h.of_same rfl rfl le_rfl, le_rfl, .still rfl (List.append_nil _)⟩
  | lend owner r => exact turns_lend h owner r ha
  | review id target comments => exact turns_review h hR id target comments
  | delete id => exact turns_delete h id
  | look l =>
    have hp := (isLook_look l).eq s.desk
    rw [System.step_eq hp]
    exact ⟨ts, h, le_rfl, .still rfl (List.append_nil _)⟩

end Moves

/-! ### A visit -/

/-- A thousand at five percent for a year. -/
def modestRequest : WrittenRequest where
  request := {
    amount := .decimal (.finite (Decimal.ofNat 1000))
    rate := .decimal (.finite (Decimal.ofNat 5))
    term := .int 12 }
  amount := by
    intro x hx
    obtain rfl := Except.ok.inj hx
    decide
  rate := by
    intro x hx
    obtain rfl := Except.ok.inj hx
    decide

/-- A visitor asks for a loan, and gets it. -/
def visit : List Act :=
  [.enlist visitor, .lend "ann" modestRequest, .review "id-1" .approved none]

end Service
end LoanDesk
