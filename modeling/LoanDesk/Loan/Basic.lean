import LoanDesk.Value.Number

/-
# Loans

A loan is what was asked for, the payment that was worked out for it, and how its
review went. It is kept as a record of texts, whole numbers and nulls, in which
numbers keep their sign, digits and exponent and stamps their offset.

Key definitions: `Loan`, `Loan.isPending`, `Loan.record`, `Loan.ofRecord`,
`Loan.Draft`, `Loan.Draft.record`.
-/

namespace LoanDesk

/-- A loan. Names and comments are whatever its record holds for them. -/
structure Loan where
  id : Value
  created : Stamp
  updated : Stamp
  owner : Value
  amount : Decimal.Extended
  rate : Decimal.Extended
  months : Int
  payment : Decimal.Extended
  status : Loan.Status
  requested : Stamp
  reviewed : Option Stamp
  comments : Value
deriving Repr

namespace Loan

/-- The loan waits for its review (`Loan.is_pending`). -/
def isPending (l : Loan) : Bool :=
  l.status == .pending

/-- The loan belongs to the user of an id. -/
def isOwnedBy (l : Loan) (userId : Value) : Bool :=
  l.owner.same userId

/-- A stamp as records hold it, or null. -/
def stampValue : Option Stamp → Value
  | some t => .text t.iso
  | none => .null

/-- The record of a loan. -/
def record (l : Loan) : Fields := [
  ("id", l.id.recorded),
  ("created_at", .text l.created.iso),
  ("updated_at", .text l.updated.iso),
  ("owner_id", l.owner.recorded),
  ("amount", .text l.amount.text),
  ("interest_rate", .text l.rate.text),
  ("term_in_months", .int l.months),
  ("monthly_payment", .text l.payment.text),
  ("status", .text l.status.word),
  ("request_date", .text l.requested.iso),
  ("review_date", stampValue l.reviewed),
  ("admin_comments", l.comments.recorded)]

/-- The fields of a value that is a record. -/
def fieldsOf : Value → Except Fault Fields
  | .record fs => .ok fs
  | _ => .error .wrongKind

/-- The stamp of a field that may be empty. -/
def stampOrNone (v : Value) : Except Fault (Option Stamp) :=
  if v.truthy then v.toStamp.map some else .ok none

/-- The loan that a record holds, its fields read in order (`Loan.from_dict`). -/
def ofRecord (v : Value) : Except Fault Loan := do
  let fs ← fieldsOf v
  let id ← Value.field fs "id"
  let created ← (← Value.field fs "created_at").toStamp
  let updated ← (← Value.field fs "updated_at").toStamp
  let owner ← Value.field fs "owner_id"
  let amount ← (← Value.field fs "amount").toDecimal
  let rate ← (← Value.field fs "interest_rate").toDecimal
  let months ← (← Value.field fs "term_in_months").toInteger
  let payment ← (← Value.field fs "monthly_payment").toDecimal
  let status ← (← Value.field fs "status").toStatus
  let requested ← (← Value.field fs "request_date").toStamp
  let reviewed ← stampOrNone (Fields.get fs "review_date")
  return { id, created, updated, owner, amount, rate, months, payment, status, requested,
           reviewed, comments := Fields.get fs "admin_comments" }

/-! ### Drafts -/

/-- A loan put together from values of any kind, named by its fields. -/
structure Draft where
  fields : Fields
deriving Repr

namespace Draft

/-- The names that a draft must have. -/
def required : List String :=
  ["id", "created_at", "updated_at", "owner_id", "amount", "interest_rate", "term_in_months",
    "monthly_payment"]

/-- The names that a draft may have, and what they are otherwise. -/
def optional : List (String × Value) :=
  [("status", .status .pending), ("request_date", .null), ("review_date", .null),
    ("admin_comments", .null)]

/-- The draft of these fields: none missing, none unknown. -/
def of (fs : Fields) : Except Fault Draft :=
  let known := required ++ optional.map (·.1)
  if required.all (fun n => (Fields.get? fs n).isSome) && fs.all (fun f => known.contains f.1) then
    .ok ⟨required.map (fun n => (n, Fields.get fs n)) ++
      optional.map fun o => (o.1, (Fields.get? fs o.1).getD o.2)⟩
  else .error .wrongKind

/-- The value of a field. -/
def get (d : Draft) (name : String) : Value :=
  Fields.get d.fields name

/-- A value that must be a stamp, as records hold it. -/
def stampField : Value → Except Fault Value
  | .moment t => .ok (.text t.iso)
  | _ => .error .missingPart

/-- A value that must be a status. -/
def status (d : Draft) : Except Fault Status :=
  match d.get "status" with
  | .status s => .ok s
  | _ => .error .missingPart

/-- When the loan was asked for: when it was created, unless said otherwise. -/
def requested (d : Draft) : Value :=
  match d.get "request_date" with
  | .null => d.get "created_at"
  | v => v

/-- The record of a draft. -/
def record (d : Draft) : Except Fault Fields := do
  let created ← stampField (d.get "created_at")
  let updated ← stampField (d.get "updated_at")
  let status ← d.status
  let requested ← stampField d.requested
  let review := d.get "review_date"
  let reviewed ← if review.truthy then stampField review else .ok .null
  return d.fields.map fun (n, v) =>
    if n = "created_at" then (n, created)
    else if n = "updated_at" then (n, updated)
    else if n = "status" then (n, .text status.word)
    else if n = "request_date" then (n, requested)
    else if n = "review_date" then (n, reviewed)
    else (n, v.recorded)

end Draft
end Loan
end LoanDesk
