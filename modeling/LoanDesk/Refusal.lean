import LoanDesk.Value

/-
# Refusals and faults

A refusal is an answer of the desk that says no: its kind tells which sort of rule
stood in the way, its message says what to people, and its details say it to
machines. A fault is anything that stops an operation: a refusal, a number that
cannot be read or computed, a value of the wrong shape, or a store, a setting or a
key that cannot be used.

Key definitions: `Refusal`, `Refusal.kind`, `Refusal.message`, `Refusal.details`,
`Refusal.ofArguments`, `Fault`, `Problem`.
-/

namespace LoanDesk

/-- The sorts of rules that refuse, each with a class of errors: `ValidationError`, `NotFoundError`,
`ConflictError`, `AuthenticationError`, and `LoanSimulatorError` for all others. -/
inductive Refusal.Kind where
  | general
  | validation
  | notFound
  | conflict
  | authentication
deriving DecidableEq, Repr

/-- The code that the web gives to a sort of refusal (`ERROR_STATUS_CODES`). -/
def Refusal.Kind.code : Refusal.Kind → Nat
  | general => 400
  | validation => 400
  | authentication => 401
  | notFound => 404
  | conflict => 409

/-- What stood in the way. -/
inductive Refusal where
  | amountUnreadable (shown : String)
  | rateUnreadable (shown : String)
  | amountNotPositive (amount : String)
  | amountTooLarge (amount most : String)
  | rateOutOfRange (rate least most : String)
  | termOutOfRange (term least most : Value)
  | termTooShort
  | unknownStatus (given : Value)
  | reviewed (id : Value) (status : Loan.Status)
  | reviewLost (id : Value)
  | targetPending (id : Value)
  | loanExists (id : Value)
  | missing (entity : String) (id : Value)
  | emailTaken (email : Value)
  | nameMissing
  | emailMissing
  | passwordTooShort (least : Value)
  | credentialsWrong
  | tokenExpired
  | tokenInvalid
  | stated (kind : Refusal.Kind) (message : String) (details : Value)
deriving Repr

namespace Refusal

/-- The sort of rule behind a refusal. -/
def kind : Refusal → Kind
  | amountUnreadable .. | rateUnreadable .. | amountNotPositive .. | amountTooLarge ..
  | rateOutOfRange .. | termOutOfRange .. | termTooShort | unknownStatus .. | targetPending ..
  | nameMissing | emailMissing | passwordTooShort .. => .validation
  | reviewed .. | reviewLost .. | loanExists .. | emailTaken .. => .conflict
  | missing .. => .notFound
  | credentialsWrong | tokenExpired | tokenInvalid => .authentication
  | stated kind .. => kind

/-- What a refusal says to people. -/
def message : Refusal → String
  | amountUnreadable _ => "amount must be a number"
  | rateUnreadable _ => "interest rate must be a number"
  | amountNotPositive _ => "amount must be greater than 0"
  | amountTooLarge .. => "amount exceeds the maximum allowed"
  | rateOutOfRange _ least most =>
    "interest rate must be between " ++ least ++ "% and " ++ most ++ "%"
  | termOutOfRange _ least most =>
    "term must be between " ++ least.shown ++ " and " ++ most.shown ++ " months"
  | termTooShort => "term must be at least 1 month"
  | unknownStatus given => "Invalid loan status: " ++ given.quoted
  | reviewed id _ => "Loan " ++ id.shown ++ " has already been reviewed"
  | reviewLost id => "Loan " ++ id.shown ++ " has already been reviewed"
  | targetPending _ => "cannot set status to Pending"
  | loanExists id => "Loan " ++ id.shown ++ " already exists"
  | missing entity id => Text.capitalized entity ++ " " ++ id.shown ++ " not found"
  | emailTaken _ => "email is already registered"
  | nameMissing => "full name is required"
  | emailMissing => "email is required"
  | passwordTooShort least =>
    "password must be at least " ++ least.shown ++ " characters long"
  | credentialsWrong => "invalid email or password"
  | tokenExpired => "token expired"
  | tokenInvalid => "invalid token"
  | stated _ message _ => message

/-- What a refusal says to machines. -/
def details : Refusal → Value
  | amountUnreadable shown => .record [("amount", .text shown)]
  | rateUnreadable shown => .record [("interest_rate", .text shown)]
  | amountNotPositive amount => .record [("amount", .text amount)]
  | amountTooLarge amount most => .record [("amount", .text amount), ("max_amount", .text most)]
  | rateOutOfRange rate .. => .record [("interest_rate", .text rate)]
  | termOutOfRange term .. => .record [("term_in_months", term)]
  | unknownStatus given => .record [("status", .text given.shown)]
  | reviewed id status => .record [("loan_id", id), ("status", .text status.word)]
  | reviewLost id => .record [("loan_id", id)]
  | targetPending id => .record [("loan_id", id), ("status", .text Loan.Status.pending.word)]
  | loanExists id => .record [("loan_id", id)]
  | missing entity id => .record [("entity_type", .text entity), ("entity_id", id)]
  | emailTaken email => .record [("email", email)]
  | stated _ _ details => details
  | _ => .record []

end Refusal

/-- One thing wrong with a value that was checked against a form: its sort, where it is, and what
was found there. -/
structure Problem where
  sort : String
  place : List Value
  found : Value
deriving Repr

/-- What stops an operation. -/
inductive Fault where
  /-- A rule of the desk says no. -/
  | refused (r : Refusal)
  /-- The value is not a number that money can be counted in. -/
  | noAmount (quoted : String)
  /-- The value is a number without end, or none at all. -/
  | noFiniteAmount (quoted : String)
  /-- The text is not a number. -/
  | unreadableAmount (s : String)
  /-- There is no text to read a number from. -/
  | emptyAmount
  /-- No store goes by this name. -/
  | unknownStore (shown : String)
  /-- Arithmetic has no answer. -/
  | arithmetic (s : Decimal.Signal)
  /-- A value is of the wrong kind. -/
  | wrongKind
  /-- A value is of the right kind and has no meaning. -/
  | noMeaning
  /-- A record lacks a field. -/
  | missingField
  /-- A value does not have the part that was asked for. -/
  | missingPart
  /-- A number or a date lies outside its range. -/
  | outOfRange
  /-- A statement to the database is not well formed or cannot be carried out. -/
  | statement
  /-- The database's own list of tables could not be read any more. -/
  | brokenCatalog
  /-- A value cannot be handed to the database. -/
  | binding
  /-- A setting cannot be read. -/
  | setting
  /-- Values do not have the form that was asked for. -/
  | malformed (problems : List Problem)
  /-- A key cannot sign. -/
  | unusableKey
  /-- No way of signing goes by this name. -/
  | unknownSigning
  /-- A text is torn and has no bytes, or holds what those who ask may not send. -/
  | notEncodable
  /-- The text is not an address. -/
  | noAddress
  /-- No way of asking goes by the scheme of an address. -/
  | unknownScheme
  /-- The scheme of an address is not for asking. -/
  | notAsked
  /-- Lists and records lie too deep within each other. -/
  | tooDeep
deriving Repr

/-- An operation that a refusal has stopped. -/
def refuse {α : Type} (r : Refusal) : Except Fault α :=
  .error (.refused r)

namespace Fault

/-- A signal of the arithmetic stops an operation. -/
def ofArithmetic {α : Type} : Except Decimal.Signal α → Except Fault α
  | .ok a => .ok a
  | .error s => .error (.arithmetic s)

/-- The value cannot be read as an amount, whatever the reason. -/
def isAmountFault : Fault → Bool
  | noAmount _ | noFiniteAmount _ | unreadableAmount _ | emptyAmount => true
  | _ => false

end Fault

namespace Refusal

/-- The refusal that a kind and arguments describe: a message and perhaps details, or for what is
missing its entity and id. Empty details are an empty record. -/
def ofArguments (kind : Kind) (arguments : List Value) : Except Fault Refusal :=
  match kind, arguments with
  | .notFound, [.text entity, id] => .ok (.missing entity id)
  | .notFound, [_, _] => .error .missingPart
  | .notFound, _ => .error .wrongKind
  | kind, [.text message] => .ok (.stated kind message (.record []))
  | kind, [.text message, details] =>
    .ok (.stated kind message (if details.truthy then details else .record []))
  | _, _ => .error .wrongKind

end Refusal
end LoanDesk
