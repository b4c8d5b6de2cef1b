import LoanDesk.Account.Signing
import LoanDesk.Account.User
import LoanDesk.Json.Parser
import LoanDesk.Json.Printer
import LoanDesk.Text.Base64Url
import LoanDesk.Time.Measured

/-
# Bearer tokens

A token is a header, claims and a signature over both, each in the alphabet of web
addresses and parted by points. It names its user and issuer and when it was issued
and expires, in whole seconds. A token is taken apart in a fixed order; whatever is
wrong with it makes it invalid, unless all that is wrong up to there is that its time
is over. That the desk itself cannot check, for want of a key or of a time that can be
measured, is another matter.

Key definitions: `Account.TokenTerms`, `Account.lifetime`, `Account.Token.issue`,
`Account.Token.userId`.
-/

namespace LoanDesk
namespace Account

/-- What tokens are signed with and how, by whom, and for how many days: the `jwt_*` settings of
`AuthService`. -/
structure TokenTerms where
  secret : Value
  issuer : Value := .text "BankLoanSimulator"
  days : Value := .int 30
  algorithm : String := "HS256"
deriving Repr

/-- Microseconds of a day. -/
def dayMicros : Int := 86400000000

/-- The microseconds of a day's fraction `m / d`, as a binary product. -/
def fractionMicros (m d : Nat) : Nat × Nat :=
  match Binary64.nearest false (m * dayMicros.natAbs) d with
  | .finite _ n e => (n * Nat.pow 2 e.toNat, Nat.pow 2 (-e).toNat)
  | _ => (0, 1)

/-- The microseconds of a measured number of days `m * 2 ^ e`, to the nearest. -/
def measuredDays (m : Nat) (e : Int) : Nat :=
  let n := m * Nat.pow 2 e.toNat
  let d := Nat.pow 2 (-e).toNat
  let (part, unit) := fractionMicros (n % d) d
  Binary64.roundDiv (n / d * dayMicros.natAbs * unit + part) unit

/-- So many microseconds, if the days in them can be counted. -/
def countable (micros : Int) : Except Fault Int :=
  if (micros.fdiv dayMicros).natAbs ≤ 999999999 then .ok micros else .error .outOfRange

/-- How long so many days are, in microseconds. -/
def lifetime : Value → Except Fault Int
  | .int i => countable (i * dayMicros)
  | .bool b => .ok (if b then dayMicros else 0)
  | .float (.finite negative m e) =>
    countable (if negative then -(measuredDays m e : Int) else measuredDays m e)
  | .float (.infinity _) => .error .outOfRange
  | .float .nan => .error .noMeaning
  | _ => .error .wrongKind

namespace Token

/-- The header of a token that is signed in some way. -/
def header (algorithm : String) : Value :=
  .record [("alg", .text algorithm), ("typ", .text "JWT")]

/-- The whole seconds of a stamp, which must lie in the calendar of universal time. -/
def secondsOf (t : Stamp) : Except Fault Int :=
  match t.universal? with
  | some _ => .ok t.epochSeconds
  | none => .error .outOfRange

/-- The issuer of a token, who must be named by a text. -/
def issuerOf (terms : TokenTerms) : Except Fault Value :=
  match terms.issuer with
  | .text _ | .torn _ => .ok terms.issuer
  | _ => .error .wrongKind

/-- The claims of a token for a user, in the order in which `issue_token` names them. -/
def claims (terms : TokenTerms) (u : User) (now : Stamp) : Except Fault Value := do
  let some until_ := now.plus? (← lifetime terms.days) | throw .outOfRange
  let expires ← secondsOf until_
  let issued ← secondsOf now
  return .record [
    ("sub", u.id), ("email", u.email), ("name", u.name), ("role", .text u.role),
    ("iss", ← issuerOf terms), ("iat", .int issued), ("exp", .int expires)]

/-- A value as a part of a token. -/
def part (v : Value) : List Char :=
  Base64Url.encode (Scrypt.textBytes (Json.print .narrow v))

/-- The bytes of the parts that are signed. -/
def signedBytes (signed : List Char) : Bytes :=
  Scrypt.textBytes (String.ofList signed)

/-- The token of claims, signed as the terms say. -/
def sign (terms : TokenTerms) (claims : Value) : Except Fault String := do
  let some signing := Signing.named? terms.algorithm | throw .unknownSigning
  let key ← signing.key terms.secret
  let signed := part (header terms.algorithm) ++ '.' :: part claims
  return String.ofList
    (signed ++ '.' :: Base64Url.encode (signing.sign key (signedBytes signed)))

/-- A token for a user (`AuthService.issue_token`). -/
def issue (terms : TokenTerms) (u : User) (now : Stamp) : Except Fault String := do
  sign terms (← claims terms u now)

/-! ### Taking a token apart -/

/-- The parts of a token before they are checked. -/
structure Parts where
  signed : List Char
  header : Fields
  payload : Bytes
  signature : Bytes

/-- The characters before and behind the first point. -/
def splitPoint? (cs : List Char) : Option (List Char × List Char) :=
  match cs.dropWhile (· != '.') with
  | [] => none
  | _ :: rest => some (cs.takeWhile (· != '.'), rest)

/-- The value is a text, or there is none. -/
def isTextOrAbsent : Option Value → Bool
  | none => true
  | some (.text _) | some (.torn _) => true
  | _ => false

/-- An extension that a header calls critical is known and present. -/
def knowsExtension (fs : Fields) : Value → Bool
  | .text s => s == "b64" && (Fields.get? fs "b64").isSome
  | _ => false

/-- The header asks for nothing that is not supported. -/
def isUsableHeader (fs : Fields) : Bool :=
  isTextOrAbsent (Fields.get? fs "kid") &&
  (match Fields.get? fs "crit" with
   | none => true
   | some (.list items) => !items.isEmpty && items.all (knowsExtension fs)
   | some _ => false) &&
  (match Fields.get? fs "b64" with
   | some (.bool false) => false
   | _ => true)

/-- The value that bytes hold. -/
def valueOf? (bytes : Bytes) : Option Value :=
  match Json.readBytes bytes with
  | .ok v => some v
  | .error _ => none

/-- The parts of a token: the signature behind the last point, the header before the first. -/
def parts? (token : String) : Option Parts := do
  let (tail, front) ← splitPoint? token.toList.reverse
  let signed := front.reverse
  let (head, body) ← splitPoint? signed
  let header ← valueOf? (← Base64Url.decode? head)
  let payload ← Base64Url.decode? body
  let signature ← Base64Url.decode? tail.reverse
  match header with
  | .record fs => if isUsableHeader fs then return ⟨signed, fs, payload, signature⟩ else none
  | _ => none

/-- The claims that a payload holds. -/
def payloadClaims? (payload : Bytes) : Option Fields := do
  match ← valueOf? payload with
  | .record fs => return fs
  | _ => none

/-- A claim that must be there. -/
def isPresent (fs : Fields) (name : String) : Bool :=
  match Fields.get? fs name with
  | none | some .null => false
  | _ => true

/-- The seconds of a claim. -/
def seconds? (v : Value) : Option Int :=
  match v.toInteger with
  | .ok i => some i
  | .error _ => none

/-- The seconds are not after the present time. -/
def notAfter (now : Binary64) (i : Int) : Bool :=
  match Decimal.Extended.order? (.finite (Decimal.ofInt i)) now.exact with
  | some .gt => false
  | _ => true

/-- A claim of a time that has begun, if it is there at all. -/
def hasBegun (now : Binary64) (claim : Option Value) : Bool :=
  match claim with
  | none => true
  | some v =>
    match seconds? v with
    | some i => notAfter now i
    | none => false

/-- The issuer that claims name is the one of the terms, or one of several; terms without an
issuer take any. -/
def isIssuer (issuer : Value) (claim : Option Value) : Bool :=
  match issuer, claim with
  | .null, _ => true
  | .list issuers, some (.text s) => issuers.any (·.same (.text s))
  | .list issuers, some (.torn t) => issuers.any (·.same (.torn t))
  | .record issuers, some (.text s) => (Fields.get? issuers s).isSome
  | .text t, some (.text s) => s == t
  | .torn t, some (.torn s) => s == t
  | _, _ => false

/-- The claims about identities are as this desk writes them. -/
def identitiesHold (terms : TokenTerms) (fs : Fields) : Bool :=
  isIssuer terms.issuer (Fields.get? fs "iss") &&
  !(Fields.get fs "aud").truthy &&
  isTextOrAbsent (Fields.get? fs "sub") &&
  isTextOrAbsent (Fields.get? fs "jti")

/-- The user that checked claims name. -/
def subject (fs : Fields) : Except Refusal Value :=
  let sub := Fields.get fs "sub"
  if sub.truthy then .ok sub else .error .tokenInvalid

/-- The claims that must be there are. -/
def isComplete (fs : Fields) : Bool :=
  isPresent fs "exp" && isPresent fs "sub" && isPresent fs "iss"

/-- The user that complete claims name, at a time when they hold. -/
def checkClaims (terms : TokenTerms) (now : Binary64) (fs : Fields) : Except Refusal Value :=
  if !hasBegun now (Fields.get? fs "iat") then .error .tokenInvalid
  else if !hasBegun now (Fields.get? fs "nbf") then .error .tokenInvalid
  else
    match seconds? (Fields.get fs "exp") with
    | none => .error .tokenInvalid
    | some expires =>
      if notAfter now expires then .error .tokenExpired
      else if !identitiesHold terms fs then .error .tokenInvalid
      else subject fs

/-- The way of signing that the header names, if it is the one in use. -/
def signingOf? (terms : TokenTerms) (p : Parts) : Option Signing :=
  match Fields.get? p.header "alg" with
  | some (.text s) => if s = terms.algorithm then Signing.named? s else none
  | _ => none

/-- The user that the claims of a checked token name. -/
def userOf (terms : TokenTerms) (now : Stamp) (payload : Bytes) : Except Fault Value :=
  match payloadClaims? payload with
  | none => refuse .tokenInvalid
  | some fs =>
    if !isComplete fs then refuse .tokenInvalid
    else
      match now.measured? with
      | none => .error .noMeaning
      | some present =>
        match checkClaims terms present fs with
        | .ok id => .ok id
        | .error r => refuse r

/-- The user that a token names (`AuthService.decode_token`). -/
def userId (terms : TokenTerms) (now : Stamp) (token : String) : Except Fault Value :=
  match parts? token with
  | none => refuse .tokenInvalid
  | some p =>
    match signingOf? terms p with
    | none => refuse .tokenInvalid
    | some signing => do
      let key ← signing.key terms.secret
      if signing.verifies key (signedBytes p.signed) p.signature then userOf terms now p.payload
      else refuse .tokenInvalid

end Token
end Account
end LoanDesk
