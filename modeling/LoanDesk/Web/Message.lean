import LoanDesk.Crypto.Scrypt
import LoanDesk.Journal.Entry
import LoanDesk.Text.Case
import LoanDesk.Web.Address

/-
# Requests and replies on the web

A request names a method and a path and may carry a query, headers and a body. A reply
has a code and perhaps a body, which is a value or tells the problems with a form, and
it brings the journal entries that were made on the way to it. A body with a torn text
or a number without end, or with a problem at one, cannot be sent.

Key definitions: `Web.Request`, `Web.Request.of`, `Web.Request.header?`,
`Web.Request.parameter?`, `Web.Request.bearer?`, `Web.Content`, `Web.Request.content`,
`Web.Body`, `Web.Reply`.
-/

namespace LoanDesk
namespace Web

/-- A request. -/
structure Request where
  method : String
  path : String
  query : List (String × String) := []
  headers : List (String × String) := []
  body : String := ""
deriving DecidableEq, Repr

/-- The text holds plain characters only, as headers must. -/
def isPlain (s : String) : Bool :=
  s.toList.all fun c => c.toNat < 128

/-- The headers of a request to an address: a user whom the address names takes the place of any
other authorization. -/
def headersFor (address : Address) (headers : List (String × String)) : List (String × String) :=
  if address.isWhole && address.user.any (· != ':') then
    headers.filter fun h => h.1.toLower != "authorization"
  else headers

/-- The request for an address; parameters by themselves take the place of its query. The path is
spelled out twice over, once by whoever asks and once by the site. -/
def Request.of (method address : String) (query : Option (List (String × String)))
    (headers : List (String × String)) (body : String) : Except Fault Request := do
  let address ← Address.of address
  if !headers.all fun h => isPlain h.1 && isPlain h.2 then throw .notEncodable
  address.checkReach
  return {
    method := Text.capitals method
    path := Text.unpercent (Text.unpercent address.target).toList
    query := query.getD (parameters address.query)
    headers := headersFor address headers
    body }

namespace Request

/-- The value of a header. -/
def header? (r : Request) (name : String) : Option String :=
  (r.headers.find? fun h => h.1.toLower == name).map (·.2)

/-- The last value of a parameter. -/
def parameter? (r : Request) (name : String) : Option String :=
  (r.query.reverse.find? fun p => p.1 == name).map (·.2)

/-- The token of a request whose authorization is of the bearer kind. -/
def bearer? (r : Request) : Option String :=
  match r.header? "authorization" with
  | none => none
  | some h =>
    let (scheme, rest) := cut ' ' h.toList
    let token := String.ofList (Text.trim rest)
    if Text.lower scheme = "bearer".toList ∧ token ≠ "" then some token else none

end Request

/-- The content type is that of JSON. -/
def isJsonType (contentType : String) : Bool :=
  let media := Text.lower (Text.trim (cut ';' contentType.toList).1)
  match parts '/' media with
  | [kind, detail] =>
    kind == "application".toList &&
      (detail == "json".toList || "+json".toList.isSuffixOf detail)
  | _ => false

/-- What a request carries. -/
inductive Content where
  | nothing
  | unread (s : String)
  | json (v : Value)
deriving Repr

/-- The content of a request, if it can be read. -/
def Request.content (r : Request) : Except Json.Flaw Content :=
  if r.body = "" then .ok .nothing
  else if isJsonType ((r.header? "content-type").getD "") then
    (Json.readBytes (Scrypt.textBytes r.body)).map .json
  else .ok (.unread r.body)

/-- The body of a reply. -/
inductive Body where
  | nothing
  | value (v : Value)
  | problems (ps : List Problem)
deriving Repr

/-- The body can be sent: what it tells, and what was found where there are problems. -/
def Body.isSendable : Body → Bool
  | nothing => true
  | value v => v.isWhole
  | problems ps => ps.all fun p => p.found.isWhole

/-- A reply, with the entries made on the way to it. -/
structure Reply where
  code : Nat
  body : Body := .nothing
  entries : List Journal.Entry := []
deriving Repr

namespace Reply

/-- A reply with a body. -/
def ok (body : Value) : Reply :=
  { code := 200, body := .value body }

/-- A reply that says what stands in the way. -/
def saying (code : Nat) (text : String) : Reply :=
  { code, body := .value (.record [("detail", .text text)]) }

/-- The reply to what a rule of the desk refuses (`http_error`). -/
def refusal (r : Refusal) : Reply :=
  saying r.kind.code r.message

/-- The reply to content that does not have the form asked for. -/
def malformed (problems : List Problem) : Reply :=
  { code := 422, body := .problems problems }

/-- The reply where something has gone wrong at the site. -/
def broken : Reply :=
  { code := 500, body := .value (.text "Internal Server Error") }

/-- The reply with one more entry before it. -/
def noting (r : Reply) (e : Journal.Entry) : Reply :=
  { r with entries := e :: r.entries }

end Reply
end Web
end LoanDesk
