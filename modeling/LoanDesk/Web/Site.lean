import LoanDesk.Web.Accounts
import LoanDesk.Web.Lending
import LoanDesk.Web.Route

/-
# The web site

The site answers every request. It gives the request an id, its own or a new one, which
stands in the reply and in every entry made on the way; the last entry tells of the
request itself. A browser that asks before it sends a page's request is told whether
the page may send it. Where something goes wrong that is no refusal, or the reply cannot
be sent, the site says so and no more: the reply has no id, and no entry tells of the
request.

Key definitions: `Web.handle`, `Web.answer`, `Web.preflight?`, `Web.Served`, `Web.serve`.
-/

namespace LoanDesk
namespace Web

/-- The version of the desk. -/
def version : String := "1.0.0"

/-- What the site says about itself (`get_api_info`). -/
def home : Reply :=
  .ok (.record [
    ("name", .text "Bank Loan Simulator API"),
    ("version", .text version),
    ("endpoints", .record [
      ("docs", .text "/docs"),
      ("health", .text "/health"),
      ("auth", .text "/api/auth"),
      ("loans", .text "/api/loans")])])

/-- How the site is (`health_check`). -/
def health : Reply :=
  .ok (.record [
    ("status", .text "healthy"),
    ("service", .text "loan_simulator_api"),
    ("version", .text version)])

/-- The pages about the site itself, whose text is no concern of the desk. -/
def manual : Reply :=
  { code := 200 }

/-- The reply of a route. -/
def handle (route : Route) (r : Request) : Work Reply :=
  match route with
  | .manual => return manual
  | .home => return home
  | .health => return health
  | .register => register r
  | .login => login r
  | .me => showCaller r
  | .createLoan => createLoan r
  | .listLoans => listLoans r
  | .myLoans => myLoans r
  | .calculate => calculate r
  | .schedule => schedule r
  | .showLoan id => showLoan id r
  | .deleteLoan id => deleteLoan id r
  | .reviewLoan id => reviewLoan id r

/-- The reply of a destination. -/
def answer (r : Request) : Work Reply :=
  match destination r.method r.path with
  | .route route => handle route r
  | .otherMethod => return .saying 405 "Method Not Allowed"
  | .elsewhere => return { code := 307 }
  | .nowhere => return .saying 404 "Not Found"

/-- The methods that the pages of other sites may use. -/
def openMethods : List String :=
  ["DELETE", "GET", "HEAD", "OPTIONS", "PATCH", "POST", "PUT"]

/-- The pages of a site may send requests. -/
def admits (origins : List String) (origin : String) : Bool :=
  origins.contains "*" || origins.contains origin

/-- The reply to a browser that asks for a page whether it may send a request. -/
def preflight? (origins : List String) (r : Request) : Option Reply := do
  let origin ← r.header? "origin"
  let method ← r.header? "access-control-request-method"
  if r.method ≠ "OPTIONS" then none
  let refused := (if admits origins origin then [] else ["origin"]) ++
    (if openMethods.contains method then [] else ["method"])
  if refused.isEmpty then return .ok (.text "OK")
  let text := "Disallowed CORS " ++ ", ".intercalate refused
  return { code := 400, body := .value (.text text) }

/-- The reply to a request. -/
def replyTo (r : Request) : Work Reply := do
  match preflight? (← get).terms.origins r with
  | some reply => return reply
  | none => answer r

/-- The id of a request: its own, or a new one. -/
def requestId (r : Request) : Work String :=
  match r.header? "x-request-id" with
  | none | some "" => Desk.freshRequest
  | some id => return id

/-- A character of a path as entries tell it: what would end the path is spelled out, and what
breaks a line is left out. -/
def toldChar (c : Char) : List Char :=
  if c = '?' then "%3F".toList
  else if c = '#' then "%23".toList
  else if c = '\\' then "%5C".toList
  else if c = '\n' ∨ c = '\r' ∨ c = '\t' then []
  else [c]

/-- The path as entries tell it. -/
def toldPath (path : String) : String :=
  String.ofList (path.toList.flatMap toldChar)

/-- The entry about a request and its reply, which `correlate_requests` makes. -/
def accessEntry (r : Request) (code : Nat) : Journal.Entry :=
  let path := toldPath r.path
  { level := "INFO", logger := "loan_simulator.api.access"
    message := .text (r.method ++ " " ++ path ++ " " ++ Value.intText code)
    marks := Journal.Marks.substantial
      { action := .text "http_request", resource := .text path
        extra := .record [("status_code", .int code),
          ("duration_ms", .float (Binary64.ofInt 0))] } }

/-- A reply with the id of its request, unless something has gone wrong. -/
structure Served where
  id : Option String
  /-- The id that entries give, which the request has in any case. -/
  correlation : String
  reply : Reply
deriving Repr

/-- What entries say, without their times. -/
def Served.told (s : Served) : List Fields :=
  s.reply.entries.map fun e => e.body (.text s.correlation)

/-- The reply as it is sent: one to a question for headers alone has no body. -/
def Reply.sentTo (reply : Reply) (r : Request) : Reply :=
  if r.method = "HEAD" then { reply with body := .nothing } else reply

/-- The entries of a reply that can be made at a time and dated. -/
def entriesAt (clock : Stamp) (es : List Journal.Entry) : List Journal.Entry :=
  if clock.remeasured?.isSome then es else []

/-- What is served where something has gone wrong behind these entries. -/
def servedBroken (r : Request) (id : String) (entries : List Journal.Entry) : Served :=
  { id := none, correlation := id, reply := { Reply.broken.sentTo r with entries } }

/-- What is served for a reply: it is sent if it can be and the time can be measured. -/
def served (r : Request) (id : String) (clock : Stamp) (reply : Reply) : Served :=
  if reply.body.isSendable && clock.isMeasurable then
    let entries := entriesAt clock (reply.entries ++ [accessEntry r reply.code])
    { id := some id, correlation := id, reply := { reply.sentTo r with entries } }
  else servedBroken r id (entriesAt clock reply.entries)

/-- Serves a request, whatever comes of it (`correlate_requests`). -/
def serve (r : Request) : Work Served := do
  let id ← requestId r
  let clock ← Desk.now
  tryCatch (do return served r id clock (← replyTo r)) fun _ => return servedBroken r id []

end Web
end LoanDesk
