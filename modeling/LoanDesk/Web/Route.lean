import LoanDesk.Web.Message

/-
# Routes

A path offers routes by method; where two routes fit one method the first counts, so
the fixed names under the loans go before the id of a loan. A line break at the end of a
path is passed over unless it belongs to the id of a loan. A path that offers nothing
but would without the slashes at its end is sent there.

Key definitions: `Web.Route`, `Web.Route.offers`, `Web.Destination`,
`Web.destination`.
-/

namespace LoanDesk
namespace Web

/-- What can be asked for. -/
inductive Route where
  /-- The pages about the site itself. -/
  | manual
  | home
  | health
  | register
  | login
  | me
  | createLoan
  | listLoans
  | myLoans
  | calculate
  | schedule
  | showLoan (id : String)
  | deleteLoan (id : String)
  | reviewLoan (id : String)
deriving DecidableEq, Repr

namespace Route

/-- The path without one line break at its end. -/
def withoutBreak (path : List Char) : List Char :=
  if path.getLast? = some '\n' then path.dropLast else path

/-- The routes of a path that has a meaning of its own. -/
def fixed (path : List Char) : List (String × Route) :=
  match (parts '/' path).map String.ofList with
  | ["", "docs"] | ["", "docs", "oauth2-redirect"] | ["", "redoc"] | ["", "openapi.json"] =>
    [("GET", .manual), ("HEAD", .manual)]
  | ["", ""] => [("GET", .home)]
  | ["", "health"] => [("GET", .health)]
  | ["", "api", "auth", "register"] => [("POST", .register)]
  | ["", "api", "auth", "login"] => [("POST", .login)]
  | ["", "api", "auth", "me"] => [("GET", .me)]
  | ["", "api", "loans"] => [("POST", .createLoan), ("GET", .listLoans)]
  | ["", "api", "loans", "my-loans"] => [("GET", .myLoans)]
  | ["", "api", "loans", "calculate"] => [("POST", .calculate)]
  | ["", "api", "loans", "schedule"] => [("POST", .schedule)]
  | ["", "api", "loans", id, "review"] => if id = "" then [] else [("PUT", .reviewLoan id)]
  | _ => []

/-- The routes of a path that ends in the id of a loan. -/
def ofLoan (path : List Char) : List (String × Route) :=
  match (parts '/' path).map String.ofList with
  | ["", "api", "loans", id] =>
    if id = "" then [] else [("GET", .showLoan id), ("DELETE", .deleteLoan id)]
  | _ => []

/-- The routes of a path, by method. -/
def offers (path : String) : List (String × Route) :=
  fixed (withoutBreak path.toList) ++ ofLoan path.toList

end Route

/-- Where a request goes. -/
inductive Destination where
  | route (r : Route)
  | otherMethod
  | elsewhere
  | nowhere
deriving DecidableEq, Repr

/-- The path without the slashes at its end. -/
def withoutSlashes (path : String) : String :=
  String.ofList (path.toList.reverse.dropWhile (· == '/')).reverse

/-- Where a method and a path lead. -/
def destination (method path : String) : Destination :=
  match (Route.offers path).find? (fun o => o.1 == method) with
  | some o => .route o.2
  | none =>
    let shorter := withoutSlashes path
    if !(Route.offers path).isEmpty then .otherMethod
    else if shorter ≠ path ∧ !(Route.offers shorter).isEmpty then .elsewhere
    else .nowhere

end Web
end LoanDesk
