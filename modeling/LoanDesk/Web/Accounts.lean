import LoanDesk.Web.Access

/-
# Accounts on the web

Whoever registers or logs in gets a token; the caller can ask who the caller is.

Key definitions: `Web.register`, `Web.login`, `Web.showCaller`.
-/

namespace LoanDesk
namespace Web

/-- Registers a user (`POST /register`), by `Desk.register`. -/
def register (r : Request) : Work Reply :=
  withContent r fun content =>
  withBody content Registration.read fun form => do
    match ← attempt (Desk.register form.name form.email form.password) with
    | .error refusal =>
      return (Reply.refusal refusal).noting
        (entry "WARNING" ("Registration failed: " ++ refusal.message) .null "register_failed"
          "auth")
    | .ok pass =>
      return Reply.noting { code := 201, body := .value (.record pass.record) }
        (entry "INFO" "User registered" pass.user.id "register" "auth")

/-- Logs a user in (`POST /login`), by `Desk.login`. -/
def login (r : Request) : Work Reply :=
  withContent r fun content =>
  withBody content Credentials.read fun form => do
    match ← attempt (Desk.login form.email form.password) with
    | .error refusal =>
      return (Reply.saying 401 refusal.message).noting
        (entry "WARNING" ("Authentication failed: " ++ refusal.message) .null "login_failed"
          "auth")
    | .ok pass =>
      return (Reply.ok (.record (pass.record ++ [("token_type", .text "bearer")]))).noting
        (entry "INFO" "User authenticated successfully" pass.user.id "login" "auth")

/-- The caller with the numbers of the caller's loans (`get_me`). -/
def showCaller (r : Request) : Work Reply :=
  withCaller r fun u => do
    let summary ← Desk.summarize u.id
    return .ok (.record (summary.record ++ [("role", .text u.role)]))

end Web
end LoanDesk
