import LoanDesk.Desk.Accounts
import LoanDesk.Settings

/-
# Opening a desk

A desk is opened by its settings: the kind of its store, its terms, and, if wanted, the
two users that are there from the start.

Key definitions: `Settings.terms`, `Desk.ofSettings`, `Desk.seed`.
-/

namespace LoanDesk

/-- The terms that settings set. -/
def Settings.terms (s : Settings) : Desk.Terms :=
  { limits := s.limits
    tokens := {
      secret := .text s.tokenSecret
      issuer := .text s.tokenIssuer
      days := s.tokenDays
      algorithm := s.tokenAlgorithm }
    passwordLeast := s.passwordLeast
    origins := s.corsOrigins }

namespace Desk

/-- A desk with an empty store, set up by settings (`LoanSimulatorSystem`). -/
def ofSettings (s : Settings) (clock : Stamp) : Except Fault Desk := do
  let kind ← Storage.Kind.ofName (.text s.storageBackend) (.text s.databasePath)
  return { terms := s.terms, storage := .ofKind kind, clock }

/-- The users that are there from the start (`LoanSimulatorSystem._seed_demo_users`). -/
def seed (s : Settings) : Work Unit := do
  if s.seedDemoUsers then
    let _ ← ensureUser (.text "System Administrator") (.text s.adminEmail) (.text s.adminPassword)
      (.bool true)
    let _ ← ensureUser (.text "Demo User") (.text s.demoEmail) (.text s.demoPassword) (.bool false)

end Desk
end LoanDesk
