import LoanDesk.Form
import LoanDesk.Json.Parser
import LoanDesk.Loan.Request

/-
# Settings

The desk is set up by named settings, each with a standard value. A setting given by
hand counts before one from the environment, where its name has a mark of its own in
front. Upper and lower case are alike in names, unless the search is told otherwise by
controls, which are given by hand among the settings. Names given by hand must be
known; unknown names in the environment are no concern of the desk. A status for a
whole number is left as its word, which shows only where the number is needed.

Key definitions: `Settings`, `Settings.Search`, `Settings.ofEnvironment`,
`Settings.read`, `Settings.limits`.
-/

namespace LoanDesk

/-- How a desk is set up (`LoanSimulatorConfig`). -/
structure Settings where
  storageBackend : String := "sqlite"
  databasePath : String := "loan_simulator.db"
  apiHost : String := "0.0.0.0"
  apiPort : Value := .int 8090
  corsOrigins : List String := ["http://localhost:5173"]
  tokenSecret : String := "change-me-in-production-please-use-a-long-random-key"
  tokenIssuer : String := "BankLoanSimulator"
  tokenDays : Value := .int 30
  tokenAlgorithm : String := "HS256"
  passwordLeast : Value := .int 6
  logLevel : String := "INFO"
  mostAmount : Decimal := Decimal.ofNat 100000000
  mostRate : Decimal := Decimal.ofNat 50
  mostMonths : Value := .int 240
  seedDemoUsers : Bool := true
  adminEmail : String := "admin@test.com"
  adminPassword : String := "admin123"
  demoEmail : String := "user@example.com"
  demoPassword : String := "User123!"
deriving Repr

namespace Settings

/-- The settings that hold unless others are given. -/
def standard : Settings := {}

/-- The names of the settings, in order. -/
def names : List String := [
  "storage_backend", "database_path", "api_host", "api_port", "cors_origins", "jwt_secret",
  "jwt_issuer", "jwt_expiry_days", "jwt_algorithm", "password_min_length", "log_level",
  "max_loan_amount", "max_interest_rate", "max_term_months", "seed_demo_users", "admin_email",
  "admin_password", "demo_user_email", "demo_user_password"]

/-- The settings as a record. -/
def record (s : Settings) : Fields := [
  ("storage_backend", .text s.storageBackend),
  ("database_path", .text s.databasePath),
  ("api_host", .text s.apiHost),
  ("api_port", s.apiPort),
  ("cors_origins", .list (s.corsOrigins.map .text)),
  ("jwt_secret", .text s.tokenSecret),
  ("jwt_issuer", .text s.tokenIssuer),
  ("jwt_expiry_days", s.tokenDays),
  ("jwt_algorithm", .text s.tokenAlgorithm),
  ("password_min_length", s.passwordLeast),
  ("log_level", .text s.logLevel),
  ("max_loan_amount", .decimal (.finite s.mostAmount)),
  ("max_interest_rate", .decimal (.finite s.mostRate)),
  ("max_term_months", s.mostMonths),
  ("seed_demo_users", .bool s.seedDemoUsers),
  ("admin_email", .text s.adminEmail),
  ("admin_password", .text s.adminPassword),
  ("demo_user_email", .text s.demoEmail),
  ("demo_user_password", .text s.demoPassword)]

/-- The limits for requests that the settings set (`LoanSimulatorConfig.loan_limits`). -/
def limits (s : Settings) : Loan.Limits :=
  { mostAmount := .decimal (.finite s.mostAmount), mostRate := .decimal (.finite s.mostRate),
    mostMonths := s.mostMonths }

/-! ### The search for settings -/

/-- How settings are searched for. -/
structure Search where
  /-- What names in the environment start with. -/
  mark : String := "LOANSIM_"
  caseMatters : Bool := false
  /-- Empty variables count as none. -/
  passesEmpty : Bool := false
  /-- The word that stands for null in the environment. -/
  nullWord : Option String := none
  /-- What stands between the name of a setting and that of a part of it. -/
  joint : Option String := none
deriving DecidableEq, Repr

/-- The names that control a search or other ways of being set up, and are no settings. -/
def controls : List String := [
  "_case_sensitive", "_nested_model_default_partial_update", "_env_prefix", "_env_prefix_target",
  "_env_file", "_env_file_encoding", "_env_ignore_empty", "_env_nested_delimiter",
  "_env_nested_max_split", "_env_parse_none_str", "_env_parse_enums", "_cli_prog_name",
  "_cli_parse_args", "_cli_settings_source", "_cli_parse_none_str", "_cli_hide_none_type",
  "_cli_avoid_json", "_cli_enforce_required", "_cli_use_class_docs_for_groups",
  "_cli_exit_on_error", "_cli_prefix", "_cli_flag_prefix_char", "_cli_implicit_flags",
  "_cli_ignore_unknown_args", "_cli_kebab_case", "_cli_shortcuts", "_secrets_dir",
  "_build_sources"]

namespace Search

/-- The truth of a control; null leaves it as it is. -/
def truthOr (otherwise : Bool) : Value → Bool
  | .null => otherwise
  | v => v.truthy

/-- The text of a control, if it is one. -/
def text? : Value → Option String
  | .text s => some s
  | _ => none

/-- The search that controls among given values ask for. -/
def ofGiven (given : Fields) : Search :=
  let std : Search := {}
  { mark := (text? (Fields.get given "_env_prefix")).getD std.mark
    caseMatters := truthOr std.caseMatters (Fields.get given "_case_sensitive")
    passesEmpty := truthOr std.passesEmpty (Fields.get given "_env_ignore_empty")
    nullWord := text? (Fields.get given "_env_parse_none_str")
    joint := text? (Fields.get given "_env_nested_delimiter") }

/-- A name as the search sees it. -/
def seen (search : Search) (name : String) : String :=
  if search.caseMatters then name else Text.lowered name

/-- The last value that the environment has for the name of a setting. -/
def spelled? (search : Search) (environment : List (String × String)) (name : String) :
    Option String :=
  let wanted := search.seen (search.mark ++ name)
  (environment.reverse.find? fun p =>
    search.seen p.1 == wanted && !(search.passesEmpty && p.2 == "")).map (·.2)

/-- The parts of a setting that the environment has by names of their own. -/
def spelledParts (search : Search) (environment : List (String × String)) (name : String) :
    Fields :=
  match search.joint with
  | none | some "" => []
  | some joint =>
    let start := (search.seen (search.mark ++ name) ++ joint).toList
    environment.filterMap fun p =>
      let spelled := (search.seen p.1).toList
      if start.isPrefixOf spelled && !(search.passesEmpty && p.2 == "") then
        some (String.ofList (spelled.drop start.length), .text p.2)
      else none

/-- The value given by hand for the name of a setting: under the name itself, or under one that is
seen as the same. -/
def given? (search : Search) (given : Fields) (name : String) : Option Value :=
  match Fields.get? given name with
  | some v => some v
  | none => (given.find? fun f => search.seen f.1 == name).map (·.2)

/-- The value of a setting that has no variable of its own: only the list of origins can be put
together from parts. -/
def partwise? (search : Search) (environment : List (String × String)) (name : String) :
    Option Value :=
  if name ≠ "cors_origins" || (search.spelledParts environment name).isEmpty then none
  else some (.record (search.spelledParts environment name))

/-- The value of a variable: the list of origins is written in JSON, all others are texts. -/
def value? (search : Search) (name value : String) : Except Fault (Option Value) :=
  if search.nullWord = some value then .ok (if name = "cors_origins" then none else some .null)
  else if name = "cors_origins" then
    match Json.read value.toList with
    | .error _ => .error .setting
    | .ok .null => .ok none
    | .ok v => .ok (some v)
  else .ok (some (.text value))

end Search

/-- The settings that these names have in the environment. -/
def ofEnvironment (search : Search) (environment : List (String × String)) :
    List String → Except Fault Fields
  | [] => .ok []
  | name :: rest => do
    let here ←
      match search.spelled? environment name with
      | none => pure (search.partwise? environment name)
      | some value => search.value? name value
    let others ← ofEnvironment search environment rest
    match here with
    | some v => return (name, v) :: others
    | none => return others

/-- The text can stand in an environment. -/
def isStorable (s : String) : Bool :=
  !s.toList.any fun c => c.toNat == 0

/-- The environment can be: its names have no sign of equality in them. -/
def checkEnvironment (environment : List (String × String)) : Except Fault Unit :=
  if environment.all fun p => isStorable p.1 && !p.1.toList.contains '=' && isStorable p.2 then
    .ok ()
  else .error .noMeaning

/-- No name is unknown. -/
def allKnown (search : Search) (given : Fields) : Form.Checked Unit :=
  match given.filter fun f => !names.contains (search.seen f.1) && !controls.contains f.1 with
  | [] => .ok ()
  | unknown => .error (unknown.map fun f => ⟨"extra_forbidden", [.text f.1], f.2⟩)

/-- The setting of a name: the one given by hand, or the one from the environment. -/
def pick (search : Search) (given found : Fields) (name : String) : Option Value :=
  match search.given? given name with
  | some v => some v
  | none => Fields.get? found name

/-! ### Reading the settings -/

/-- Where the desk keeps its records, and how it is reached. -/
def readPlaces (get : String → Option Value) : Form.Checked Settings := do
  let std := standard
  let text (name : String) (d : String) := Form.optional name (get name) Form.text d
  let (a, b, c, d, e) ←
    Form.both (text "storage_backend" std.storageBackend) <|
    Form.both (text "database_path" std.databasePath) <|
    Form.both (text "api_host" std.apiHost) <|
    Form.both (Form.optional "api_port" (get "api_port") Form.wholeOrWord std.apiPort)
      (Form.optional "cors_origins" (get "cors_origins") Form.texts std.corsOrigins)
  return { storageBackend := a, databasePath := b, apiHost := c, apiPort := d, corsOrigins := e }

/-- Tokens, passwords and logging. -/
def readSecurity (get : String → Option Value) (s : Settings) : Form.Checked Settings := do
  let text (name : String) (d : String) := Form.optional name (get name) Form.text d
  let whole (name : String) (d : Value) := Form.optional name (get name) Form.wholeOrWord d
  let (a, b, c, d, e, f) ←
    Form.both (text "jwt_secret" s.tokenSecret) <|
    Form.both (text "jwt_issuer" s.tokenIssuer) <|
    Form.both (whole "jwt_expiry_days" s.tokenDays) <|
    Form.both (text "jwt_algorithm" s.tokenAlgorithm) <|
    Form.both (whole "password_min_length" s.passwordLeast)
      (text "log_level" s.logLevel)
  return { s with tokenSecret := a, tokenIssuer := b, tokenDays := c, tokenAlgorithm := d,
                  passwordLeast := e, logLevel := f }

/-- The limits for requests. -/
def readLimits (get : String → Option Value) (s : Settings) : Form.Checked Settings := do
  let amount (name : String) (d : Decimal) := Form.optional name (get name) Form.amount d
  let (a, b, c) ←
    Form.both (amount "max_loan_amount" s.mostAmount) <|
    Form.both (amount "max_interest_rate" s.mostRate)
      (Form.optional "max_term_months" (get "max_term_months") Form.wholeOrWord s.mostMonths)
  return { s with mostAmount := a, mostRate := b, mostMonths := c }

/-- The users that are there from the start. -/
def readSeeds (get : String → Option Value) (s : Settings) : Form.Checked Settings := do
  let text (name : String) (d : String) := Form.optional name (get name) Form.text d
  let (a, b, c, d, e) ←
    Form.both
      (Form.optional "seed_demo_users" (get "seed_demo_users") Form.truth s.seedDemoUsers) <|
    Form.both (text "admin_email" s.adminEmail) <|
    Form.both (text "admin_password" s.adminPassword) <|
    Form.both (text "demo_user_email" s.demoEmail)
      (text "demo_user_password" s.demoPassword)
  return { s with seedDemoUsers := a, adminEmail := b, adminPassword := c, demoEmail := d,
                  demoPassword := e }

/-- The problems of a reading. -/
def problems {α : Type} : Form.Checked α → List Problem
  | .ok _ => []
  | .error ps => ps

/-- The settings for named values, or all that is wrong with them. -/
def ofValues (get : String → Option Value) (known : Form.Checked Unit) :
    Form.Checked Settings :=
  let found := problems (readPlaces get) ++ problems (readSecurity get standard) ++
    problems (readLimits get standard) ++ problems (readSeeds get standard) ++ problems known
  if found.isEmpty then do
    readSeeds get (← readLimits get (← readSecurity get (← readPlaces get)))
  else .error found

/-- The settings given by hand and by the environment. -/
def read (given : Fields) (environment : List (String × String)) : Except Fault Settings := do
  checkEnvironment environment
  let search := Search.ofGiven given
  let found ← ofEnvironment search environment names
  match ofValues (pick search given found) (allKnown search given) with
  | .ok s => return s
  | .error ps => throw (.malformed ps)

end Settings
end LoanDesk
