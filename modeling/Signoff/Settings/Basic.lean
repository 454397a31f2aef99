import Signoff.Fault
import Signoff.Number.Read
import Signoff.Text.Case
import Signoff.Text.Kinds

/-! # Settings

The settings of the program, read from named texts of its environment. There are three modes:
development, testing and production; production needs the address of a database and a secret key.

* `Settings.read` gives the settings of a mode, or the fault that keeps the program from starting.
-/

namespace Signoff.Settings

/-- Named texts from outside. -/
abbrev Environment := List (String × String)

/-- How the program is run. -/
inductive Mode where
  | development
  | testing
  | production
deriving DecidableEq, Repr

/-- Every name of a mode. -/
def Mode.table : List (String × Mode) :=
  [("development", .development), ("testing", .testing), ("production", .production),
    ("default", .development)]

/-- A text of the environment, or the given one where there is none. -/
def textOf (env : Environment) (name default : String) : String := (env.lookup name).getD default

/-- A text of the environment as a yes or no. -/
def flagOf (env : Environment) (name default : String) : Value :=
  .bool (["1", "true", "yes"].contains (Text.lower (textOf env name default)))

/-- A text of the environment as an integer. -/
def intOf (env : Environment) (name default : String) : Result Value :=
  match NumberText.readInt? (textOf env name default) with
  | some n => .ok (.int n)
  | none => .error (.badValue "invalid literal for int()")

/-- A text of the environment as a number. -/
def floatOf (env : Environment) (name default : String) : Result Value :=
  match NumberText.readFloat? (textOf env name default) with
  | some x => .ok (.float x)
  | none => .error (.badValue "could not convert string to float")

/-- The words of a text between commas, white space around them aside. -/
def wordsOf (text : String) : List String :=
  ((text.splitOn ",").map Text.trim).filter fun w => !w.isEmpty

/-- The address of the database, where an old name of the protocol is replaced by the present one. -/
def databaseAddress (env : Environment) : Option String :=
  let address := textOf env "DATABASE_URL" ""
  if address.isEmpty then none
  else
    match address.splitOn "postgres://" with
    | first :: rest@(_ :: _) =>
      some (first ++ "postgresql://" ++ "postgres://".intercalate rest)
    | _ => some address

/-- The settings that all modes share. -/
def shared (env : Environment) : Result Fields := do
  let timeout ← floatOf env "WEBHOOK_TIMEOUT_SECONDS" "10"
  let reminder ← intOf env "APPROVAL_REMINDER_HOURS" "24"
  let deadline ← intOf env "APPROVAL_DEADLINE_ALERT_HOURS" "24"
  pure ((match env.lookup "SECRET_KEY" with
      | some key => [("SECRET_KEY", Value.text key)]
      | none => []) ++
    [("DEBUG", .bool false),
      ("TESTING", .bool false),
      ("SQLALCHEMY_TRACK_MODIFICATIONS", .bool false),
      ("AUTO_CREATE_TABLES", flagOf env "AUTO_CREATE_TABLES" "true"),
      ("SQLALCHEMY_ENGINE_OPTIONS",
        .object [("pool_pre_ping", .bool true), ("pool_recycle", .int 300)]),
      ("LOG_LEVEL", .text (textOf env "LOG_LEVEL" "")),
      ("LOG_FORMAT", .text (textOf env "LOG_FORMAT" "")),
      ("CORS_ORIGINS", .text (textOf env "CORS_ORIGINS" "*")),
      ("RATELIMIT_ENABLED", flagOf env "RATELIMIT_ENABLED" "true"),
      ("RATELIMIT_STORAGE_URI", .text (textOf env "RATELIMIT_STORAGE_URI" "memory://")),
      ("WEBHOOK_TIMEOUT_SECONDS", timeout),
      ("AUTOMATION_SCHEDULER_ENABLED", flagOf env "AUTOMATION_SCHEDULER_ENABLED" "true"),
      ("APPROVAL_ELEVATED_ROLES",
        .ofTexts (wordsOf (textOf env "APPROVAL_ELEVATED_ROLES" "owner,admin,finance"))),
      ("APPROVAL_REMINDER_HOURS", reminder),
      ("APPROVAL_DEADLINE_ALERT_HOURS", deadline)])

/-- What a mode sets in another way. -/
def ofMode (env : Environment) : Mode → Result Fields
  | .development => .ok
    [("DEBUG", .bool true),
      ("SQLALCHEMY_DATABASE_URI",
        .text ((databaseAddress env).getD "sqlite:///boardflow_dev.db"))]
  | .testing => .ok
    [("TESTING", .bool true),
      ("SQLALCHEMY_DATABASE_URI", .text (textOf env "TEST_DATABASE_URL" "sqlite:///:memory:")),
      ("SQLALCHEMY_ENGINE_OPTIONS", .object []),
      ("RATELIMIT_ENABLED", .bool false),
      ("AUTOMATION_SCHEDULER_ENABLED", .bool false),
      ("WEBHOOK_TIMEOUT_SECONDS", .float 2.0)]
  | .production =>
    match databaseAddress env with
    | none => .error (.broken "DATABASE_URL environment variable is required in production")
    | some address =>
      if (textOf env "SECRET_KEY" "").isEmpty then
        .error (.broken "SECRET_KEY environment variable must be set in production")
      else .ok
        [("SQLALCHEMY_DATABASE_URI", .text address),
          ("CORS_ORIGINS", .text (textOf env "CORS_ORIGINS" "")),
          ("SQLALCHEMY_ENGINE_OPTIONS", .object [("pool_pre_ping", .bool true),
            ("pool_size", .int 5), ("max_overflow", .int 10), ("pool_recycle", .int 300),
            ("pool_timeout", .int 20)])]

/-- The settings of the mode of this name. -/
def read (name : String) (env : Environment) : Result Fields := do
  let fields ← shared env
  match Mode.table.lookup name with
  | none => throw (.noField name)
  | some mode => do pure (Fields.setAll fields (← ofMode env mode))

/-- The settings of tests in an empty environment. -/
def forTests : Fields :=
  match read "testing" [] with
  | .ok fields => fields
  | .error _ => []

end Signoff.Settings
