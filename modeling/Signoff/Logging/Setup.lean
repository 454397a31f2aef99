import Signoff.Fault
import Signoff.Text.Case

/-! # Setup of the log

Which records the log keeps and how it writes them. In production it writes objects from the level
`INFO` on, otherwise lines for people from the level `DEBUG` on, unless the settings say something
else.
-/

namespace Signoff

/-- How the log writes its records. -/
inductive LogFormat where
  | objects
  | lines
deriving DecidableEq, Repr

/-- The setup of the log. -/
structure LogSetup where
  /-- The lowest level that is kept. -/
  level : String
  format : LogFormat
deriving DecidableEq, Repr

namespace LogSetup

/-- Every word for a level, with the name of the level. -/
def levels : List (String × String) :=
  [("DEBUG", "DEBUG"), ("INFO", "INFO"), ("WARNING", "WARNING"), ("WARN", "WARNING"),
    ("ERROR", "ERROR"), ("CRITICAL", "CRITICAL"), ("FATAL", "CRITICAL"), ("NOTSET", "NOTSET")]

/-- A setting that has to be a text, or the given one where it is empty. -/
def textSetting (settings : Fields) (name default use : String) : Result String :=
  match settings.get name with
  | .text s => .ok (if s.isEmpty then default else s)
  | v => if v.truthy then .error (Fault.noAttribute v use) else .ok default

/-- The setup that the settings ask for. An unknown level counts as `INFO`. -/
def ofSettings (settings : Fields) : Result LogSetup := do
  let isProduction := !(settings.get "DEBUG").truthy && !(settings.get "TESTING").truthy
  let format ← textSetting settings "LOG_FORMAT" (if isProduction then "json" else "readable") "lower"
  let level ← textSetting settings "LOG_LEVEL" (if isProduction then "INFO" else "DEBUG") "upper"
  pure
    { level := (levels.lookup (Text.upper level)).getD "INFO"
      format := if Text.lower format == "json" then .objects else .lines }

end LogSetup
end Signoff
