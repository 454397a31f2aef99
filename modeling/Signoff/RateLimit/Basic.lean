import Signoff.Value.Basic

/-! # Limits of rates

How often each part of the interface may be used. Nothing is limited in tests, or when the settings
switch the limits off.
-/

namespace Signoff

/-- A limit on a part of the interface, or none. -/
inductive RateLimit where
  | limit (rate target : String)
  | exempt (target : String)
deriving DecidableEq, Repr

namespace RateLimit

/-- The limits of whole areas. -/
def ofAreas : List (String × String) :=
  ["approvals", "automations", "items", "notifications"].map fun area => (area, "60/minute")

/-- The limits of single operations. -/
def ofOperations : List (String × String) :=
  [("approvals.transition_approval", "30/minute"), ("automations.test_automation", "20/minute")]

/-- The limits out of a table for those targets that are there. -/
def limitsOn (targets : List String) (table : List (String × String)) : List RateLimit :=
  (table.filter fun entry => targets.contains entry.1).map fun entry => .limit entry.2 entry.1

/-- Are the limits in force? -/
def inForce (settings : Fields) : Bool :=
  !(settings.get "TESTING").truthy
    && ((settings.get? "RATELIMIT_ENABLED").getD (.bool true)).truthy

/-- The limits on the areas and operations that are there. -/
def all (settings : Fields) (areas operations : List String) : List RateLimit :=
  if inForce settings then
    limitsOn areas ofAreas ++ limitsOn operations ofOperations
      ++ (if areas.contains "health" then [.exempt "health"] else [])
  else []

end RateLimit
end Signoff
