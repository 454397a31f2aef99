import Signoff.Condition.Form
import Signoff.Workflow.Level

/-! # Workflows

The workflow of a board: which levels its items pass, who approves on each of them, and the rules by
which an item takes another route.

* `Workflow` holds the levels in their order, each at most once, and the rules.
* `Workflow.toValue` writes a workflow the way it is kept.
* `Workflow.standard` is the workflow of boards that have none of their own.
-/

namespace Signoff

/-- One level of a workflow. -/
structure LevelConfig where
  level : Level
  name : String := ""
  approvers : List String := []
  isOptional : Bool := false
  isParallel : Bool := false
  /-- How many approvals a parallel level needs; one of every approver if this is not given. -/
  requiredApprovals : Option Int := none
  /-- Hours until an approval on this level is overdue. -/
  timeoutHours : Option Float := none
  /-- Who is told about overdue approvals. -/
  escalationUser : Option String := none
deriving Inhabited

/-- What a rule does. -/
inductive Routing where
  | requireLevel
  | skipLevel
  | autoApprove
  | assignApprover
deriving DecidableEq, Repr

namespace Routing

/-- Every routing with its word. -/
def table : List (String × Routing) :=
  [("require_level", .requireLevel), ("skip_level", .skipLevel), ("auto_approve", .autoApprove),
    ("assign_approver", .assignApprover)]

/-- The word for a routing. -/
def word : Routing → String
  | .requireLevel => "require_level"
  | .skipLevel => "skip_level"
  | .autoApprove => "auto_approve"
  | .assignApprover => "assign_approver"

end Routing

/-- The action of a rule, with everything that was written. -/
structure RuleAction where
  routing : Routing
  level : Option Level := none
  skipTo : Option Level := none
  approvers : Option (List String) := none

/-- What a rule is about. -/
inductive RuleTopic where
  | amount
  | status
  | custom
deriving DecidableEq, Repr

namespace RuleTopic

/-- Every topic with its word. -/
def table : List (String × RuleTopic) :=
  [("amount", .amount), ("status", .status), ("custom", .custom)]

/-- The word for a topic. -/
def word : RuleTopic → String
  | .amount => "amount"
  | .status => "status"
  | .custom => "custom"

end RuleTopic

/-- A rule: where its condition holds of an item, its action applies. -/
structure Rule where
  id : String
  name : String
  topic : RuleTopic := .custom
  condition : ConditionForm
  action : RuleAction
  priority : Int := 0
  enabled : Bool := true

/-- A workflow. -/
structure Workflow where
  name : String
  description : String := ""
  levels : List LevelConfig
  rules : List Rule := []

/-! ## Writing -/

/-- A field that is left out where there is nothing to write. -/
def optionalField {α : Type} (name : String) (write : α → Value) : Option α → Fields
  | some x => [(name, write x)]
  | none => []

/-- A level as a text. -/
def Level.toValue (l : Level) : Value := .text l.name

/-- A level of a workflow as an object. -/
def LevelConfig.toValue (c : LevelConfig) : Value :=
  .object (
    [("level", c.level.toValue), ("name", .text c.name), ("approvers", .ofTexts c.approvers),
      ("isOptional", .bool c.isOptional), ("isParallel", .bool c.isParallel)]
    ++ optionalField "requiredApprovals" .int c.requiredApprovals
    ++ optionalField "timeoutHours" .float c.timeoutHours
    ++ optionalField "escalationUserId" .text c.escalationUser)

/-- The action of a rule as an object. -/
def RuleAction.toValue (a : RuleAction) : Value :=
  .object ([("type", .text a.routing.word)]
    ++ optionalField "level" Level.toValue a.level
    ++ optionalField "skipToLevel" Level.toValue a.skipTo
    ++ optionalField "approverIds" .ofTexts a.approvers)

/-- A rule as an object. -/
def Rule.toValue (r : Rule) : Value :=
  .object [("id", .text r.id), ("name", .text r.name), ("type", .text r.topic.word),
    ("condition", r.condition.toValue), ("action", r.action.toValue),
    ("priority", .int r.priority), ("enabled", .bool r.enabled)]

namespace Workflow

/-- The levels as a list. -/
def levelsValue (w : Workflow) : Value := .list (w.levels.map LevelConfig.toValue)

/-- The rules as a list. -/
def rulesValue (w : Workflow) : Value := .list (w.rules.map Rule.toValue)

/-- The fields of a workflow. -/
def fields (w : Workflow) : Fields :=
  [("name", .text w.name), ("description", .text w.description), ("levels", w.levelsValue),
    ("rules", w.rulesValue)]

/-- A workflow as an object. -/
def toValue (w : Workflow) : Value := .object w.fields

/-- The configuration of a level. -/
def configOf? (w : Workflow) (l : Level) : Option LevelConfig :=
  w.levels.find? fun c => c.level == l

/-- The configuration of the level with the given name. -/
def configNamed? (w : Workflow) (name : String) : Option LevelConfig :=
  (Level.ofName? name).bind w.configOf?

/-- The workflow of boards that have none of their own: all three levels, the last one parallel with
a single approval, and one rule for large amounts. -/
def standard : Workflow where
  name := "Default Approval Workflow"
  description := "Standard 3-level approval process"
  levels := [
    { level := .first, name := "Level 1" },
    { level := .second, name := "Level 2" },
    { level := .third, name := "Level 3 - Finance", isParallel := true,
      requiredApprovals := some 1 }]
  rules := [
    { id := "rule-amount-10k"
      name := "Amount > 10,000 requires Level 1"
      topic := .amount
      condition := .node (.test .greaterThan) (some "total") (.int 10000) none
      action := { routing := .requireLevel, level := some .first }
      priority := 100 }]

end Workflow
end Signoff
