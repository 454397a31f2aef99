import Signoff.Schema.Scalar
import Signoff.Workflow.Basic

/-! # Reading workflows

The checks that a written workflow has to pass, and the workflow that it then is. Nothing unknown is
accepted, a test needs a field, an action needs what it works with, and every level is configured
at most once.
-/

namespace Signoff

/-- The fields of conditions. -/
def ConditionForm.keys : List Key :=
  [.word "type", .word "field", .word "value", .word "conditions"]

namespace ConditionForm

/-- Junctions always have parts, and a test needs a field. -/
def settle : ConditionForm → Checked ConditionForm
  | .node type field value parts =>
    match type with
    | .test _ =>
      if field.any (!·.isEmpty) then .sound (.node type field value parts)
      else Checked.ruleBroken ("'" ++ type.word ++ "' condition requires a field")
    | _ => .sound (.node type field value (some (parts.getD [])))

mutual

/-- Reads a condition. -/
def read : Value → Checked ConditionForm
  | .object fields =>
    (((ConditionForm.node <$> Schema.required fields (.word "type") (Schema.oneOf ConditionType.table)
        <*> Schema.optional fields (.word "field") none (Schema.nullable Schema.text)
        <*> Schema.optional fields (.word "value") .null Schema.any
        <*> (readParts fields).below "conditions")
      <* Schema.noOthers fields keys)).andThen settle
  | _ => Checked.problem "Input should be a valid dictionary or instance of Condition"

/-- Reads the parts of a junction, which may be missing or null. -/
def readParts : List (String × Value) → Checked (Option (List ConditionForm))
  | [] => .sound none
  | (name, v) :: rest => if name = "conditions" then readPartsValue v else readParts rest

/-- Reads the list of parts. -/
def readPartsValue : Value → Checked (Option (List ConditionForm))
  | .null => .sound none
  | .list vs => some <$> readFrom 0 vs
  | _ => Checked.problem "Input should be a valid list"

/-- Reads the parts from the given position on. -/
def readFrom : Nat → List Value → Checked (List ConditionForm)
  | _, [] => .sound []
  | n, v :: rest =>
    List.cons <$> (read v).below (NumberText.natText n) <*> readFrom (n + 1) rest

end

end ConditionForm

namespace LevelConfig

/-- The fields of a level. -/
def keys : List Key :=
  [.word "level", .word "name", .word "approvers", ⟨"isOptional", "is_optional"⟩,
    ⟨"isParallel", "is_parallel"⟩, ⟨"requiredApprovals", "required_approvals"⟩,
    ⟨"timeoutHours", "timeout_hours"⟩, ⟨"escalationUserId", "escalation_user_id"⟩]

/-- Reads a level. -/
def read : Value → Checked LevelConfig :=
  Schema.object "LevelConfig" keys fun fields =>
    LevelConfig.mk <$> Schema.required fields (.word "level") (Schema.oneOf Level.table)
      <*> Schema.optional fields (.word "name") "" Schema.text
      <*> Schema.optional fields (.word "approvers") [] (Schema.list Schema.text)
      <*> Schema.optional fields ⟨"isOptional", "is_optional"⟩ false Schema.bool
      <*> Schema.optional fields ⟨"isParallel", "is_parallel"⟩ false Schema.bool
      <*> Schema.optional fields ⟨"requiredApprovals", "required_approvals"⟩ none
        (Schema.nullable (Schema.intFrom 1))
      <*> Schema.optional fields ⟨"timeoutHours", "timeout_hours"⟩ none
        (Schema.nullable Schema.positiveFloat)
      <*> Schema.optional fields ⟨"escalationUserId", "escalation_user_id"⟩ none
        (Schema.nullable Schema.text)

end LevelConfig

namespace RuleAction

/-- The fields of an action. -/
def keys : List Key :=
  [.word "type", .word "level", ⟨"skipToLevel", "skip_to_level"⟩, ⟨"approverIds", "approver_ids"⟩]

/-- An action has what it works with. -/
def settle (a : RuleAction) : Checked RuleAction :=
  if a.routing == .requireLevel && a.level.isNone then
    Checked.ruleBroken "require_level needs 'level'"
  else if a.routing == .skipLevel && a.skipTo.isNone then
    Checked.ruleBroken "skip_level needs 'skipToLevel'"
  else if a.routing == .assignApprover && (a.level.isNone || (a.approvers.getD []).isEmpty) then
    Checked.ruleBroken "assign_approver needs 'level' and 'approverIds'"
  else .sound a

/-- Reads an action. -/
def read (v : Value) : Checked RuleAction :=
  (Schema.object "RuleAction" keys (fun fields =>
    RuleAction.mk <$> Schema.required fields (.word "type") (Schema.oneOf Routing.table)
      <*> Schema.optional fields (.word "level") none (Schema.nullable (Schema.oneOf Level.table))
      <*> Schema.optional fields ⟨"skipToLevel", "skip_to_level"⟩ none
        (Schema.nullable (Schema.oneOf Level.table))
      <*> Schema.optional fields ⟨"approverIds", "approver_ids"⟩ none
        (Schema.nullable (Schema.list Schema.text))) v).andThen settle

end RuleAction

namespace Rule

/-- The fields of a rule. -/
def keys : List Key :=
  [.word "id", .word "name", .word "type", .word "condition", .word "action", .word "priority",
    .word "enabled"]

/-- A rule keeps to the conditions that rules may use. -/
def settle (r : Rule) : Checked Rule :=
  if r.condition.usesExtended then
    Checked.ruleBroken ("rule conditions support only: " ++ ", ".intercalate ConditionType.ruleWords)
  else .sound r

/-- Reads a rule. -/
def read (v : Value) : Checked Rule :=
  (Schema.object "ApprovalRule" keys (fun fields =>
    Rule.mk <$> Schema.required fields (.word "id") Schema.text
      <*> Schema.required fields (.word "name") Schema.text
      <*> Schema.optional fields (.word "type") .custom (Schema.oneOf RuleTopic.table)
      <*> Schema.required fields (.word "condition") ConditionForm.read
      <*> Schema.required fields (.word "action") RuleAction.read
      <*> Schema.optional fields (.word "priority") 0 Schema.int
      <*> Schema.optional fields (.word "enabled") true Schema.bool) v).andThen settle

end Rule

namespace Workflow

/-- The fields of a workflow. -/
def keys : List Key := [.word "name", .word "description", .word "levels", .word "rules"]

/-- Levels are configured once, and kept in their order. -/
def settle (w : Workflow) : Checked Workflow :=
  if (w.levels.map (·.level)).Nodup then
    .sound { w with levels := w.levels.mergeSort fun a b => a.level.index ≤ b.level.index }
  else Checked.ruleBroken "each level may be configured only once"

/-- Reads a workflow. -/
def read (v : Value) : Checked Workflow :=
  (Schema.object "WorkflowConfig" keys (fun fields =>
    Workflow.mk <$> Schema.required fields (.word "name") (Schema.boundedText 200)
      <*> Schema.optional fields (.word "description") "" Schema.text
      <*> Schema.required fields (.word "levels") (Schema.filledList LevelConfig.read)
      <*> Schema.optional fields (.word "rules") [] (Schema.list Rule.read)) v).andThen settle

/-- The workflow of a payload. -/
def ofPayload (payload : Value) : Result Workflow :=
  Schema.payload "Invalid workflow configuration" read payload

end Workflow
end Signoff
