import Signoff.Board.Basic
import Signoff.Trigger.Basic

/-! # Automations

An automation of a board runs its actions when its trigger matches an event and its conditions hold.
Every run leaves a row in a log.
-/

namespace Signoff

/-- An automation as it is kept. -/
structure Automation where
  id : Int
  boardId : Int
  name : String
  description : String
  trigger : Value
  conditions : Value
  actions : Value
  isActive : Bool
  createdBy : String
  createdAt : Moment
  updatedAt : Moment

/-- What became of an action. -/
structure ActionResult where
  /-- The kind of the action, as it was written. -/
  type : Value
  /-- Why it failed; nothing if it succeeded. -/
  failure : Option String

namespace ActionResult

/-- Did the action succeed? -/
def succeeded (r : ActionResult) : Bool := r.failure.isNone

/-- The result as an object. -/
def toValue (r : ActionResult) : Value :=
  .object ([("type", r.type), ("success", .bool r.succeeded)]
    ++ (match r.failure with | some reason => [("error", .text reason)] | none => []))

end ActionResult

/-- A run of an automation. -/
structure ExecutionLog where
  id : Int
  automationId : Int
  itemId : Int
  eventType : String
  status : String
  results : List ActionResult
  error : Option String
  executedAt : Moment

instance : Row Automation := ⟨Automation.id⟩
instance : Row ExecutionLog := ⟨ExecutionLog.id⟩

namespace Automation

/-- The automation as an object. -/
def toValue (a : Automation) : Value :=
  .object [("id", .int a.id), ("board_id", .int a.boardId), ("name", .text a.name),
    ("description", .text a.description), ("trigger", a.trigger), ("conditions", a.conditions),
    ("actions", a.actions.orElse (.list [])), ("is_active", .bool a.isActive),
    ("created_by", .text a.createdBy), ("created_at", a.createdAt.toValue),
    ("updated_at", a.updatedAt.toValue)]

/-- What the trigger has under `type`, the empty text where it has nothing. -/
def triggerType (a : Automation) : Result Value :=
  match a.trigger.orElse (.object []) with
  | .object fields => .ok ((Fields.get? fields "type").getD (.text ""))
  | v => .error (Fault.noAttribute v "get")

/-- Is the trigger a test of a date? -/
def hasDateTrigger (a : Automation) : Result Bool := do
  match ← a.triggerType with
  | .text word => pure ((TriggerKind.ofWord? word).any TriggerKind.isDate)
  | v => if v.isHashable then pure false else throw (Fault.unhashable v)

end Automation

/-- The run as an object. -/
def ExecutionLog.toValue (l : ExecutionLog) : Value :=
  .object [("id", .int l.id), ("automation_id", .int l.automationId), ("item_id", .int l.itemId),
    ("event_type", .text l.eventType), ("status", .text l.status),
    ("results", .list (l.results.map ActionResult.toValue)), ("error", .ofText? l.error),
    ("execution_time_ms", .int 0), ("executed_at", l.executedAt.toValue)]

/-- The status of a run, from the `success` of every result: all, none or some of them. -/
def executionStatus (successes : List Bool) : String :=
  if successes.all id then "success"
  else if successes.any id then "partial"
  else "failed"

/-- The status of the run that led to these results. -/
def ActionResult.statusOf (results : List ActionResult) : String :=
  executionStatus (results.map ActionResult.succeeded)

/-- What an automation that ran answers. -/
structure Firing where
  automationId : Int
  results : List ActionResult

/-- The answer as an object. -/
def Firing.toValue (f : Firing) : Value :=
  .object [("automationId", .int f.automationId), ("status", .text (ActionResult.statusOf f.results)),
    ("results", .list (f.results.map ActionResult.toValue))]

end Signoff
