import Signoff.Event
import Signoff.Trigger.Comparison
import Signoff.Trigger.DateTest

/-! # Triggers

A trigger says for which events an automation runs. It is an object with a word under `type` and the
details under `config`. There are four families: the life cycle of items, the fields, the dates and
the approvals.
-/

namespace Signoff

/-- The kinds of triggers. -/
inductive TriggerKind where
  /-- An event of the same kind; the details do not matter. -/
  | lifecycle (event : EventKind)
  /-- A change of the status, perhaps to a given one. -/
  | statusChanged
  /-- A change of the given field. -/
  | fieldChanged
  /-- The field passes the comparison that is given, equality if none is. -/
  | fieldEquals
  /-- The field passes a comparison. -/
  | field (comparison : Comparison)
  /-- The date field passes a test. -/
  | date (test : DateTest)
  /-- An event of the same kind on an approval, perhaps of a given level. -/
  | approval (event : EventKind)
deriving DecidableEq, Repr

namespace TriggerKind

/-- Every kind with its word. -/
def table : List (String × TriggerKind) :=
  [("item_created", .lifecycle .itemCreated),
    ("item_updated", .lifecycle .itemUpdated),
    ("item_status_changed", .statusChanged),
    ("item_deleted", .lifecycle .itemDeleted),
    ("item_moved", .lifecycle .itemMoved),
    ("field_changed", .fieldChanged),
    ("field_equals", .fieldEquals),
    ("field_greater_than", .field .greaterThan),
    ("field_less_than", .field .lessThan),
    ("field_contains", .field .contains),
    ("field_is_empty", .field .isEmpty),
    ("field_is_not_empty", .field .isNotEmpty),
    ("date_approaching", .date .approaching),
    ("date_passed", .date .passed),
    ("date_equals_today", .date .equalsToday),
    ("date_in_range", .date .inRange),
    ("approval_submitted", .approval .approvalSubmitted),
    ("approval_approved", .approval .approvalApproved),
    ("approval_rejected", .approval .approvalRejected),
    ("approval_level_completed", .approval .levelCompleted)]

/-- The words of all kinds. -/
def words : List String := table.map (·.1)

/-- The kind that a word stands for. -/
def ofWord? (word : String) : Option TriggerKind := table.lookup word

/-- Is it a test of a date? -/
def isDate : TriggerKind → Bool
  | .date _ => true
  | _ => false

end TriggerKind

namespace Trigger

/-- The events after which fields are compared. -/
def isFieldEvent : EventKind → Bool
  | .itemCreated => true
  | .itemUpdated => true
  | .statusChanged => true
  | _ => false

/-- The events after which dates are tested. -/
def isDateEvent : EventKind → Bool
  | .itemCreated => true
  | .itemUpdated => true
  | .dateCheck => true
  | _ => false

/-- Does a comparison take an expected value? -/
def takesValue : Comparison → Bool
  | .isEmpty => false
  | .isNotEmpty => false
  | _ => true

/-- Does the event match a trigger of the given kind? -/
def matchesKind (kind : TriggerKind) (config : Fields) (event : Event) (today : Date) :
    Result Bool :=
  let column := config.get "columnId"
  let value := config.get "value"
  match kind with
  | .lifecycle wanted => .ok (event.kind == wanted)
  | .statusChanged =>
    .ok (event.kind == .statusChanged &&
      (!value.truthy || ((event.after.getD []).get "status").looseEq value))
  | .fieldChanged =>
    .ok (event.kind == .itemUpdated && column.truthy && event.changed.has column.display)
  | .fieldEquals =>
    if !column.truthy || value.isNull || !isFieldEvent event.kind then .ok false
    else Comparison.ofField event.after column value ((config.get "operator").orElse (.text "equals"))
  | .field comparison =>
    if !column.truthy || !isFieldEvent event.kind || (takesValue comparison && value.isNull) then
      .ok false
    else Comparison.ofField event.after column value (.text comparison.word)
  | .date test =>
    if !column.truthy || !isDateEvent event.kind then .ok false
    else DateTest.ofField event.after column test.word
      ⟨config.get "daysBefore", config.get "startDate", config.get "endDate"⟩ today
  | .approval wanted =>
    let level := config.get "level"
    .ok (event.kind == wanted &&
      (!level.truthy || event.approval.any fun note => (Value.text note.level).looseEq level))

/-- Does the event match the trigger on the given day? An absent trigger and one of an unknown type
match nothing. -/
def matchesEvent (trigger : Value) (event : Event) (today : Date) : Result Bool := do
  if !trigger.truthy then return false
  let type ← trigger.field "type"
  let config := (← trigger.field "config").orElse (.object [])
  match config with
  | .object fields =>
    match type with
    | .text word =>
      match TriggerKind.ofWord? word with
      | some kind => matchesKind kind fields event today
      | none => return false
    | v => if v.isHashable then return false else throw (Fault.unhashable v)
  | v => throw (Fault.noAttribute v "get")

end Trigger
end Signoff
