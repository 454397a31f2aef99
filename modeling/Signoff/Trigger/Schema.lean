import Signoff.Schema.Scalar
import Signoff.Trigger.Basic
import Signoff.Workflow.Basic

/-! # Reading triggers

The checks that a written trigger has to pass: its type is known, and the details that this type
works with are there.
-/

namespace Signoff

/-- The details of a trigger. -/
structure TriggerConfig where
  column : Option String := none
  comparison : Option Comparison := none
  value : Value := .null
  daysBefore : Option Int := none
  start : Option String := none
  stop : Option String := none
  level : Option Level := none

/-- Every comparison with its word. -/
def Comparison.table : List (String × Comparison) :=
  [("equals", .equals), ("not_equals", .notEquals), ("contains", .contains),
    ("greater_than", .greaterThan), ("less_than", .lessThan), ("is_empty", .isEmpty),
    ("is_not_empty", .isNotEmpty)]

namespace TriggerConfig

/-- The fields of the details. -/
def keys : List Key :=
  [⟨"columnId", "column_id"⟩, .word "operator", .word "value", ⟨"daysBefore", "days_before"⟩,
    ⟨"startDate", "start_date"⟩, ⟨"endDate", "end_date"⟩, .word "level"]

/-- Reads the details. -/
def read : Value → Checked TriggerConfig :=
  Schema.object "TriggerConfig" keys fun fields =>
    TriggerConfig.mk
      <$> Schema.optional fields ⟨"columnId", "column_id"⟩ none (Schema.nullable Schema.columnName)
      <*> Schema.optional fields (.word "operator") none
        (Schema.nullable (Schema.oneOf Comparison.table))
      <*> Schema.optional fields (.word "value") .null Schema.any
      <*> Schema.optional fields ⟨"daysBefore", "days_before"⟩ none
        (Schema.nullable (Schema.intFrom 0))
      <*> Schema.optional fields ⟨"startDate", "start_date"⟩ none (Schema.nullable Schema.text)
      <*> Schema.optional fields ⟨"endDate", "end_date"⟩ none (Schema.nullable Schema.text)
      <*> Schema.optional fields (.word "level") none (Schema.nullable (Schema.oneOf Level.table))

/-- The details as an object. -/
def toValue (c : TriggerConfig) : Value :=
  .object (
    optionalField "columnId" .text c.column
    ++ optionalField "operator" (fun o => .text o.word) c.comparison
    ++ (if c.value.isNull then [] else [("value", c.value.finite)])
    ++ optionalField "daysBefore" .int c.daysBefore
    ++ optionalField "startDate" .text c.start
    ++ optionalField "endDate" .text c.stop
    ++ optionalField "level" Level.toValue c.level)

end TriggerConfig

namespace TriggerKind

/-- Does a trigger of this kind name a field? -/
def needsColumn : TriggerKind → Bool
  | .fieldChanged => true
  | .fieldEquals => true
  | .field _ => true
  | .date _ => true
  | _ => false

/-- Does a trigger of this kind have an expected value? -/
def needsValue : TriggerKind → Bool
  | .fieldEquals => true
  | .field comparison => Trigger.takesValue comparison
  | _ => false

end TriggerKind

namespace Trigger

/-- Is a text given and not empty? -/
def given : Option String → Bool
  | some s => !s.isEmpty
  | none => false

/-- The trigger as an object, once it has the details that its type works with. -/
def settle (word : String) (config : Option TriggerConfig) : Checked Value :=
  let details := config.getD {}
  let kind := TriggerKind.ofWord? word
  let needs (what : String) : Checked Value :=
    Checked.ruleBroken ("trigger '" ++ word ++ "' needs " ++ what)
  if kind.any TriggerKind.needsColumn && !given details.column then needs "config.columnId"
  else if kind.any TriggerKind.needsValue && details.value.isNull then needs "config.value"
  else if kind == some (.date .inRange) && !(given details.start && given details.stop) then
    needs "config.startDate and config.endDate"
  else .sound (.object
    (("type", .text word) :: optionalField "config" TriggerConfig.toValue config))

/-- Reads a trigger. -/
def read (v : Value) : Checked Value :=
  (Schema.object "Trigger" [.word "type", .word "config"] (fun fields =>
    Prod.mk
      <$> Schema.required fields (.word "type")
        (Schema.oneOf (TriggerKind.words.map fun w => (w, w)))
      <*> Schema.optional fields (.word "config") none (Schema.nullable TriggerConfig.read))
    v).andThen fun (word, config) => settle word config

end Trigger
end Signoff
