import Signoff.Automation.Action
import Signoff.Automation.Conditions

/-! # Reading automations

The payloads by which automations are made and changed. A change names only what it changes; whether
a field was given at all is kept beside its value.
-/

namespace Signoff

/-- A new automation. Trigger, actions and conditions are checked objects. -/
structure AutomationDraft where
  boardId : Int
  name : String
  description : String
  trigger : Value
  actions : List Value
  conditions : Value
  isActive : Bool

/-- A change of an automation: the fields that were given, with null where null was given. -/
structure AutomationChange where
  name : Option (Option String)
  description : Option (Option String)
  trigger : Option (Option Value)
  actions : Option (Option (List Value))
  conditions : Option Value
  isActive : Option (Option Bool)

/-- Conditions of a payload: null, or an object that is a block or a tree. -/
def AutomationConditions.readField (v : Value) : Checked Value :=
  match v with
  | .null => .sound .null
  | v => (Schema.mapping v).andThen fun _ => AutomationConditions.read v

namespace AutomationDraft

/-- The fields of a new automation. -/
def keys : List Key :=
  [⟨"boardId", "board_id"⟩, .word "name", .word "description", .word "trigger", .word "actions",
    .word "conditions", ⟨"isActive", "is_active"⟩]

/-- Reads a new automation. -/
def read : Value → Checked AutomationDraft :=
  Schema.object "AutomationCreate" keys fun fields =>
    AutomationDraft.mk <$> Schema.required fields ⟨"boardId", "board_id"⟩ Schema.int
      <*> Schema.required fields (.word "name") (Schema.boundedText 200)
      <*> Schema.optional fields (.word "description") "" Schema.text
      <*> Schema.required fields (.word "trigger") Trigger.read
      <*> Schema.required fields (.word "actions") (Schema.filledList Action.read)
      <*> Schema.optional fields (.word "conditions") .null AutomationConditions.readField
      <*> Schema.optional fields ⟨"isActive", "is_active"⟩ true Schema.bool

/-- The new automation of a payload. -/
def ofPayload (payload : Value) : Result AutomationDraft :=
  Schema.payload "Invalid automation" read payload

/-- The new automation as an object. -/
def toValue (d : AutomationDraft) : Value :=
  .object (
    [("boardId", .int d.boardId), ("name", .text d.name), ("description", .text d.description),
      ("trigger", d.trigger), ("actions", .list d.actions)]
    ++ (if d.conditions.isNull then [] else [("conditions", d.conditions.finite)])
    ++ [("isActive", .bool d.isActive)])

end AutomationDraft

namespace AutomationChange

/-- The fields of a change. -/
def keys : List Key :=
  [.word "name", .word "description", .word "trigger", .word "actions", .word "conditions",
    ⟨"isActive", "is_active"⟩]

/-- A field of which it is kept whether it was given. -/
def given {α : Type} (fields : Fields) (key : Key) (check : Value → Checked α) :
    Checked (Option α) :=
  Schema.optional fields key none fun v => some <$> check v

/-- Reads a change. -/
def read : Value → Checked AutomationChange :=
  Schema.object "AutomationUpdate" keys fun fields =>
    AutomationChange.mk
      <$> given fields (.word "name") (Schema.nullable (Schema.boundedText 200))
      <*> given fields (.word "description") (Schema.nullable Schema.text)
      <*> given fields (.word "trigger") (Schema.nullable Trigger.read)
      <*> given fields (.word "actions") (Schema.nullable (Schema.filledList Action.read))
      <*> given fields (.word "conditions") AutomationConditions.readField
      <*> given fields ⟨"isActive", "is_active"⟩ (Schema.nullable Schema.bool)

/-- The change of a payload. -/
def ofPayload (payload : Value) : Result AutomationChange :=
  Schema.payload "Invalid automation update" read payload

/-- The names of the fields that were given, in alphabetical order. -/
def givenNames (c : AutomationChange) : List String :=
  [("actions", c.actions.isSome), ("conditions", c.conditions.isSome),
    ("description", c.description.isSome), ("is_active", c.isActive.isSome),
    ("name", c.name.isSome), ("trigger", c.trigger.isSome)].filterMap fun (name, isGiven) =>
    if isGiven then some name else none

/-- The change as an object. -/
def toValue (c : AutomationChange) : Value :=
  .object (
    optionalField "name" .text c.name.join
    ++ optionalField "description" .text c.description.join
    ++ optionalField "trigger" id c.trigger.join
    ++ optionalField "actions" .list c.actions.join
    ++ (match c.conditions with
      | some v => if v.isNull then [] else [("conditions", v.finite)]
      | none => [])
    ++ optionalField "isActive" .bool c.isActive.join)

end AutomationChange
end Signoff
