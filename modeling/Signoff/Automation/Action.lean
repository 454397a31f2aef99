import Signoff.Schema.Scalar
import Signoff.Workflow.Basic

/-! # Actions

The kinds of actions that an automation takes, and the checks that a written action has to pass. A
checked action is kept as an object with its `type` and its `config`, defaults written out and nulls
left out.
-/

namespace Signoff

/-- The kinds of actions. -/
inductive ActionKind where
  | changeStatus
  | updateField
  | clearField
  | calculateFormula
  | copyField
  | assignUser
  | sendNotification
  | notifyUsers
  | notifyAssignees
  | createItem
  | moveToBoard
  | callWebhook
  | apiCall
deriving DecidableEq, Repr

namespace ActionKind

/-- Every kind with its word. -/
def table : List (String × ActionKind) :=
  [("change_status", .changeStatus), ("update_field", .updateField), ("clear_field", .clearField),
    ("calculate_formula", .calculateFormula), ("copy_field", .copyField),
    ("assign_user", .assignUser), ("send_notification", .sendNotification),
    ("notify_users", .notifyUsers), ("notify_assignees", .notifyAssignees),
    ("create_item", .createItem), ("move_to_board", .moveToBoard), ("call_webhook", .callWebhook),
    ("api_call", .apiCall)]

/-- The word for a kind. -/
def word (kind : ActionKind) : String :=
  ((table.find? fun entry => entry.2 == kind).map (·.1)).getD ""

/-- The kind that a stored word stands for; a change of status has a second word. -/
def ofWord? (word : String) : Option ActionKind :=
  if word = "set_status" then some .changeStatus else table.lookup word

end ActionKind

namespace Action

/-- The methods of calls. -/
def methods : List (String × String) :=
  ["GET", "POST", "PUT", "PATCH", "DELETE"].map fun m => (m, m)

/-- The key of the field that an action writes. -/
def columnKey : Key := ⟨"columnId", "column_id"⟩

/-- The key of the board that an action is about. -/
def boardKey : Key := ⟨"targetBoardId", "target_board_id"⟩

/-- The key of the users that an action is about. -/
def usersKey : Key := ⟨"userIds", "user_ids"⟩

/-- The keys of a call: address, method, headers and body. -/
def callKeys (kind : ActionKind) : Key × Key × Key × Key :=
  if kind == .apiCall then
    (⟨"apiUrl", "api_url"⟩, ⟨"apiMethod", "api_method"⟩, ⟨"apiHeaders", "api_headers"⟩,
      ⟨"apiBody", "api_body"⟩)
  else
    (⟨"webhookUrl", "webhook_url"⟩, ⟨"webhookMethod", "webhook_method"⟩,
      ⟨"webhookHeaders", "webhook_headers"⟩, ⟨"webhookBody", "webhook_body"⟩)

/-- A field that has to be there, ready to be written. -/
def field {α : Type} (fields : Fields) (key : Key) (check : Value → Checked α) (write : α → Value) :
    Checked Fields :=
  (fun x => [(key.wire, write x)]) <$> Schema.required fields key check

/-- A field with a default, ready to be written. -/
def defaulted {α : Type} (fields : Fields) (key : Key) (absent : α) (check : Value → Checked α)
    (write : α → Value) : Checked Fields :=
  (fun x => [(key.wire, write x)]) <$> Schema.optional fields key absent check

/-- A field that may be missing or null, ready to be written. -/
def possible {α : Type} (fields : Fields) (key : Key) (check : Value → Checked α)
    (write : α → Value) : Checked Fields :=
  (fun x => optionalField key.wire write x)
    <$> Schema.optional fields key none (Schema.nullable check)

/-- The fields of several parts, one behind the other. -/
def joined : List (Checked Fields) → Checked Fields
  | [] => .sound []
  | part :: rest => (· ++ ·) <$> part <*> joined rest

/-- Title, message and link of a notification. -/
def notice (fields : Fields) : List (Checked Fields) :=
  [field fields (.word "title") Schema.filledText .text,
    field fields (.word "message") Schema.filledText .text,
    possible fields (.word "link") Schema.text .text]

/-- The keys of the configuration of an action. -/
def configKeys (kind : ActionKind) : List Key :=
  match kind with
  | .changeStatus => [.word "status"]
  | .updateField => [columnKey, .word "value"]
  | .clearField => [columnKey]
  | .calculateFormula => [columnKey, .word "formula"]
  | .copyField => [columnKey, ⟨"sourceColumnId", "source_column_id"⟩]
  | .assignUser => [columnKey, usersKey]
  | .sendNotification => [usersKey, .word "title", .word "message", .word "link"]
  | .notifyUsers => [usersKey, .word "title", .word "message", .word "link"]
  | .notifyAssignees => [.word "title", .word "message", .word "link"]
  | .createItem => [boardKey, ⟨"itemName", "item_name"⟩, .word "status", ⟨"copyCells", "copy_cells"⟩]
  | .moveToBoard => [boardKey]
  | .callWebhook | .apiCall =>
    let (url, method, headers, body) := callKeys kind
    [url, method, headers, body]

/-- The parts of the configuration of an action. -/
def configParts (kind : ActionKind) (fields : Fields) : List (Checked Fields) :=
  match kind with
  | .changeStatus => [field fields (.word "status") Schema.filledText .text]
  | .updateField =>
    [field fields columnKey Schema.columnName .text,
      (fun v => if v.isNull then [] else [("value", v.finite)])
        <$> Schema.required fields (.word "value") Schema.any]
  | .clearField => [field fields columnKey Schema.columnName .text]
  | .calculateFormula =>
    [field fields columnKey Schema.columnName .text,
      field fields (.word "formula") Schema.filledText .text]
  | .copyField =>
    [field fields columnKey Schema.columnName .text,
      field fields ⟨"sourceColumnId", "source_column_id"⟩ Schema.columnName .text]
  | .assignUser =>
    [field fields columnKey Schema.columnName .text,
      field fields usersKey (Schema.textsOrOne Schema.list) .ofTexts]
  | .sendNotification | .notifyUsers =>
    field fields usersKey (Schema.textsOrOne Schema.filledList) .ofTexts :: notice fields
  | .notifyAssignees => notice fields
  | .createItem =>
    [field fields boardKey Schema.int .int,
      possible fields ⟨"itemName", "item_name"⟩ Schema.text .text,
      possible fields (.word "status") Schema.text .text,
      defaulted fields ⟨"copyCells", "copy_cells"⟩ false Schema.bool .bool]
  | .moveToBoard => [field fields boardKey Schema.int .int]
  | .callWebhook | .apiCall =>
    let (url, method, headers, body) := callKeys kind
    [field fields url Schema.webAddress .text,
      defaulted fields method "POST" (Schema.oneOf methods) .text,
      defaulted fields headers [] Schema.textMapping
        fun entries => .object (entries.map fun (n, s) => (n, Value.text s)),
      possible fields body Schema.mapping fun entries => (Value.object entries).finite]

/-- Reads the configuration of an action. -/
def readConfig (kind : ActionKind) (config : Fields) : Checked Fields :=
  joined (configParts kind config) <* Schema.noOthers config (configKeys kind)

/-- Reads an action. The configuration is looked at once the rest is sound, and its problems are told
as problems of the action. -/
def read (v : Value) : Checked Value :=
  (Schema.object "Action" [.word "type", .word "config"] (fun fields =>
    Prod.mk <$> Schema.required fields (.word "type") (Schema.oneOf ActionKind.table)
      <*> Schema.optional fields (.word "config") [] Schema.mapping) v).andThen fun (kind, config) =>
    (fun checked => .object [("type", .text kind.word), ("config", .object checked)])
      <$> readConfig kind config

end Action
end Signoff
