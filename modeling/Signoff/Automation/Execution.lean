import Signoff.Automation.Action
import Signoff.Automation.Config
import Signoff.Formula.Template
import Signoff.Office.Items
import Signoff.Office.Notices

/-! # Execution of actions

The actions of an automation are performed one after another, each on its own: an action that fails
is noted down with the text of its fault, and the ones behind it are performed all the same. Actions
write to the office without telling any automation, so that no automation sets off another one.

* `Office.send` calls another system.
* `Action.perform` performs one action of a known kind on an item.
* `Action.executeAll` performs a list of actions and gives a result for each.
-/

namespace Signoff

namespace Reply

/-- The answer to calls for which no other reply is kept: an empty success. -/
def standard : Reply := .answered 200 (some "OK") ""

end Reply

namespace Office

/-- Makes a call. The next reply that is kept answers it. -/
def send (call : Call) : OfficeTask CallResult := do
  let o ← get
  set { o with replies := o.replies.tail, calls := call :: o.calls }
  Task.ofResult (call.result (o.replies.headD Reply.standard))

/-- What a call tells about an item: the item with the cells of its board under the names of their
columns, and the moment of the call. -/
def standardBody (o : Office) (item : Item) : Fields :=
  let snapshot := o.snapshotOf item
  let cells := (o.columnsOf item.boardId).foldl
    (fun cells column =>
      match snapshot.get? (NumberText.intText column.id) with
      | some v => Fields.set cells column.name v
      | none => cells)
    ([] : Fields)
  [("itemId", .int item.id), ("itemName", .text item.name), ("status", .ofText? item.status),
    ("boardId", .int item.boardId), ("cells", .object cells), ("timestamp", .text o.clock.isoUtc)]

end Office

/-- The users that a cell of people holds: a list of users or a single one, each as itself or as an
object that names it. -/
def peopleOf (v : Value) : List String :=
  if v.isMissing then []
  else (ActionConfig.several v).filterMap fun person =>
    let user := match person with
      | .object fields => (Fields.get fields "id").orElse (Fields.get fields "userId")
      | v => v
    if user.truthy then some user.display else none

/-- The users in the columns of people of an item's board, each once, in the order of the columns. -/
def Office.assigneesOf (o : Office) (item : Item) : List String :=
  let snapshot := o.snapshotOf item
  (((o.columnsOf item.boardId).filter fun c => c.type == "people").flatMap fun c =>
    peopleOf (snapshot.get (NumberText.intText c.id))).foldl
      (fun users user => if users.contains user then users else users ++ [user]) []

namespace Action

open ActionConfig

/-- Tells users what the configuration says, with a link to the item unless it gives another one. -/
def tellUsers (item : Item) (config : Value) (automation : Option Int) (users : List Value) :
    OfficeTask Unit := do
  let title ← Task.ofResult (need config "title")
  let message ← Task.ofResult (need config "message")
  let place := "/boards/" ++ NumberText.intText item.boardId ++ "/items/"
    ++ NumberText.intText item.id
  discard <| Office.notifyMany users
    { type := "automation"
      title := title
      message := message
      link := (may config "link").orElse (.text place)
      metadata := [("itemId", .int item.id), ("boardId", .int item.boardId),
        ("automationId", .ofInt? automation)] }

/-- The board that the configuration is about. -/
def targetBoard (config : Value) : OfficeTask Board := do
  Office.requireBoard (← Task.ofResult (need config "targetBoardId"))

/-- Copies cells of an item into the columns of another board that have the same name, whatever its
case, and the same type. -/
def copyCells (item copy : Item) : OfficeTask Unit := do
  let o ← get
  let snapshot := o.snapshotOf item
  let targets := o.columnsOf copy.boardId
  for column in o.columnsOf item.boardId do
    match snapshot.get? (NumberText.intText column.id) with
    | none => pure ()
    | some v =>
      match targets.find? fun c =>
          Text.lower c.name == Text.lower column.name && c.type == column.type with
      | none => pure ()
      | some target => Office.writeCell copy.id (.int target.id) v

/-- Makes a new item on another board. -/
def createItem (item : Item) (config : Value) (event : Event) : OfficeTask Unit := do
  let board ← targetBoard config
  let creator := match event.user with
    | some user => if user.isEmpty then item.createdBy else user
    | none => item.createdBy
  let copy ← Office.createItem board.id
    ((may config "itemName").orElse (.text ("Automated: " ++ item.name)))
    ((may config "status").orElse (.ofText? item.status)) creator
  if (may config "copyCells").truthy then copyCells item copy

/-- Calls another system about the item. The body tells about the item, and what the configuration
adds. -/
def callOut (kind : ActionKind) (item : Item) (config : Value) : OfficeTask Unit := do
  let (urlKey, methodKey, headersKey, bodyKey) := callKeys kind
  let url ← Task.ofResult (need config urlKey.wire)
  let o ← get
  let added := may config bodyKey.wire
  let more ← Task.ofResult (if added.truthy then entries added else .ok [])
  let method ← Task.ofResult (method (may config methodKey.wire))
  let headers ← Task.ofResult (headers (may config headersKey.wire))
  let timeout := (o.settings.get? "WEBHOOK_TIMEOUT_SECONDS").getD (.int 10)
  let result ← Office.send
    (Call.make method url headers (.object ((o.standardBody item).setAll more)) timeout)
  if !result.ok then
    let reason := match result.error with
      | some e => if e.isEmpty then "Webhook call failed" else e
      | none => "Webhook call failed"
    throw (.callFailed reason)

/-- Performs an action of a known kind on an item. -/
def perform (kind : ActionKind) (item : Item) (config : Value) (event : Event)
    (automation : Option Int) : OfficeTask Unit :=
  match kind with
  | .changeStatus => do
    discard <| Office.setStatus item (← Task.ofResult (need config "status"))
  | .updateField => do
    Office.writeCell item.id (← Task.ofResult (need config "columnId")) (may config "value")
  | .clearField => do
    discard <| Office.deleteCells item.id (← Task.ofResult (need config "columnId"))
  | .calculateFormula => do
    let formula ← match ← Task.ofResult (need config "formula") with
      | .text s => pure s
      | v => throw (.wrongKind ("expected string or bytes-like object, got "
          ++ Text.quoted v.kindName))
    let amount ← Task.ofResult (Formula.evaluate formula (← Office.snapshot item))
    Office.writeCell item.id (← Task.ofResult (need config "columnId")) amount.toValue
  | .copyField => do
    let source ← Task.ofResult (need config "sourceColumnId")
    match (← Office.snapshot item).get? source.display with
    | some v => Office.writeCell item.id (← Task.ofResult (need config "columnId")) v
    | none => pure ()
  | .assignUser => do
    let users ← Task.ofResult (need config "userIds")
    Office.writeCell item.id (← Task.ofResult (need config "columnId")) (.list (several users))
  | .sendNotification | .notifyUsers => do
    let users ← Task.ofResult (need config "userIds")
    tellUsers item config automation (several users)
  | .notifyAssignees => do
    let users := (← get).assigneesOf item
    if users.isEmpty then pure () else tellUsers item config automation (users.map .text)
  | .createItem => createItem item config event
  | .moveToBoard => do
    discard <| Office.putOnBoard item (← targetBoard config).id
  | .callWebhook | .apiCall => callOut kind item config

/-- The kind that an action names, or the fault of an unknown one. -/
def kindOf (type : Value) : Result ActionKind :=
  let unknown : Fault := .rejected ("Unknown action type: " ++ type.display) []
  match type with
  | .text word =>
    match ActionKind.ofWord? word with
    | some kind => .ok kind
    | none => .error unknown
  | v => .error (if v.isHashable then unknown else Fault.unhashable v)

/-- Executes an action on the item of an event, which is looked up anew. -/
def execute (type config : Value) (event : Event) (automation : Option Int) : OfficeTask Unit := do
  let kind ← Task.ofResult (kindOf type)
  let item ← Office.requireItem event.itemId true
  perform kind item config event automation

/-- Executes a written action, and tells what became of it. Something that is no object is no
action. -/
def executeOne (event : Event) (automation : Option Int) (action : Value) :
    OfficeTask ActionResult := do
  match action.orElse (.object []) with
  | .object fields =>
    let type := Fields.get fields "type"
    let config := (Fields.get fields "config").orElse (.object [])
    match ← Task.attempt (execute type config event automation) with
    | .ok _ => pure ⟨type, none⟩
    | .error fault => pure ⟨type, some fault.text⟩
  | v => throw (Fault.noAttribute v "get")

/-- Executes the actions one after another, and tells what became of each. -/
def executeAll (actions : Value) (event : Event) (automation : Option Int) :
    OfficeTask (List ActionResult) := do
  let actions ← Task.ofResult (if actions.truthy then actions.items else .ok [])
  actions.mapM (executeOne event automation)

end Action
end Signoff
