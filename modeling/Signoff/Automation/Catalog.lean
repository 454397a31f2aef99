import Signoff.Access.Basic
import Signoff.Automation.Engine
import Signoff.Automation.Schema
import Signoff.Office.Items
import Signoff.Store.Query

/-! # The automations of the office

Making, changing, listing and removing automations, looking at their log, and trying one out on an
item without running its actions. Administrators of a workspace write its automations, and every
member may look at them.
-/

namespace Signoff.Automations

/-- The automation of a key, which has to be there. -/
def require (key : Int) : OfficeTask Automation := do
  Task.ofResult (checkKey key)
  match (← get).automations.get? key with
  | some a => pure a
  | none => throw (.notFound "Automation" (.int key))

/-- The automation of a key, if the actor has the permission on its board. -/
def permitted (key : Int) (actor : Option String) (permission : Permission) :
    OfficeTask Automation := do
  let a ← require key
  let board ← Office.requireBoard (.int a.boardId)
  Office.demand actor (.board board) permission
  pure a

/-- The automation of a key, which the actor may look at. -/
def find (key : Int) (actor : Option String) : OfficeTask Automation :=
  permitted key actor .readItems

/-- Makes the automation of a payload. -/
def create (payload : Value) (actor : Option String) : OfficeTask Automation := do
  let draft ← Task.ofResult (AutomationDraft.ofPayload payload)
  let board ← Office.requireBoard (.int draft.boardId)
  Office.demand actor (.board board) .writeAutomations
  let o ← get
  let row : Automation :=
    { id := o.automations.nextKey
      boardId := board.id
      name := draft.name
      description := draft.description
      trigger := draft.trigger
      conditions := draft.conditions
      actions := .list draft.actions
      isActive := draft.isActive
      createdBy := actor.getD ""
      createdAt := o.clock
      updatedAt := o.clock }
  set { o with automations := o.automations.add fun _ => row }
  pure row

/-- Writes a changed row. A value that equals the stored one is not written again, and the moment of the
last change moves only if something is written. -/
def write (old new : Automation) : OfficeTask Automation := do
  let o ← get
  let isSame := new.name == old.name && new.description == old.description
    && new.isActive == old.isActive && new.trigger.looseEq old.trigger
    && new.conditions.looseEq old.conditions && new.actions.looseEq old.actions
  let row := { new with
    trigger := keepEqual old.trigger new.trigger
    conditions := keepEqual old.conditions new.conditions
    actions := keepEqual old.actions new.actions
    updatedAt := if isSame then old.updatedAt else o.clock }
  set { o with automations := o.automations.modify old.id fun _ => row }
  pure row

/-- The automation with a change. Null leaves the name, the trigger, the actions and the activity as they
are, and clears the description and the conditions. -/
def applied (c : AutomationChange) (a : Automation) : Automation :=
  { a with
    name := c.name.join.getD a.name
    description := match c.description with
      | some text => text.getD ""
      | none => a.description
    trigger := c.trigger.join.getD a.trigger
    actions := (c.actions.join.map Value.list).getD a.actions
    conditions := c.conditions.getD a.conditions
    isActive := c.isActive.join.getD a.isActive }

/-- Changes an automation by a payload. -/
def update (key : Int) (payload : Value) (actor : Option String) : OfficeTask Automation := do
  let a ← permitted key actor .writeAutomations
  let change ← Task.ofResult (AutomationChange.ofPayload payload)
  write a (applied change a)

/-- Activates an automation, or deactivates it. -/
def toggle (key : Int) (actor : Option String) : OfficeTask Automation := do
  let a ← permitted key actor .writeAutomations
  write a { a with isActive := !a.isActive }

/-- Removes an automation and its log. -/
def delete (key : Int) (actor : Option String) : OfficeTask Unit := do
  let a ← permitted key actor .writeAutomations
  modify fun o => { o with
    automations := o.automations.erase a.id
    logs := o.logs.eraseWhere fun l => l.automationId == a.id }

/-! ## Lists -/

/-- The automations of a board that have the given activity and a name like the search, where these are
given, newest first. -/
def matching (o : Office) (boardId : Int) (isActive : Option Bool) (search : String) :
    List Automation :=
  (o.automations.rows.filter fun a =>
    a.boardId == boardId && isActive.all (fun b => a.isActive == b)
      && (search.isEmpty || Text.hasLike search a.name)).mergeSort fun a b =>
    b.createdAt.micros < a.createdAt.micros
      || (a.createdAt.micros == b.createdAt.micros && b.id ≤ a.id)

/-- The size of pages lies between these. -/
def pageSize (limit : Int) : Int := max 1 (min limit 100)

/-- A page of the automations of a board. -/
def list (board : Value) (actor : Option String) (isActive : Option Bool) (search : String)
    (page limit : Int) : OfficeTask Value := do
  let board ← Office.requireBoard board
  Office.demand actor (.board board) .readItems
  if page < 1 then throw (.rejected "page must be >= 1" [("page", .int page)])
  let size := pageSize limit
  let start := (page - 1) * size
  Task.ofResult (checkKey start)
  let rows := matching (← get) board.id isActive search
  let total : Int := rows.length
  pure (.object [
    ("automations", .list ((sliceOf rows start (start + size)).map Automation.toValue)),
    ("pagination", .object [("page", .int page), ("limit", .int size), ("total", .int total),
      ("totalPages", .int ((total + size - 1) / size))])])

/-- The last rows of the log of an automation, newest first; all of them if the limit is negative. -/
def logOf (key : Int) (actor : Option String) (limit : Int) : OfficeTask (List ExecutionLog) := do
  let a ← find key actor
  let rows := ((← get).logs.rows.filter fun l => l.automationId == a.id).mergeSort fun x y =>
    y.executedAt.micros < x.executedAt.micros
      || (x.executedAt.micros == y.executedAt.micros && y.id ≤ x.id)
  pure (if limit < 0 then rows else rows.take limit.toNat)

/-! ## Trying out -/

/-- What the preview tells about an action. -/
def previewOf (action : Value) : Result Value := do
  match action with
  | .object fields =>
    let type := Fields.get fields "type"
    pure (.object [("type", type), ("description", .text ("Would execute: " ++ type.display)),
      ("config", (Fields.get fields "config").orElse (.object []))])
  | v => throw (Fault.noAttribute v "get")

/-- What an automation would do with an item of its board that has just been updated. -/
def preview (key : Int) (actor : Option String) (itemId : Int) : OfficeTask Value := do
  let a ← find key actor
  let item ← match (← Office.findItem itemId false).filter fun i => i.boardId == a.boardId with
    | some item => pure item
    | none => throw (.notFound "Item" (.int itemId))
  let o ← get
  let snapshot := o.snapshotOf item
  let event : Event :=
    { itemId := item.id, boardId := item.boardId, user := actor, kind := .itemUpdated,
      before := some snapshot, after := some snapshot }
  let isTriggered ← Task.ofResult (Trigger.matchesEvent a.trigger event o.clock.date)
  let areMet ← Task.ofResult (Condition.conditionsHold a.conditions snapshot)
  let actions ← Task.ofResult (if a.actions.truthy then a.actions.items else .ok [])
  let previews ← Task.ofResult (actions.mapM previewOf)
  pure (.object [
    ("automation", .object [("id", .int a.id), ("name", .text a.name), ("trigger", a.trigger)]),
    ("itemId", .int item.id),
    ("triggerMatched", .bool isTriggered),
    ("conditionsMet", .bool areMet),
    ("wouldExecute", .bool (isTriggered && areMet)),
    ("preview", .list previews)])

end Signoff.Automations
