import Signoff.Automation.Basic
import Signoff.Board.Basic
import Signoff.Event
import Signoff.Item.Basic
import Signoff.Job.Basic
import Signoff.Notification.Basic
import Signoff.Store.Column
import Signoff.Webhook.Basic

/-! # The office

Everything that items and automations work with: the boards, the items, the automations and their
log, the notifications, the jobs, the clock and the settings. The approvals are kept apart from it, so
that nothing an automation does can reach them.

* `Office` is the state.
* `Task σ α` is an operation on a state: it returns a value or fails, and what it wrote before it
  failed stays written.
-/

namespace Signoff

/-- An operation on a state. -/
abbrev Task (σ : Type) (α : Type) := ExceptT Fault (StateM σ) α

/-- Continues with a result. -/
def Task.ofResult {σ α : Type} : Result α → Task σ α
  | .ok x => pure x
  | .error fault => throw fault

/-- Runs an operation, and keeps its fault as a value. -/
def Task.attempt {σ α : Type} (task : Task σ α) : Task σ (Result α) :=
  ExceptT.mk ((fun r => Except.ok r) <$> task.run)

/-- An event that was told to the automations, and what they answered. -/
structure Hearing where
  event : Event
  /-- One answer for each automation that ran; nothing if the event was only noted down. -/
  fired : Option (List Firing)

/-- The state that items and automations work with. -/
structure Office where
  /-- The current moment. -/
  clock : Moment
  settings : Fields
  workspaces : Table Workspace := {}
  members : Table Member := {}
  boards : Table Board := {}
  columns : Table Column := {}
  items : Table Item := {}
  cells : Table Cell := {}
  workflows : Table StoredWorkflow := {}
  automations : Table Automation := {}
  logs : Table ExecutionLog := {}
  notifications : Table Notification := {}
  jobs : Table Job := {}
  /-- What the next calls to other systems get back; after them every call is answered with an empty
  success. -/
  replies : List Reply := []
  /-- The calls that were made, last one first. -/
  calls : List Call := []
  /-- The events that were told to the automations, last one first. -/
  heard : List Hearing := []

/-- An operation on the office. -/
abbrev OfficeTask (α : Type) := Task Office α

namespace Office

/-- The columns of a board, by position. -/
def columnsOf (o : Office) (boardId : Int) : List Column :=
  (o.columns.rows.filter fun c => c.boardId == boardId).mergeSort fun a b =>
    a.position < b.position || (a.position == b.position && a.id ≤ b.id)

/-- The cells of an item. -/
def cellsOf (o : Office) (itemId : Int) : List Cell :=
  o.cells.rows.filter fun c => c.itemId == itemId

/-- The cell of an item in a column. -/
def cell? (o : Office) (itemId columnId : Int) : Option Cell :=
  o.cells.rows.find? fun c => c.itemId == itemId && c.columnId == columnId

/-- The snapshot of an item. -/
def snapshotOf (o : Office) (item : Item) : Snapshot :=
  item.snapshot ((o.cellsOf item.id).map fun c => (c, o.columns.get? c.columnId))

/-- The items of a board; archived ones only if they are asked for. -/
def itemsOf (o : Office) (boardId : Int) (archived : Bool := false) : List Item :=
  o.items.rows.filter fun i => i.boardId == boardId && (archived || !i.isDeleted)

/-- The workspace of a board. -/
def workspaceOf? (o : Office) (boardId : Int) : Option Int :=
  (o.boards.get? boardId).map (·.workspaceId)

/-- The role of a user in a workspace. -/
def role? (o : Office) (workspaceId : Int) (user : Option String) : Option String :=
  match user with
  | some u =>
    if u.isEmpty then none
    else (o.members.rows.find? fun m => m.workspaceId == workspaceId && m.user == u).map (·.role)
  | none => none

/-- A setting. -/
def setting (o : Office) (name : String) : Value := o.settings.get name

/-- The item as an object with its cells. -/
def itemValue (o : Office) (item : Item) : Value := item.toValue (o.cellsOf item.id)

/-- The board as an object with its columns. -/
def boardValue (o : Office) (b : Board) : Value :=
  b.toValue (o.columnsOf b.id)

end Office

/-- The stored value if the new one equals it, otherwise the new one: a value that equals the stored
one is not written again. -/
def keepEqual (stored new : Value) : Value := if new.looseEq stored then stored else new

end Signoff
