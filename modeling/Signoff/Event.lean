import Signoff.Fault
import Signoff.Value.Display

/-! # Events

What happened to an item. Changes of items, decisions on approvals and the daily pass over dates are
told to the automations as events.
-/

namespace Signoff

/-- The kinds of events. -/
inductive EventKind where
  | itemCreated
  | itemUpdated
  | statusChanged
  | itemDeleted
  | itemMoved
  | dateCheck
  | approvalSubmitted
  | approvalApproved
  | approvalRejected
  | levelCompleted
deriving DecidableEq, Repr

namespace EventKind

/-- Every kind. -/
def all : List EventKind :=
  [.itemCreated, .itemUpdated, .statusChanged, .itemDeleted, .itemMoved, .dateCheck,
    .approvalSubmitted, .approvalApproved, .approvalRejected, .levelCompleted]

/-- The word for a kind. -/
def word : EventKind → String
  | .itemCreated => "item_created"
  | .itemUpdated => "item_updated"
  | .statusChanged => "item_status_changed"
  | .itemDeleted => "item_deleted"
  | .itemMoved => "item_moved"
  | .dateCheck => "date_check"
  | .approvalSubmitted => "approval_submitted"
  | .approvalApproved => "approval_approved"
  | .approvalRejected => "approval_rejected"
  | .levelCompleted => "approval_level_completed"

/-- The kind that a word stands for. -/
def ofWord? (word : String) : Option EventKind := all.find? fun kind => kind.word == word

/-- The kind that a value names, or the fault of an unknown one. -/
def ofValue (v : Value) : Result EventKind :=
  match ofWord? v.display with
  | some kind => .ok kind
  | none => .error (.badValue ("Unknown event type: " ++ v.display))

end EventKind

/-- What an event on an approval says about it. -/
structure ApprovalNote where
  /-- The approval, unless the event is about a whole level. -/
  approvalId : Option Int
  level : String
  approver : Option String := none
  comments : Option String := none

/-- Something that happened to an item. -/
structure Event where
  itemId : Int
  boardId : Int
  /-- Who caused it. -/
  user : Option String
  kind : EventKind
  /-- The snapshot in front of the change. -/
  before : Option Fields := none
  /-- The snapshot behind the change. -/
  after : Option Fields := none
  /-- The fields that changed, with their new values. -/
  changed : Fields := []
  approval : Option ApprovalNote := none

/-- The note as an object. -/
def ApprovalNote.toValue (note : ApprovalNote) : Value :=
  .object [
    ("approvalId", .ofInt? note.approvalId),
    ("level", .text note.level),
    ("approverId", .ofText? note.approver),
    ("comments", .ofText? note.comments)]

/-- An object, or null. -/
def Value.ofFields? : Option Fields → Value
  | some fields => .object fields
  | none => .null

/-- The event as an object. -/
def Event.toValue (event : Event) : Value :=
  .object [
    ("itemId", .int event.itemId),
    ("boardId", .int event.boardId),
    ("userId", .ofText? event.user),
    ("eventType", .text event.kind.word),
    ("oldData", .ofFields? event.before),
    ("newData", .ofFields? event.after),
    ("changedFields", .object event.changed),
    ("approvalData", (event.approval.map ApprovalNote.toValue).getD .null)]

end Signoff
