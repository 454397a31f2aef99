import Signoff.Board.Basic
import Signoff.Workflow.Basic

/-! # Approvals

An approval is the decision of one approver on one level of an item. It is pending until it is
approved, which is final, or rejected.
-/

namespace Signoff

/-- The status of an approval. Rows that were stored by other means may carry any other word. -/
inductive Status where
  | pending
  | approved
  | rejected
  | other (word : String)
deriving DecidableEq, Repr

namespace Status

/-- The word for a status. -/
def word : Status → String
  | .pending => "pending"
  | .approved => "approved"
  | .rejected => "rejected"
  | .other w => w

/-- The status of a word. -/
def ofWord (word : String) : Status :=
  if word = "pending" then .pending
  else if word = "approved" then .approved
  else if word = "rejected" then .rejected
  else .other word

/-- The status that a request names; other words are none. -/
def ofWord? (word : String) : Option Status :=
  match ofWord word with
  | .other _ => none
  | s => some s

end Status

/-- An approval. -/
structure Approval where
  id : Int
  itemId : Int
  /-- The name of the level. -/
  level : String
  status : Status
  /-- Who approves; nobody if the level has no approver. -/
  approver : Option String
  comments : Option String
  createdAt : Moment
  /-- When it was decided. -/
  decidedAt : Option Moment

instance : Row Approval := ⟨Approval.id⟩

namespace Approval

/-- The fields of an approval. -/
def fields (a : Approval) : Fields :=
  [("id", .int a.id), ("item_id", .int a.itemId), ("level", .text a.level),
    ("status", .text a.status.word), ("approver_id", .ofText? a.approver),
    ("comments", .ofText? a.comments), ("created_at", a.createdAt.toValue),
    ("approved_at", .ofMoment? a.decidedAt)]

/-- The approval as an object. -/
def toValue (a : Approval) : Value := .object a.fields

/-- Is somebody named as approver? -/
def hasApprover (a : Approval) : Bool := a.approver.any (!·.isEmpty)

/-- The approval behind a decision. Somebody who decides an approval without an approver becomes its
approver. -/
def decided (a : Approval) (status : Status) (comments actor : Option String) (now : Moment) :
    Approval :=
  { a with
    status
    comments
    approver := if a.hasApprover then a.approver else actor
    decidedAt := if status == .pending then none else some now }

end Approval

/-- Is a level satisfied by rows of the given statuses? A parallel level needs the configured number of
approvals, at most one of every row; any other level needs one. -/
def levelSatisfied (statuses : List Status) (config : Option LevelConfig) : Bool :=
  if statuses.isEmpty then false
  else
    let approved : Int := statuses.count .approved
    match config with
    | some c =>
      if c.isParallel then
        let rows : Int := statuses.length
        let needed := match c.requiredApprovals with
          | some n => if n = 0 then rows else n
          | none => rows
        min needed rows ≤ approved
      else 1 ≤ approved
    | none => 1 ≤ approved

end Signoff
