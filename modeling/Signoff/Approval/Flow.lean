import Signoff.Approval.Basic
import Signoff.Workflow.Evaluation

/-! # The flow of approvals

Which level of an item is opened next, and how far the item has come, as functions of its approvals,
its workflow and the evaluation of the workflow.

* `Workflow.opening` is the next level to open: the first required level without approvals, once
  every required level in front of it is satisfied and nothing is rejected.
* `Workflow.standing` is the state of one level, and `Workflow.progress` the state of the whole.
-/

namespace Signoff

/-- The comment of approvals on levels that were passed over. -/
def skippedComment : String := "Skipped by workflow rules"

/-- The comment of approvals on items that need none. -/
def autoApprovedComment : String := "Auto-approved based on workflow rules"

/-- The approvals on a level. -/
def Approval.on (rows : List Approval) (l : Level) : List Approval :=
  rows.filter fun a => a.level == l.name

/-- A level that is to be opened. -/
structure Opening where
  level : Level
  /-- The levels in front that get an approval because they are passed over. -/
  passedOver : List Level
  /-- The approvers, one for each new approval; nobody where the level has none. -/
  approvers : List (Option String)

namespace Workflow

/-- Do the approvals on a level of the given name satisfy it? -/
def satisfied (w : Workflow) (level : String) (rows : List Approval) : Bool :=
  levelSatisfied (rows.map (·.status)) (w.configNamed? level)

/-- Who is asked on a level: every approver if the level is parallel, otherwise the first one. -/
def approversOn (w : Workflow) (e : Evaluation) (l : Level) : List (Option String) :=
  let named := (e.assigned l).filter fun a => !a.isEmpty
  let asked := if (w.configOf? l).any (·.isParallel) then named.eraseDups else named.take 1
  if asked.isEmpty then [none] else asked.map some

/-- The next of the required levels to open, where `last` is the required level in front of them. -/
def openingFrom (w : Workflow) (e : Evaluation) (rows : List Approval) (last : Option Level) :
    List Level → Option Opening
  | [] => none
  | l :: rest =>
    if (Approval.on rows l).isEmpty then
      some
        { level := l
          passedOver := l.before.filter fun k =>
            last.all (fun p => p.index < k.index) && (Approval.on rows k).isEmpty
          approvers := w.approversOn e l }
    else if w.satisfied l.name (Approval.on rows l) then openingFrom w e rows (some l) rest
    else none

/-- The next level to open, if it is time to open one. -/
def opening (w : Workflow) (e : Evaluation) (rows : List Approval) : Option Opening :=
  if rows.any fun a => a.status == .rejected then none
  else w.openingFrom e rows none e.required

/-- The state of a level: nothing if it has no approvals. -/
def standing (w : Workflow) (rows : List Approval) (l : Level) : Option Status :=
  let here := Approval.on rows l
  if here.isEmpty then none
  else if here.any fun a => a.status == .rejected then some .rejected
  else if w.satisfied l.name here then some .approved
  else some .pending

end Workflow

/-- How far an item has come. -/
inductive Progress where
  | notSubmitted
  | pending
  | inProgress
  | approved
  | rejected
deriving DecidableEq, Repr

namespace Progress

/-- The word for a progress. -/
def word : Progress → String
  | .notSubmitted => "not_submitted"
  | .pending => "pending"
  | .inProgress => "in_progress"
  | .approved => "approved"
  | .rejected => "rejected"

/-- Is the flow at its end? -/
def isComplete : Progress → Bool
  | .approved => true
  | .rejected => true
  | _ => false

end Progress

namespace Workflow

/-- The highest level with approvals. -/
def highest? (rows : List Approval) : Option Level :=
  Level.all.reverse.find? fun l => !(Approval.on rows l).isEmpty

/-- Was a level cleared by a decision, and not only passed over? -/
def cleared (w : Workflow) (rows : List Approval) (l : Level) : Bool :=
  w.standing rows l == some .approved
    && (Approval.on rows l).any fun a => a.comments != some skippedComment

/-- How far an item has come. The evaluation is looked at only when the highest level with approvals is
satisfied: then the item is approved unless a level behind is required. -/
def progress (w : Workflow) (rows : List Approval) (evaluation : Result Evaluation) :
    Result Progress :=
  match highest? rows with
  | none => .ok .notSubmitted
  | some top =>
    if Level.all.any fun l => w.standing rows l == some .rejected then .ok .rejected
    else if w.standing rows top == some .approved then do
      let e ← evaluation
      let goesOn := !e.autoApproved && top.after.any fun l => e.required.contains l
      pure (if goesOn then .inProgress else .approved)
    else .ok (if top.before.any fun l => w.cleared rows l then .inProgress else .pending)

end Workflow
end Signoff
