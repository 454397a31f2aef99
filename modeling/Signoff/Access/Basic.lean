import Signoff.Approval.Basic
import Signoff.Office.Basic

/-! # Access

Who may do what. Members of a workspace may read its items; administrators configure it; approvals
are decided by their approver or by a member with an elevated role.

* `Access.allows` decides on an actor, a resource and an action.
* `Access.demand` fails where the actor is not allowed.
-/

namespace Signoff

/-- What an actor may be allowed to do. -/
inductive Permission where
  | readItems
  | decideApproval
  | deleteApproval
  | archiveItem
  | writeWorkflow
  | writeAutomations
deriving DecidableEq, Repr

namespace Permission

/-- Every permission with its word. -/
def table : List (String × Permission) :=
  [("item.read", .readItems), ("approval.transition", .decideApproval),
    ("approval.delete", .deleteApproval), ("item.archive", .archiveItem),
    ("workflow.write", .writeWorkflow), ("automation.write", .writeAutomations)]

/-- The word for a permission. -/
def word : Permission → String
  | .readItems => "item.read"
  | .decideApproval => "approval.transition"
  | .deleteApproval => "approval.delete"
  | .archiveItem => "item.archive"
  | .writeWorkflow => "workflow.write"
  | .writeAutomations => "automation.write"

/-- The permission of a word, or the fault of an unknown one. -/
def ofWord (word : String) : Result Permission :=
  match table.lookup word with
  | some p => .ok p
  | none => .error (.badValue ("Unknown action: " ++ word))

end Permission

/-- What a permission is about. -/
inductive Resource where
  | board (b : Board)
  | item (i : Item)
  | approval (a : Approval)
  /-- Something that belongs to no workspace. -/
  | nothing

namespace Access

/-- The item that a resource is or belongs to. -/
def itemOf? (o : Office) : Resource → Option Item
  | .item i => some i
  | .approval a => o.items.get? a.itemId
  | _ => none

/-- The workspace that a resource belongs to. -/
def workspaceOf? (o : Office) : Resource → Option Int
  | .board b => some b.workspaceId
  | .nothing => none
  | r => (itemOf? o r).bind fun i => o.workspaceOf? i.boardId

/-- Is it the role of an administrator? -/
def isAdmin (role : Option String) : Bool := role == some "owner" || role == some "admin"

/-- The roles that may decide every approval where the settings do not say. -/
def defaultElevated : Value := .ofTexts ["owner", "admin", "finance"]

/-- Is it one of the roles that may decide every approval? -/
def isElevated (o : Office) (role : Option String) : Result Bool := do
  let roles ← ((o.settings.get? "APPROVAL_ELEVATED_ROLES").getD defaultElevated).items
  match roles.find? fun v => !v.isHashable with
  | some v => throw (Fault.unhashable v)
  | none => pure (roles.any (Value.ofText? role).looseEq)

/-- May the actor do it? Nobody may anything outside of a workspace. -/
def allows (o : Office) (actor : Option String) (resource : Resource) (permission : Permission) :
    Result Bool := do
  match workspaceOf? o resource, actor with
  | some workspace, some user =>
    if user.isEmpty then return false
    let role := o.role? workspace actor
    match permission with
    | .readItems => return role.isSome
    | .decideApproval =>
      match resource with
      | .approval a =>
        if a.hasApprover && a.approver == some user then return true
        else isElevated o role
      | _ => isElevated o role
    | .deleteApproval | .archiveItem =>
      return isAdmin role || (itemOf? o resource).any fun i => i.createdBy == user
    | .writeWorkflow | .writeAutomations => return isAdmin role
  | _, _ => return false

/-- Fails unless the actor may do it. -/
def demand (o : Office) (actor : Option String) (resource : Resource) (permission : Permission) :
    Result Unit := do
  if ← allows o actor resource permission then pure ()
  else throw (.denied actor permission.word)

end Access

/-- Fails unless the actor may do it. -/
def Office.demand (actor : Option String) (resource : Resource) (permission : Permission) :
    OfficeTask Unit := do
  Task.ofResult (Access.demand (← get) actor resource permission)

end Signoff
