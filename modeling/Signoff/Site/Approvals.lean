import Signoff.Site.Basic

/-! # The approvals of the site

Looking up and writing approvals. One approver has at most one approval on a level of an item;
approvals without an approver never stand in each other's way.
-/

namespace Signoff.Site

/-- The approvals of an item. -/
def approvalsOf (site : Site) (itemId : Int) : List Approval :=
  site.approvals.rows.filter fun a => a.itemId == itemId

/-- The approvals of an item, which have to be on known levels. -/
def rowsOf (itemId : Int) : SiteTask (List Approval) := do
  let rows := (← get).approvalsOf itemId
  rows.forM fun a => discard (Task.ofResult (Level.ofName a.level))
  pure rows

/-- The approvals of an item on a level of the given name. -/
def rowsNamed (site : Site) (itemId : Int) (level : String) : List Approval :=
  (site.approvalsOf itemId).filter fun a => a.level == level

/-- The approval of a key, which has to be there. -/
def requireApproval (key : Int) : SiteTask Approval := do
  Task.ofResult (checkKey key)
  match (← get).approvals.get? key with
  | some a => pure a
  | none => throw (.notFound "Approval" (.int key))

/-- Does another approval stand in the way of one for this approver? -/
def isTaken (site : Site) (itemId : Int) (level : String) (approver : Option String) : Bool :=
  approver.isSome && (site.rowsNamed itemId level).any fun a => a.approver == approver

/-- Adds an approval to an item; nothing if it would break a constraint. -/
def addApproval (itemId : Int) (level : String) (approver : Option String)
    (status : Status := .pending) (comments : Option String := none) :
    SiteTask (Option Approval) := do
  let site ← get
  if site.isTaken itemId level approver || (site.office.items.get? itemId).isNone then pure none
  else
    let row : Approval :=
      { id := site.approvals.nextKey
        itemId
        level
        status
        approver
        comments
        createdAt := site.office.clock
        decidedAt := if status == .approved then some site.office.clock else none }
    set { site with approvals := site.approvals.add fun _ => row }
    pure (some row)

/-- Does another approval stand in the way of a decided one? -/
def isClaimed (site : Site) (decided : Approval) : Bool :=
  decided.approver.isSome
    && ((site.rowsNamed decided.itemId decided.level).filter fun a => a.id != decided.id).any
      fun a => a.approver == decided.approver

/-- Writes a decision into an approval. -/
def recordDecision (approval : Approval) (status : Status) (comments actor : Option String) :
    SiteTask Approval := do
  let site ← get
  let row := approval.decided status comments actor site.office.clock
  if site.isClaimed row then
    throw (.constraint "the approver has another approval on this level")
  else
    set { site with approvals := site.approvals.modify approval.id fun _ => row }
    pure row

/-- Removes an approval. -/
def removeApproval (approval : Approval) : SiteTask Unit :=
  modify fun site => { site with approvals := site.approvals.erase approval.id }

/-- The pending approvals, oldest first. -/
def pendingRows (site : Site) : List Approval :=
  (site.approvals.rows.filter fun a => a.status == .pending).mergeSort fun a b =>
    a.createdAt.micros < b.createdAt.micros
      || (a.createdAt.micros == b.createdAt.micros && a.id ≤ b.id)

/-- The pending approvals of an approver and from before a moment, where these are given, oldest
first. -/
def pendingRowsOf (site : Site) (approver : Option String) (before : Option Moment) :
    List Approval :=
  site.pendingRows.filter fun a =>
    approver.all (fun user => a.approver == some user)
      && before.all fun m => a.createdAt.micros < m.micros

/-- The item of an approval, unless it is archived. -/
def liveItemOf? (site : Site) (a : Approval) : Option Item :=
  (site.office.items.get? a.itemId).filter fun i => !i.isDeleted

/-- How far an item has come. -/
def progressOf (item : Item) : SiteTask Progress := do
  let rows ← rowsOf item.id
  let w ← workflowOf item.boardId
  Task.ofResult (w.progress rows (w.evaluate ((← get).office.snapshotOf item)))

end Signoff.Site
