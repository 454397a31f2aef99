import Signoff.Approval.Decisions
import Signoff.Approval.Overview
import Signoff.Web.Handler

/-! # Requests about approvals and workflows -/

namespace Signoff.Web.Approvals

open Handler

/-- Requests the approval of an item. -/
def request (itemId : Int) (r : Request) : Handler Response := do
  let created ← site (Signoff.Approvals.request {} itemId (some r.user))
  let overview ← site (Signoff.Approvals.overview itemId none)
  pure
    { status := if created.isEmpty then 200 else 201
      body := .object [("created", .list (created.map Approval.toValue)),
        ("status", overview.toValue)] }

/-- Shows how an item stands. -/
def overview (itemId : Int) (r : Request) : Handler Response := do
  success (← site (Signoff.Approvals.overview itemId (some r.user))).toValue

/-- Shows the history of an item. -/
def history (itemId : Int) (r : Request) : Handler Response := do
  success (← site (Signoff.Approvals.history itemId (some r.user) none))

/-- Whether an item is archived. -/
def archived (itemId : Int) (isArchived : Bool) : Handler Response :=
  success (.object [("itemId", .int itemId), ("archived", .bool isArchived)])

/-- Archives an item that is fully approved. -/
def archive (itemId : Int) (r : Request) : Handler Response := do
  if ← site (Signoff.Approvals.archive itemId (some r.user)) then archived itemId true
  else refuse .conflict "Item is not fully approved" [("itemId", .int itemId)]

/-- Takes an item out of the archive. -/
def restore (itemId : Int) (r : Request) : Handler Response := do
  if ← site (Signoff.Approvals.restore itemId (some r.user)) then archived itemId false
  else refuse .conflict "Item is not archived" [("itemId", .int itemId)]

/-- Lists the items with approvals. -/
def items (r : Request) : Handler Response := do
  let board ← int? r "boardId"
  let page ← intOr r "page" 1
  let limit ← intOr r "limit" 50
  if page < 1 || limit < 1 || 200 < limit then
    refuse .invalid "page must be >= 1 and limit 1..200" [("page", .int page), ("limit", .int limit)]
  else
    success (← site (Signoff.Approvals.listItems (some r.user) board
      ((r.argument? "filter").getD "all") ((r.argument? "search").getD "") page limit))

/-- Lists what waits for the user. -/
def pending (r : Request) : Handler Response := do
  let rows ← site (Signoff.Approvals.pendingFor (some r.user))
  success (.object [("approvals", .list (rows.map Approval.toValue)), ("total", .int rows.length)])

/-- The statuses that may be asked for. -/
def statuses : Value := .ofTexts ["approved", "pending", "rejected"]

/-- The status that a payload asks for. -/
def requestedStatus (fields : Fields) : Handler Value := do
  let status := fields.get "status"
  if !status.truthy then refuse .required "status is required"
  else if !status.isHashable then throwThe Fault (Fault.unhashable status)
  else
    match status with
    | .text word =>
      if (Status.ofWord? word).isSome then pure status else unknown status
    | v => unknown v
where
  unknown (status : Value) : Handler Value :=
    refuse .invalid ("status must be one of " ++ statuses.quoted) [("status", status)]

/-- The comments of a payload. -/
def comments (fields : Fields) : Handler (Option String) := do
  match fields.get "comments" with
  | .null => pure none
  | .text s => pure (some s)
  | _ => refuse .invalid "comments must be a string"

/-- Decides an approval. -/
def decide (key : Int) (r : Request) : Handler Response := do
  let fields ← payload r
  let status ← requestedStatus fields
  let comments ← comments fields
  let approval ← site (Signoff.Approvals.transition {} key status (some r.user) comments)
  success approval.toValue

/-- Removes an approval. -/
def remove (key : Int) (r : Request) : Handler Response := do
  site (Signoff.Approvals.delete key (some r.user))
  success (.object [("deleted", .bool true)])

/-! ## Workflows -/

/-- The workflow of a board. -/
def workflowAnswer (board : Board) (w : Workflow) : Handler Response :=
  success (.object (("boardId", .int board.id) :: w.fields))

/-- Shows the workflow of a board. -/
def workflow (boardId : Int) (r : Request) : Handler Response := do
  let board ← office (Office.requireBoard (.int boardId))
  office (Office.demand (some r.user) (.board board) .readItems)
  workflowAnswer board (← site (Site.workflowOf board.id))

/-- Stores the workflow of a board. -/
def saveWorkflow (boardId : Int) (r : Request) : Handler Response := do
  let fields ← payload r
  let board ← office (Office.requireBoard (.int boardId))
  workflowAnswer board (← site (Site.saveWorkflow board (.object fields) (some r.user)))

/-- Shows what the workflow of a board means for an item. -/
def evaluate (boardId : Int) (r : Request) : Handler Response := do
  let key ← itemKey (← payload r)
  let board ← office (Office.requireBoard (.int boardId))
  office (Office.demand (some r.user) (.board board) .readItems)
  match (← office (Office.findItem key false)).filter fun i => i.boardId == board.id with
  | none => throwThe Fault (.notFound "Item" (.int key))
  | some item =>
    let (_, e) ← site (Site.evaluateItem item)
    success e.toValue

end Signoff.Web.Approvals
