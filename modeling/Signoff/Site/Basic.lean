import Signoff.Access.Basic
import Signoff.Approval.Flow
import Signoff.Office.Items
import Signoff.Workflow.Schema

/-! # The site

The office together with the approvals, and the workflows that were looked up.

* `Site.within` carries an operation on the office over to the site; it cannot touch an approval.
* `Site.workflowOf` is the workflow that counts for a board, and `Site.evaluateItem` what it means
  for an item.
-/

namespace Signoff

/-- The whole state. -/
structure Site where
  office : Office
  approvals : Table Approval := {}
  /-- The workflows that were looked up before, by board. -/
  known : List (Int × Workflow) := []

/-- An operation on the site. -/
abbrev SiteTask (α : Type) := Task Site α

namespace Site

/-- Carries out an operation on the office. -/
def within {α : Type} (task : OfficeTask α) : SiteTask α :=
  ExceptT.mk fun site =>
    let (r, office) := task.run.run site.office
    (r, { site with office })

/-- The current moment. -/
def now : SiteTask Moment := do pure (← get).office.clock

/-- The item as it is now. -/
def current (item : Item) : SiteTask Item := do
  pure (((← get).office.items.get? item.id).getD item)

/-! ## Workflows -/

/-- The payload that a stored workflow was written from. -/
def payloadOf (w : StoredWorkflow) : Value :=
  .object [("name", .text w.name), ("description", .text (w.description.getD "")),
    ("levels", w.levels.orElse (.list [])), ("rules", w.rules.orElse (.list []))]

/-- The workflow that is stored for a board, or else the standard one. -/
def storedWorkflow (o : Office) (boardId : Int) : Result Workflow :=
  match o.workflows.rows.find? fun w => w.boardId == boardId with
  | some w => Workflow.ofPayload (payloadOf w)
  | none => .ok .standard

/-- The workflow that counts for a board. Once looked up it is remembered. -/
def workflowOf (boardId : Int) : SiteTask Workflow := do
  let site ← get
  match site.known.lookup boardId with
  | some w => pure w
  | none =>
    let w ← Task.ofResult (storedWorkflow site.office boardId)
    set { site with known := (boardId, w) :: site.known }
    pure w

/-- Forgets the workflow of a board, or of all boards. -/
def forget (boardId : Option Int) : SiteTask Unit :=
  modify fun site => { site with known := match boardId with
    | some b => site.known.filter fun entry => entry.1 != b
    | none => [] }

/-- The workflow that counts for an item, and what it means for it. -/
def evaluateItem (item : Item) : SiteTask (Workflow × Evaluation) := do
  let w ← workflowOf item.boardId
  let e ← Task.ofResult (w.evaluate ((← get).office.snapshotOf item))
  pure (w, e)

/-- Stores the workflow of a payload for a board. What equals the stored one is not written again. -/
def saveWorkflow (board : Board) (payload : Value) (actor : Option String) : SiteTask Workflow := do
  within (Office.demand actor (.board board) .writeWorkflow)
  let w ← Task.ofResult (Workflow.ofPayload payload)
  within (store w)
  forget (some board.id)
  pure w
where
  /-- Writes the row of the board. -/
  store (w : Workflow) : OfficeTask Unit := modify fun o =>
    match o.workflows.rows.find? fun row => row.boardId == board.id with
    | none =>
      { o with workflows := o.workflows.add fun id =>
        { id
          boardId := board.id
          name := w.name
          description := some w.description
          levels := w.levelsValue
          rules := w.rulesValue
          updatedBy := actor
          updatedAt := o.clock } }
    | some row =>
      let isSame := row.name == w.name && row.description == some w.description
        && w.levelsValue.looseEq row.levels && w.rulesValue.looseEq row.rules
        && row.updatedBy == actor
      { o with workflows := o.workflows.modify row.id fun row =>
        { row with
          name := w.name
          description := some w.description
          levels := keepEqual row.levels w.levelsValue
          rules := keepEqual row.rules w.rulesValue
          updatedBy := actor
          updatedAt := if isSame then row.updatedAt else o.clock } }

end Site
end Signoff
