import Signoff.Calendar.Duration
import Signoff.Site.Approvals
import Signoff.Store.Query

/-! # Overviews of approvals

How an item stands, the history of its approvals, what waits for somebody, and the list of all items
with approvals. An item that is fully approved can be archived, and an archived one restored.
-/

namespace Signoff

/-- How an item stands. -/
structure Overview where
  itemId : Int
  /-- The state of each level. -/
  standing : Level → Option Status
  progress : Progress
  /-- The approvals, level by level. -/
  rows : List Approval

namespace Overview

/-- The state of a level as a value. -/
def standingValue (v : Overview) (l : Level) : Value := .ofText? ((v.standing l).map Status.word)

/-- The states of the levels and of the whole as fields. -/
def stateFields (v : Overview) : Fields :=
  [("level1", v.standingValue .first), ("level2", v.standingValue .second),
    ("level3", v.standingValue .third), ("overallStatus", .text v.progress.word)]

/-- The overview as an object. -/
def toValue (v : Overview) : Value :=
  .object ([("itemId", .int v.itemId)] ++ v.stateFields
    ++ [("isComplete", .bool v.progress.isComplete),
      ("approvals", .list (v.rows.map Approval.toValue))])

/-- Is the item approved on all levels? -/
def isFull (v : Overview) : Bool := v.progress == .approved

/-- Is the item approved on some level, and neither fully approved nor rejected? -/
def isPartial (v : Overview) : Bool :=
  !v.isFull && (v.progress == .inProgress
    || (v.progress != .rejected && Level.all.any fun l => v.standing l == some .approved))

/-- The overview as a part of an item. -/
def shortValue (v : Overview) : Value :=
  .object (v.stateFields
    ++ [("isFullyApproved", .bool v.isFull), ("isPartiallyApproved", .bool v.isPartial)])

end Overview

namespace Approvals

/-- How an item stands. -/
def overviewOf (item : Item) : SiteTask Overview := do
  let rows ← Site.rowsOf item.id
  let w ← Site.workflowOf item.boardId
  let progress ← Site.progressOf item
  pure
    { itemId := item.id
      standing := w.standing rows
      progress
      rows := Level.all.flatMap (Approval.on rows) }

/-- Fails unless the actor may do it. Without an actor everything is allowed. -/
def demandIf (actor : Option String) (item : Item) (permission : Permission) : SiteTask Unit :=
  if actor.isSome then Site.within (Office.demand actor (.item item) permission) else pure ()

/-- How the item of a key stands. -/
def overview (itemId : Int) (actor : Option String) : SiteTask Overview := do
  let item ← Site.within (Office.requireItem itemId true)
  demandIf actor item .readItems
  overviewOf item

/-! ## History -/

/-- The hours that an approval took until it was decided, or takes until now. -/
def hoursTaken (a : Approval) (now : Moment) : Option Float :=
  match a.decidedAt with
  | some decided => some (Duration.hours (a.createdAt.between decided))
  | none =>
    if a.status == .pending then some (Duration.hours (a.createdAt.between now)) else none

/-- An approval with the hours that it took. -/
def historyEntry (now : Moment) (a : Approval) : Value :=
  .object (a.fields ++ [("timeTaken", match hoursTaken a now with
    | some hours => .float (NumberText.roundPlaces 2 hours)
    | none => .null)])

/-- The hours that all decisions took. -/
def totalHours (rows : List Approval) : Float :=
  rows.foldl
    (fun total a => match a.decidedAt with
      | some decided => total + Duration.hours (a.createdAt.between decided)
      | none => total)
    0.0

/-- The approvals of an item in the order of their creation, with the time that each took. -/
def history (itemId : Int) (actor : Option String) (now : Option Moment) : SiteTask Value := do
  let item ← Site.within (Office.requireItem itemId true)
  demandIf actor item .readItems
  let now := now.getD (← Site.now)
  let rows := (← Site.rowsOf item.id).mergeSort fun a b =>
    a.createdAt.micros < b.createdAt.micros
      || (a.createdAt.micros == b.createdAt.micros && a.id ≤ b.id)
  let total := totalHours rows
  pure (.object [("itemId", .int item.id), ("itemName", .text item.name),
    ("entries", .list (rows.map (historyEntry now))),
    ("totalTime", if 0.0 < total then .float (NumberText.roundPlaces 2 total) else .null)])

/-! ## Lists -/

/-- The pending approvals that the actor may decide. -/
def pendingFor (actor : Option String) : SiteTask (List Approval) := do
  let site ← get
  let live := site.pendingRows.filter fun a => (site.liveItemOf? a).isSome
  Task.ofResult (live.filterM fun a =>
    Access.allows site.office actor (.approval a) .decideApproval)

/-- Which items a list shows. -/
inductive ItemFilter where
  | all
  | fullyApproved
  | partiallyApproved
  | archived
deriving DecidableEq, Repr

/-- Every filter with its word, in the order of the words. -/
def ItemFilter.table : List (String × ItemFilter) :=
  [("all", .all), ("archived", .archived), ("fully_approved", .fullyApproved),
    ("partially_approved", .partiallyApproved)]

/-- The filter of a word, or the fault of an unknown one. -/
def ItemFilter.ofWord (word : String) : Result ItemFilter :=
  match table.lookup word with
  | some f => .ok f
  | none => .error (.rejected ("Unknown filter: " ++ word)
      [("filter", .ofTexts (table.map (·.1)))])

/-- Does the filter show an item that stands like this? -/
def ItemFilter.shows (f : ItemFilter) (v : Overview) : Bool :=
  match f with
  | .fullyApproved => v.isFull
  | .partiallyApproved => v.isPartial
  | _ => true

/-- The items with approvals, archived or not, on a board if one is given and with a name like the
search if one is given, newest first. -/
def candidates (site : Site) (archived : Bool) (boardId : Option Int) (search : String) :
    List Item :=
  (site.office.items.rows.filter fun i =>
    site.approvals.rows.any (fun a => a.itemId == i.id) && i.isDeleted == archived
      && boardId.all (fun b => i.boardId == b)
      && (search.isEmpty || Text.hasLike search i.name)).mergeSort fun a b =>
    b.createdAt.micros < a.createdAt.micros
      || (a.createdAt.micros == b.createdAt.micros && b.id ≤ a.id)

/-- Those of the items that the actor may read and the filter shows, with how they stand. -/
def listed (actor : Option String) (f : ItemFilter) : List Item → SiteTask (List Value)
  | [] => pure []
  | item :: rest => do
    if ← Task.ofResult (Access.allows (← get).office actor (.item item) .readItems) then
      let v ← overviewOf item
      let others ← listed actor f rest
      if f.shows v then
        pure (.object (item.fields ++ [("approvalStatus", v.shortValue)]) :: others)
      else pure others
    else listed actor f rest

/-- A page of the items with approvals that the actor may read. -/
def listItems (actor : Option String) (boardId : Option Int) (filter : String) (search : String)
    (page limit : Int) : SiteTask Value := do
  let f ← Task.ofResult (ItemFilter.ofWord filter)
  boardId.forM fun b => Task.ofResult (checkKey b)
  let items ← listed actor f (candidates (← get) (f == .archived) boardId search)
  let start := (page - 1) * limit
  pure (.object [("items", .list (sliceOf items start (start + limit))),
    ("total", .int items.length)])

/-! ## Archive -/

/-- Archives an item if it is fully approved, and tells whether it did. -/
def archive (itemId : Int) (actor : Option String) : SiteTask Bool := do
  let item ← Site.within (Office.requireItem itemId)
  demandIf actor item .archiveItem
  if (← Site.progressOf item) == .approved then
    discard (Site.within (Office.archive item))
    pure true
  else pure false

/-- Takes an item out of the archive if it is there, and tells whether it did. -/
def restore (itemId : Int) (actor : Option String) : SiteTask Bool := do
  let item ← Site.within (Office.requireItem itemId true)
  demandIf actor item .archiveItem
  if item.isDeleted then
    discard (Site.within (Office.restore item))
    pure true
  else pure false

end Approvals
end Signoff
