import Signoff.Automation.Execution
import Signoff.Condition.Written

/-! # The automations of a board

An event on a board runs every active automation of the board whose trigger matches the event and
whose conditions hold, oldest first. What an automation looks at is the state as the event tells it;
when the event does not tell, the item is looked up once, in front of the first automation. An
automation that fails does not concern the others, and never the one who caused the event.

* `Automations.react` runs the automations for one event.
* `Automations.dailyPass` shows every item of the boards with tests of dates to their automations.
-/

namespace Signoff.Automations

/-- The active automations of a board, oldest first. -/
def activeOn (o : Office) (boardId : Int) : List Automation :=
  (o.automations.rows.filter fun a => a.boardId == boardId && a.isActive).mergeSort fun a b =>
    a.createdAt.micros < b.createdAt.micros
      || (a.createdAt.micros == b.createdAt.micros && a.id ≤ b.id)

/-- The event with the snapshot of its item, if it tells none and there is one. -/
def withSnapshot (event : Event) : OfficeTask Event := do
  match event.after with
  | some _ => pure event
  | none =>
    match ← Office.findItem event.itemId true with
    | some item => pure { event with after := some (← Office.snapshot item) }
    | none => pure event

/-- Does the automation answer the event? Its trigger matches, and its conditions hold. -/
def answers (a : Automation) (event : Event) (today : Date) : Result Bool := do
  if ← Trigger.matchesEvent a.trigger event today then
    Condition.conditionsHold a.conditions (event.after.getD [])
  else pure false

/-- Writes a row about a run into the log. -/
def log (a : Automation) (event : Event) (results : List ActionResult) : OfficeTask Unit := do
  Task.ofResult (checkKey event.itemId)
  let reasons := results.filterMap fun r => r.failure.filter fun reason => !reason.isEmpty
  modify fun o => { o with logs := o.logs.add fun id =>
    { id
      automationId := a.id
      itemId := event.itemId
      eventType := event.kind.word
      status := ActionResult.statusOf results
      results
      error := if reasons.isEmpty then none else some ("; ".intercalate reasons)
      executedAt := o.clock } }

/-- Runs an automation if it answers the event. -/
def run (a : Automation) (event : Event) (today : Date) : OfficeTask (Option Firing) := do
  if ← Task.ofResult (answers a event today) then
    let results ← Action.executeAll a.actions event (some a.id)
    log a event results
    pure (some ⟨a.id, results⟩)
  else pure none

/-- Runs automations one after another; one that fails is passed over. -/
def runAll (event : Event) (today : Date) : List Automation → OfficeTask (List Firing)
  | [] => pure []
  | a :: rest => do
    let firing ← Task.attempt (run a event today)
    let others ← runAll event today rest
    match firing with
    | .ok (some f) => pure (f :: others)
    | _ => pure others

/-- What the automations of the event's board make of it. -/
def fire (event : Event) (today : Date) : OfficeTask (List Firing) := do
  let active := activeOn (← get) event.boardId
  if active.isEmpty then pure []
  else
    match ← Task.attempt (withSnapshot event) with
    | .ok event => runAll event today active
    | .error _ => pure []

/-- Tells the automations about an event, and notes down what they answer. Where no day is given, it
is the day of the clock. -/
def react (event : Event) (today : Option Date := none) : OfficeTask (List Firing) := do
  let firings ← fire event (today.getD (← get).clock.date)
  modify fun o => { o with heard := ⟨event, some firings⟩ :: o.heard }
  pure firings

/-! ## The daily pass -/

/-- What a daily pass went over. -/
structure PassCounts where
  boards : Int := 0
  items : Int := 0
  fired : Int := 0

/-- The counts as an object. -/
def PassCounts.toValue (c : PassCounts) : Value :=
  .object [("boards", .int c.boards), ("items", .int c.items), ("fired", .int c.fired)]

/-- The boards with an active automation that tests a date, in order. -/
def datedBoards (o : Office) : Result (List Int) := do
  let dated ← (o.automations.rows.filter (·.isActive)).filterM Automation.hasDateTrigger
  pure ((dated.map (·.boardId)).eraseDups.mergeSort fun a b => a ≤ b)

/-- Shows an item, as it is now, to the automations of a board. -/
def showItem (boardId : Int) (today : Option Date) (item : Item) : OfficeTask Int := do
  let o ← get
  let item := (o.items.get? item.id).getD item
  let firings ← react
    { itemId := item.id
      boardId := boardId
      user := some item.createdBy
      kind := .dateCheck
      after := some (o.snapshotOf item) } today
  pure (firings.length : Int)

/-- Shows the items that lie on a board when its turn comes to its automations. -/
def passBoard (today : Option Date) (counts : PassCounts) (boardId : Int) :
    OfficeTask PassCounts := do
  let items := (← get).itemsOf boardId
  let fired ← items.mapM (showItem boardId today)
  pure
    { boards := counts.boards + 1
      items := counts.items + items.length
      fired := counts.fired + fired.foldl (· + ·) 0 }

/-- Shows every item of the boards with tests of dates to their automations, board after board. -/
def dailyPass (today : Option Date := none) : OfficeTask PassCounts := do
  let boards ← Task.ofResult (datedBoards (← get))
  boards.foldlM (passBoard today) {}

end Signoff.Automations
