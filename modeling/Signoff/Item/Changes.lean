import Signoff.Access.Basic
import Signoff.Office.Items
import Signoff.Office.Listener

/-! # Changes of items

The operations by which members of a workspace change its items. Each of them looks up what it is
about, asks for permission, checks its input, writes, and tells a listener what happened, with the
snapshots in front of the change and behind it. An edit that changes nothing is not told.

The item that an operation returns is the item as it is after the listener was told.
-/

namespace Signoff.ItemChange

/-- Cells to be written: columns with values. -/
abbrev Cells := List (Value × Value)

/-- Fails unless every column lies on the board. -/
def checkColumns (boardId : Int) (cells : Cells) : OfficeTask Unit := do
  let known := ((← get).columnsOf boardId).map fun c => NumberText.intText c.id
  match cells.find? fun cell => !known.contains cell.1.display with
  | some cell => throw (.notFound "Column" cell.1)
  | none => pure ()

/-- Writes cells one after another. -/
def writeCells (itemId : Int) (cells : Cells) : OfficeTask Unit :=
  cells.forM fun cell => Office.writeCell itemId cell.1 cell.2

/-- The item as it is now. -/
def current (item : Item) : OfficeTask Item := do
  pure (((← get).items.get? item.id).getD item)

/-- The live item of a key, which the actor may read. -/
def readable (itemId : Int) (actor : Option String) : OfficeTask Item := do
  let item ← Office.requireItem itemId
  Office.demand actor (.item item) .readItems
  pure item

/-- Creates an item on a board. -/
def create (listener : Listener) (board : Value) (actor : Option String) (name status : Value)
    (cells : Cells) : OfficeTask Item := do
  let board ← Office.requireBoard board
  Office.demand actor (.board board) .readItems
  let trimmed := Text.trim name.display
  if !name.truthy || trimmed.isEmpty then
    throw (.rejected "name is required" [("name", .text "required")])
  checkColumns board.id cells
  let item ← Office.createItem board.id (.text trimmed) status (actor.getD "")
  writeCells item.id cells
  let after ← Office.snapshot item
  listener.tell
    { itemId := item.id
      boardId := board.id
      user := actor
      kind := .itemCreated
      after := some after
      changed := after.filter fun field => field.1 != "id" }
  current item

/-- The fields of the second snapshot that the first one does not have or has with another value. -/
def changedFields (before after : Snapshot) : Fields :=
  after.filter fun field => !(Fields.get before field.1).looseEq field.2

/-- Changes the name of an item, unless none is given, and its cells. -/
def edit (listener : Listener) (itemId : Int) (actor : Option String) (name : Value)
    (cells : Cells) : OfficeTask Item := do
  let item ← readable itemId actor
  checkColumns item.boardId cells
  let before ← Office.snapshot item
  let item ← if name.isNull || name.looseEq (.text item.name) then pure item
    else Office.renameItem item name
  writeCells item.id cells
  let after ← Office.snapshot item
  let changed := changedFields before after
  if changed.isEmpty then pure item
  else
    listener.tell
      { itemId := item.id
        boardId := item.boardId
        user := actor
        kind := .itemUpdated
        before := some before
        after := some after
        changed := changed }
    current item

/-- Changes the status of an item. -/
def changeStatus (listener : Listener) (itemId : Int) (actor : Option String) (status : Value) :
    OfficeTask Item := do
  let item ← readable itemId actor
  let before ← Office.snapshot item
  if (before.get "status").looseEq status then pure item
  else
    let item ← Office.setStatus item status
    let after ← Office.snapshot item
    listener.tell
      { itemId := item.id
        boardId := item.boardId
        user := actor
        kind := .statusChanged
        before := some before
        after := some after
        changed := [("status", status)] }
    current item

/-- Archives an item. -/
def remove (listener : Listener) (itemId : Int) (actor : Option String) : OfficeTask Item := do
  let item ← readable itemId actor
  let before ← Office.snapshot item
  let item ← Office.archive item
  listener.tell
    { itemId := item.id
      boardId := item.boardId
      user := actor
      kind := .itemDeleted
      before := some before
      after := some before }
  current item

/-- Moves an item to another board, whose automations are told. -/
def move (listener : Listener) (itemId : Int) (actor : Option String) (board : Value) :
    OfficeTask Item := do
  let item ← readable itemId actor
  let target ← Office.requireBoard board
  Office.demand actor (.board target) .readItems
  if item.boardId == target.id then pure item
  else
    let before ← Office.snapshot item
    let moved ← Office.putOnBoard item target.id
    let after ← Office.snapshot moved
    listener.tell
      { itemId := item.id
        boardId := target.id
        user := actor
        kind := .itemMoved
        before := some (Fields.set before "boardId" (.int item.boardId))
        after := some (Fields.set after "boardId" (.int target.id))
        changed := [("boardId", .int target.id)] }
    current moved

end Signoff.ItemChange
