import Signoff.Office.Basic
import Signoff.Store.Json

/-! # Items of the office

Looking up and changing items, their cells and their boards. Every operation writes all of its rows
or none.
-/

namespace Signoff.Office

/-! ## Looking up -/

/-- The item of a key; an archived one only if it is asked for. -/
def findItem (key : Int) (archived : Bool) : OfficeTask (Option Item) := do
  Task.ofResult (checkKey key)
  let o ← get
  pure ((o.items.get? key).filter fun i => archived || !i.isDeleted)

/-- The item of a key, which has to be there. -/
def requireItem (key : Int) (archived : Bool := false) : OfficeTask Item := do
  match ← findItem key archived with
  | some item => pure item
  | none => throw (.notFound "Item" (.int key))

/-- The board that a value names. -/
def findBoard (key : Value) : OfficeTask (Option Board) := do
  match ← Task.ofResult key.key? with
  | some n =>
    Task.ofResult (checkKey n)
    pure ((← get).boards.get? n)
  | none => pure none

/-- The board that a value names, which has to be there. -/
def requireBoard (key : Value) : OfficeTask Board := do
  match ← findBoard key with
  | some b => pure b
  | none => throw (.notFound "Board" key)

/-- The key of the column that a value names. -/
def columnKey (column : Value) : OfficeTask Int := do
  match ← Task.ofResult column.key? with
  | some n => pure n
  | none => throw (.notFound "Column" column)

/-- The snapshot of an item. -/
def snapshot (item : Item) : OfficeTask Snapshot := do pure ((← get).snapshotOf item)

/-! ## Writing items -/

/-- Changes the row of an item and gives it back. -/
def changeItem (item : Item) (f : Item → Item) : OfficeTask Item := do
  modify fun o => { o with items := o.items.modify item.id f }
  pure (f item)

/-- A new item on a board. -/
def createItem (boardId : Int) (name status : Value) (createdBy : String) : OfficeTask Item := do
  let name? ← Task.ofResult (TextColumn.keep 2 name)
  let status ← Task.ofResult (TextColumn.keep 3 (status.orElse (.text "")))
  let name ← Task.ofResult (TextColumn.filled "items.name" name?)
  let o ← get
  let item : Item :=
    { id := o.items.nextKey, boardId, name, status, createdBy, createdAt := o.clock }
  set { o with items := o.items.add fun _ => item }
  pure item

/-- Gives an item another name. -/
def renameItem (item : Item) (name : Value) : OfficeTask Item := do
  let name? ← Task.ofResult (TextColumn.keep 1 name)
  let name ← Task.ofResult (TextColumn.filled "items.name" name?)
  changeItem item fun i => { i with name }

/-- Gives an item another status. -/
def setStatus (item : Item) (status : Value) : OfficeTask Item := do
  let status ← Task.ofResult (TextColumn.keep 1 status)
  changeItem item fun i => { i with status }

/-- Puts an item on another board. -/
def putOnBoard (item : Item) (boardId : Int) : OfficeTask Item :=
  changeItem item fun i => { i with boardId }

/-- Archives an item now. -/
def archive (item : Item) : OfficeTask Item := do
  let now := (← get).clock
  changeItem item fun i => { i with deletedAt := some now }

/-- Takes an item out of the archive. -/
def restore (item : Item) : OfficeTask Item :=
  changeItem item fun i => { i with deletedAt := none }

/-! ## Writing cells -/

/-- Writes a cell: the stored one is changed, or a new one made. The column has to lie on the board
of the item. -/
def writeCell (itemId : Int) (column value : Value) : OfficeTask Unit := do
  let key ← columnKey column
  let item ← findItem itemId true
  Task.ofResult (checkKey key)
  let o ← get
  match item, o.columns.get? key with
  | none, _ => throw (.notFound "Item" (.int itemId))
  | some _, none => throw (.notFound "Column" column)
  | some item, some c =>
    if c.boardId != item.boardId then throw (.notFound "Column" column)
    else match o.cell? itemId key with
      | some cell =>
        set { o with cells := o.cells.modify cell.id fun row =>
          { row with value := JsonColumn.write row.value value } }
      | none =>
        set { o with cells := o.cells.add fun id => ⟨id, itemId, key, JsonColumn.keep value⟩ }

/-- Removes the cell of an item in a column, and tells how many there were. -/
def deleteCells (itemId : Int) (column : Value) : OfficeTask Int := do
  let key ← columnKey column
  Task.ofResult (checkKey key)
  Task.ofResult (checkKey itemId)
  let o ← get
  let isMeant (c : Cell) : Bool := c.itemId == itemId && c.columnId == key
  set { o with cells := o.cells.eraseWhere isMeant }
  pure ((o.cells.rows.filter isMeant).length : Int)

/-- The value of a cell, null where there is none. -/
def cellValue (itemId : Int) (column : Value) : OfficeTask Value := do
  let key ← columnKey column
  Task.ofResult (checkKey key)
  Task.ofResult (checkKey itemId)
  pure (((← get).cell? itemId key).map (·.value) |>.getD .null)

end Signoff.Office
