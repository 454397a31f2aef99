import Signoff.Board.Basic
import Signoff.Condition.Basic
import Signoff.Number.Text
import Signoff.Text.Case

/-! # Items

An item lies on a board and has a cell for some of the columns. An archived item keeps its row and
carries the moment of its removal.
-/

namespace Signoff

/-- An item. -/
structure Item where
  id : Int
  boardId : Int
  name : String
  status : Option String
  createdBy : String
  createdAt : Moment
  /-- When it was archived. -/
  deletedAt : Option Moment := none

/-- The value that an item has in a column. -/
structure Cell where
  id : Int
  itemId : Int
  columnId : Int
  value : Value

instance : Row Item := ⟨Item.id⟩
instance : Row Cell := ⟨Cell.id⟩

namespace Item

/-- Is the item archived? -/
def isDeleted (item : Item) : Bool := item.deletedAt.isSome

/-- The item as an object, without its cells. -/
def fields (item : Item) : Fields :=
  [("id", .int item.id), ("board_id", .int item.boardId), ("name", .text item.name),
    ("status", .ofText? item.status), ("created_by", .text item.createdBy),
    ("created_at", item.createdAt.toValue), ("deleted_at", .ofMoment? item.deletedAt)]

/-- The item with its cells as an object. -/
def toValue (item : Item) (cells : List Cell) : Value :=
  .object (item.fields ++ [("cells", .object (cells.foldl (fun acc c =>
    Fields.set acc (NumberText.intText c.columnId) c.value) ([] : Fields)))])

/-- The flat view of an item: its key, name and status, and every cell under the key of its column
and under the name of its column in lower case. Later entries overwrite earlier ones of the same
name. -/
def snapshot (item : Item) (cells : List (Cell × Option Column)) : Snapshot :=
  cells.foldl
    (fun acc (cell, column) =>
      let acc := Fields.set acc (NumberText.intText cell.columnId) cell.value
      match column with
      | some c => Fields.set acc (Text.lower c.name) cell.value
      | none => acc)
    ([("id", .int item.id), ("name", .text item.name), ("status", .ofText? item.status)] : Fields)

end Item

/-- The cell as an object. -/
def Cell.toValue (c : Cell) : Value :=
  .object [("id", .int c.id), ("item_id", .int c.itemId), ("column_id", .int c.columnId),
    ("value", c.value)]

end Signoff
