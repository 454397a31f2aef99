/-! # Tables

A table holds rows in the order of their keys. A new row gets the key behind the greatest one, so that
the key of the last row becomes free when that row is removed.
-/

namespace Signoff

/-- Rows have a key. -/
class Row (α : Type) where
  key : α → Int

/-- A table: rows in the order of their keys. -/
structure Table (α : Type) where
  rows : List α := []
deriving Inhabited

namespace Table

variable {α : Type} [Row α]

/-- The row of a key. -/
def get? (t : Table α) (key : Int) : Option α := t.rows.find? fun row => Row.key row == key

/-- The greatest key of the rows, zero where there is none. -/
def lastKey (t : Table α) : Int := t.rows.foldl (fun n row => max n (Row.key row)) 0

/-- The key of the next new row. -/
def nextKey (t : Table α) : Int := t.lastKey + 1

/-- Adds a row that is made with the next key. -/
def add (t : Table α) (make : Int → α) : Table α := ⟨t.rows ++ [make t.nextKey]⟩

/-- Changes the row of a key. -/
def modify (t : Table α) (key : Int) (f : α → α) : Table α :=
  ⟨t.rows.map fun row => if Row.key row == key then f row else row⟩

/-- Removes the row of a key. -/
def erase (t : Table α) (key : Int) : Table α :=
  ⟨t.rows.filter fun row => Row.key row != key⟩

omit [Row α] in
/-- Removes every row for which the test holds. -/
def eraseWhere (t : Table α) (test : α → Bool) : Table α := ⟨t.rows.filter fun row => !test row⟩

/-- A new row comes behind the rows that are there. -/
theorem rows_add (t : Table α) (make : Int → α) :
    (t.add make).rows = t.rows ++ [make t.nextKey] := rfl

end Table
end Signoff
