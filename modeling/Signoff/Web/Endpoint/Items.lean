import Signoff.Item.Changes
import Signoff.Web.Handler

/-! # Requests about items -/

namespace Signoff.Web.Items

open Handler

/-- An item with its cells. -/
def answer (status : Int) (item : Item) : Handler Response := do
  pure ⟨status, (← get).office.itemValue item⟩

/-- Cells under the integers that name their columns; a later one of the same column counts. -/
def numbered : Fields → Option (List (Int × Value))
  | [] => some []
  | (name, v) :: rest => do
    let key ← NumberText.readInt? name
    let others ← numbered rest
    some ((key, (others.lookup key).getD v) :: others.filter fun cell => cell.1 != key)

/-- The cells of a payload. -/
def cells (fields : Fields) : Handler ItemChange.Cells := do
  match fields.get "cells" with
  | .null => pure []
  | .object entries =>
    match numbered entries with
    | some cells => pure (cells.map fun (key, v) => (.int key, v))
    | none => refuse .invalid "cells keys must be column ids"
  | _ => refuse .invalid "cells must be an object keyed by column id"

/-- Creates an item. -/
def create (r : Request) : Handler Response := do
  let fields ← payload r
  let board ← needed fields "boardId"
  let cells ← cells fields
  let item ← office (ItemChange.create .automations board (some r.user) (fields.get "name")
    ((fields.get "status").orElse (.text "")) cells)
  answer 201 item

/-- Shows an item. -/
def find (key : Int) (r : Request) : Handler Response := do
  let item ← office (ItemChange.readable key (some r.user))
  answer 200 item

/-- Changes the name and the cells of an item. -/
def edit (key : Int) (r : Request) : Handler Response := do
  let fields ← payload r
  let cells ← cells fields
  let item ← office (ItemChange.edit .automations key (some r.user) (fields.get "name") cells)
  answer 200 item

/-- Changes the status of an item. -/
def changeStatus (key : Int) (r : Request) : Handler Response := do
  let fields ← payload r
  match fields.get "status" with
  | .text s =>
    if s.isEmpty then refuse .required "status is required"
    else
      let item ← office (ItemChange.changeStatus .automations key (some r.user) (.text s))
      answer 200 item
  | _ => refuse .required "status is required"

/-- Moves an item. -/
def move (key : Int) (r : Request) : Handler Response := do
  let board ← needed (← payload r) "boardId"
  let item ← office (ItemChange.move .automations key (some r.user) board)
  answer 200 item

/-- Archives an item. -/
def remove (key : Int) (r : Request) : Handler Response := do
  discard <| office (ItemChange.remove .automations key (some r.user))
  success (.object [("deleted", .bool true)])

end Signoff.Web.Items
