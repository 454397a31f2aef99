import Signoff.Automation.Catalog
import Signoff.Web.Handler

/-! # Requests about automations -/

namespace Signoff.Web.Automations

open Handler

/-- Makes an automation. -/
def create (r : Request) : Handler Response := do
  let fields ← payload r
  let a ← office (Signoff.Automations.create (.object fields) (some r.user))
  pure ⟨201, a.toValue⟩

/-- Lists the automations of a board. -/
def list (r : Request) : Handler Response := do
  match ← int? r "boardId" with
  | none => refuse .required "boardId is required"
  | some board =>
    let page ← intOr r "page" 1
    let limit ← intOr r "limit" 10
    let search := Text.trim ((r.argument? "search").getD "")
    success (← office (Signoff.Automations.list (.int board) (some r.user) (r.flag? "isActive")
      search page limit))

/-- Shows an automation. -/
def find (key : Int) (r : Request) : Handler Response := do
  success (← office (Signoff.Automations.find key (some r.user))).toValue

/-- Changes an automation. -/
def update (key : Int) (r : Request) : Handler Response := do
  let fields ← payload r
  success (← office (Signoff.Automations.update key (.object fields) (some r.user))).toValue

/-- Removes an automation. -/
def remove (key : Int) (r : Request) : Handler Response := do
  office (Signoff.Automations.delete key (some r.user))
  success (.object [("deleted", .bool true)])

/-- Activates an automation, or deactivates it. -/
def toggle (key : Int) (r : Request) : Handler Response := do
  let a ← office (Signoff.Automations.toggle key (some r.user))
  success (.object [("id", .int a.id), ("isActive", .bool a.isActive)])

/-- Tries out an automation on an item. -/
def preview (key : Int) (r : Request) : Handler Response := do
  let item ← itemKey (← payload r)
  success (← office (Signoff.Automations.preview key (some r.user) item))

/-- Shows the log of an automation. -/
def log (key : Int) (r : Request) : Handler Response := do
  let limit := max 1 (min (← intOr r "limit" 50) 200)
  let rows ← office (Signoff.Automations.logOf key (some r.user) limit)
  success (.object [("logs", .list (rows.map ExecutionLog.toValue)), ("total", .int rows.length)])

end Signoff.Web.Automations
