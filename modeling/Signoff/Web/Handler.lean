import Signoff.Site.Basic
import Signoff.Web.Envelope
import Signoff.Web.Request

/-! # Handlers

A handler answers a request by an operation on the site. It may refuse the request by itself, or the
operation may fail.
-/

namespace Signoff

/-- The answer to a request by an operation on the site. -/
abbrev Handler (α : Type) := ExceptT Refusal (Task Site) α

namespace Handler

/-- Carries out an operation on the site. -/
def site {α : Type} (task : SiteTask α) : Handler α := ExceptT.lift task

/-- Carries out an operation on the office. -/
def office {α : Type} (task : OfficeTask α) : Handler α := site (Site.within task)

/-- Refuses the request. -/
def refuse {α : Type} (code : ErrorCode) (message : String) (details : Fields := []) : Handler α :=
  throw (Refusal.of code message details)

/-- The object that the request has to carry. -/
def payload (r : Request) : Handler Fields :=
  match r.object? with
  | some fields => pure fields
  | none => refuse .invalid "Request body must be a JSON object"

/-- An integer of the query. -/
def int? (r : Request) (name : String) : Handler (Option Int) :=
  match r.filled? name with
  | none => pure none
  | some s =>
    match NumberText.readInt? s with
    | some n => pure (some n)
    | none => refuse .invalid (name ++ " must be an integer") [(name, .text s)]

/-- An integer of the query, or the given one where there is none. -/
def intOr (r : Request) (name : String) (default : Int) : Handler Int := do
  pure ((← int? r name).getD default)

/-- A field of the payload that has to be there. -/
def needed (fields : Fields) (name : String) : Handler Value := do
  let v := fields.get name
  if v.isNull then refuse .required (name ++ " is required") else pure v

/-- The key of an item in the payload. -/
def itemKey (fields : Fields) : Handler Int := do
  match ← needed fields "itemId" with
  | .int n => pure n
  | _ => refuse .invalid "itemId must be an integer"

/-- A response of success. -/
def success (body : Value) : Handler Response := pure ⟨200, body⟩

end Handler
end Signoff
