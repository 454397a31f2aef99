import Signoff.Text.Kinds
import Signoff.Web.Endpoint.Approvals
import Signoff.Web.Endpoint.Automations
import Signoff.Web.Endpoint.Items
import Signoff.Web.Endpoint.Notifications

/-! # Serving requests

* `Web.endpointsAt` is what can be done at a path: methods with their handlers.
* `Web.serve` answers a request. A path where nothing can be done is not found, and a method that a
  path does not have is not allowed. A failure is told by its envelope, and what was written before
  it stays written.
-/

namespace Signoff.Web

/-- What can be done at a path. -/
abbrev Endpoints := List (String × (Request → Handler Response))

/-- The integer of a part of a path, which has to consist of digits. -/
def number? (part : String) : Option Int :=
  if part.toList.isEmpty || part.toList.any fun c => (Text.digit? c).isNone then none
  else NumberText.readInt? part

/-- What can be done at the number of a path. -/
def at? (part : String) (endpoints : Int → Endpoints) : Endpoints :=
  match number? part with
  | some n => endpoints n
  | none => []

/-- What can be done with items. -/
def itemEndpoints : List String → Endpoints
  | [] => [("POST", Items.create)]
  | [key] => at? key fun n =>
    [("GET", Items.find n), ("PUT", Items.edit n), ("DELETE", Items.remove n)]
  | [key, "status"] => at? key fun n => [("PATCH", Items.changeStatus n)]
  | [key, "move"] => at? key fun n => [("POST", Items.move n)]
  | _ => []

/-- What can be done with approvals and workflows. -/
def approvalEndpoints : List String → Endpoints
  | ["approved-items"] => [("GET", Approvals.items)]
  | ["pending"] => [("GET", Approvals.pending)]
  | [key] => at? key fun n => [("PUT", Approvals.decide n), ("DELETE", Approvals.remove n)]
  | ["item", key] => at? key fun n => [("GET", Approvals.overview n)]
  | ["item", key, "request"] => at? key fun n => [("POST", Approvals.request n)]
  | ["item", key, "history"] => at? key fun n => [("GET", Approvals.history n)]
  | ["item", key, "archive"] => at? key fun n => [("POST", Approvals.archive n)]
  | ["item", key, "restore"] => at? key fun n => [("POST", Approvals.restore n)]
  | ["boards", key, "workflow"] => at? key fun n =>
    [("GET", Approvals.workflow n), ("POST", Approvals.saveWorkflow n)]
  | ["boards", key, "evaluate-workflow"] => at? key fun n => [("POST", Approvals.evaluate n)]
  | _ => []

/-- What can be done with automations. -/
def automationEndpoints : List String → Endpoints
  | [] => [("POST", Automations.create), ("GET", Automations.list)]
  | [key] => at? key fun n =>
    [("GET", Automations.find n), ("PUT", Automations.update n), ("DELETE", Automations.remove n)]
  | [key, "toggle"] => at? key fun n => [("PATCH", Automations.toggle n)]
  | [key, "test"] => at? key fun n => [("POST", Automations.preview n)]
  | [key, "logs"] => at? key fun n => [("GET", Automations.log n)]
  | _ => []

/-- What can be done with notifications. -/
def notificationEndpoints : List String → Endpoints
  | [] => [("GET", Notifications.list)]
  | [key, "read"] => at? key fun n => [("PATCH", Notifications.markRead n)]
  | ["read-all"] => [("POST", Notifications.markAllRead)]
  | _ => []

/-- What can be found out about the program. -/
def healthEndpoints : List String → Endpoints
  | ["ready"] => [("GET", fun _ => Health.ready)]
  | ["live"] => [("GET", fun _ => Health.live)]
  | _ => []

/-- What can be done at a path, given by its parts. -/
def endpointsAt : List String → Endpoints
  | "" :: "api" :: "v1" :: area :: rest =>
    match area with
    | "items" => itemEndpoints rest
    | "approvals" => approvalEndpoints rest
    | "automations" => automationEndpoints rest
    | "notifications" => notificationEndpoints rest
    | "health" => healthEndpoints rest
    | _ => []
  | _ => []

/-- The handler of a method. Whatever can be got can be looked at by its head only. -/
def handler? (endpoints : Endpoints) (method : String) : Option (Request → Handler Response) :=
  endpoints.lookup (if method == "HEAD" then "GET" else method)

/-- Answers by a handler. -/
def respond (handler : Handler Response) (requestId : String) : SiteTask Response := do
  match ← Task.attempt handler.run with
  | .ok (.ok response) => pure response
  | .ok (.error refusal) => pure (refusal.response requestId)
  | .error fault => pure ((fault.refusal?.getD Refusal.unexpected).response requestId)

/-- Answers a request, the head of an answer included. -/
def answer (r : Request) : SiteTask Response := do
  let endpoints := endpointsAt (r.path.splitOn "/")
  if endpoints.isEmpty then
    pure ((Refusal.of .notFound ("No route for " ++ r.path)).response r.id)
  else
    match handler? endpoints r.method with
    | some handler => respond (handler r) r.id
    | none =>
      if r.method == "OPTIONS" then pure ⟨200, .text ""⟩
      else
        let refusal := Refusal.of .invalid (r.method ++ " not allowed on " ++ r.path)
        pure ({ refusal with status := some 405 }.response r.id)

/-- Answers a request. An answer to a request for its head has no body. -/
def serve (r : Request) : SiteTask Response := do
  let response ← answer r
  pure (if r.method == "HEAD" then { response with body := .text "" } else response)

end Signoff.Web
