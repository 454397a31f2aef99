import Signoff.Automation.Engine

/-! # Listeners

Who is told about the events of an operation. Whatever a listener does, the operation goes on as if
nobody had listened.
-/

namespace Signoff

/-- Who is told about events. -/
inductive Listener where
  /-- The automations, which run. -/
  | automations
  /-- Nobody. -/
  | nobody
  /-- Somebody who only notes the events down. -/
  | recorder
  /-- Somebody who fails at every event. -/
  | failing
deriving DecidableEq, Repr

/-- Tells a listener about an event. -/
def Listener.tell (listener : Listener) (event : Event) : OfficeTask Unit :=
  match listener with
  | .automations => discard (Automations.react event)
  | .recorder => modify fun o => { o with heard := ⟨event, none⟩ :: o.heard }
  | .nobody | .failing => pure ()

end Signoff
