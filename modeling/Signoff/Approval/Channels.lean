import Signoff.Approval.Messages
import Signoff.Office.Listener
import Signoff.Site.Approvals

/-! # Channels

Who hears about decisions on approvals: a listener to events, and the users that messages go to. A
channel that fails does not stop an operation.
-/

namespace Signoff

/-- The channels of an operation. -/
structure Channels where
  listener : Listener := .automations
  /-- Do messages get through? -/
  delivers : Bool := true

namespace Channels

/-- Tells the listener about an event on an item, on the board where the item lies now. -/
def tell (c : Channels) (item : Item) (kind : EventKind) (actor : Option String)
    (note : ApprovalNote) : SiteTask Unit := do
  let item ← Site.current item
  Site.within (c.listener.tell
    { itemId := item.id
      boardId := item.boardId
      user := actor
      kind := kind
      approval := some note })

/-- What an event says about an approval. -/
def noteOf (a : Approval) : ApprovalNote :=
  { approvalId := some a.id, level := a.level, approver := a.approver, comments := a.comments }

/-- Sends messages about an item, as it is now. -/
def send (c : Channels) (item : Item) (messages : Subject → List Message) : SiteTask Unit := do
  if c.delivers then
    let item ← Site.current item
    let subject := (← get).office.subjectOf item
    (messages subject).forM fun m => discard (Site.within (Office.notify (.text m.user) m.notice))

/-- Tells about approvals that were opened: an event for each, and messages to their approvers, level
by level. -/
def announce (c : Channels) (item : Item) (opened : List Approval) (actor : Option String) :
    SiteTask Unit := do
  opened.forM fun a => c.tell item .approvalSubmitted actor (noteOf a)
  (opened.map (·.level)).eraseDups.forM fun level =>
    let approvers := (opened.filter fun a => a.level == level).map (·.approver)
    c.send item fun subject => subject.approvalRequested level approvers

end Channels
end Signoff
