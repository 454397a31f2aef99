import Signoff.Office.Notices
import Signoff.Store.Query
import Signoff.Web.Handler

/-! # Requests about notifications and about the state of the program -/

namespace Signoff.Web.Notifications

open Handler

/-- Lists the notifications of the user. -/
def list (r : Request) : Handler Response := do
  let limit := max 1 (min (← intOr r "limit" 50) 200)
  let offset := max 0 (← intOr r "offset" 0)
  site (Task.ofResult (checkKey offset))
  let rows := (← get).office.noticesOf r.user ((r.flag? "unreadOnly").getD false)
  success (.object [
    ("notifications", .list ((sliceOf rows offset (offset + limit)).map Notification.toValue)),
    ("total", .int rows.length)])

/-- Marks a notification as read. -/
def markRead (key : Int) (r : Request) : Handler Response := do
  success (← office (Office.markRead key r.user)).toValue

/-- Marks every notification of the user as read. -/
def markAllRead (r : Request) : Handler Response := do
  success (.object [("updated", .int (← office (Office.markAllRead r.user)))])

end Signoff.Web.Notifications

namespace Signoff.Web.Health

open Handler

/-- The program runs. -/
def ready : Handler Response := success (.object [("status", .text "ok")])

/-- The state of the parts of the program. -/
def live : Handler Response := do
  let setting := (← get).office.setting
  success (.object [
    ("status", .text "ok"),
    ("checks", .object [
      ("database", .object [("status", .text "ok"), ("latency_ms", .float 0.0)]),
      ("scheduler", .object [
        ("enabled", .bool (setting "AUTOMATION_SCHEDULER_ENABLED").truthy),
        ("initialized", .bool true)]),
      ("app", .object [("name", .text "Boardflow"), ("debug", setting "DEBUG"),
        ("testing", setting "TESTING")])])])

end Signoff.Web.Health
