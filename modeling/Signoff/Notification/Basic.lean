import Signoff.Board.Basic

/-! # Notifications

A message to one user, which the user may have read.
-/

namespace Signoff

/-- A notification as it is kept. -/
structure Notification where
  id : Int
  user : String
  type : String
  title : String
  message : Option String
  link : Option String
  metadata : Fields
  isRead : Bool := false
  readAt : Option Moment := none
  createdAt : Moment

instance : Row Notification := ⟨Notification.id⟩

/-- The notification as an object. -/
def Notification.toValue (n : Notification) : Value :=
  .object [("id", .int n.id), ("user_id", .text n.user), ("type", .text n.type),
    ("title", .text n.title), ("message", .ofText? n.message), ("link", .ofText? n.link),
    ("metadata", .object n.metadata), ("is_read", .bool n.isRead),
    ("read_at", .ofMoment? n.readAt), ("created_at", n.createdAt.toValue)]

end Signoff
