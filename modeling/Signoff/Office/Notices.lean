import Signoff.Calendar.Duration
import Signoff.Office.Basic

/-! # Notifications of the office

Sending notifications and marking them as read. Several users get the same message at once, each of
them one time.
-/

namespace Signoff

/-- What a notification says. -/
structure Notice where
  type : String
  title : Value
  message : Value
  link : Value
  metadata : Fields

namespace Office

/-- The columns of a notification to a user, as they are kept. A message that is null is kept as the
empty text. -/
def keepNotice (notice : Notice) (user : Value) : Result (Int → Moment → Notification) := do
  let user? ← TextColumn.keep 1 user
  let title? ← TextColumn.keep 3 notice.title
  let message ← TextColumn.keep 4
    (if notice.message.isNull then .text "" else notice.message)
  let link ← TextColumn.keep 5 notice.link
  let user ← TextColumn.filled "notifications.user_id" user?
  let title ← TextColumn.filled "notifications.title" title?
  pure fun id now =>
    { id, user, type := notice.type, title, message, link, metadata := notice.metadata,
      createdAt := now }

/-- Sends a notification to a user. -/
def notify (user : Value) (notice : Notice) : OfficeTask Notification := do
  let make ← Task.ofResult (keepNotice notice user)
  let o ← get
  let row := make o.notifications.nextKey o.clock
  set { o with notifications := o.notifications.add fun _ => row }
  pure row

/-- The users of a list that count, each once, in the order of their first appearance. -/
def distinctUsers : List Value → List Value → Result (List Value)
  | seen, [] => .ok seen.reverse
  | seen, v :: rest =>
    if !v.truthy then distinctUsers seen rest
    else if !v.isHashable then .error (Fault.unhashable v)
    else if seen.any v.looseEq then distinctUsers seen rest
    else distinctUsers (v :: seen) rest

/-- Sends a notification to several users, once to each. -/
def notifyMany (users : List Value) (notice : Notice) : OfficeTask (List Notification) := do
  let users ← Task.ofResult (distinctUsers [] users)
  let makers ← Task.ofResult (users.mapM (keepNotice notice))
  let o ← get
  let table := makers.foldl (fun table make => table.add fun id => make id o.clock) o.notifications
  set { o with notifications := table }
  pure (table.rows.drop o.notifications.rows.length)

/-- The notifications of a user, newest first. -/
def noticesOf (o : Office) (user : String) (unreadOnly : Bool) : List Notification :=
  ((o.notifications.rows.filter fun n => n.user == user && (!unreadOnly || !n.isRead))).mergeSort
    fun a b => b.createdAt.micros < a.createdAt.micros
      || (a.createdAt.micros == b.createdAt.micros && b.id ≤ a.id)

/-- Marks a notification of a user as read. -/
def markRead (key : Int) (user : String) : OfficeTask Notification := do
  Task.ofResult (checkKey key)
  let o ← get
  match (o.notifications.get? key).filter fun n => n.user == user with
  | none => throw (.notFound "Notification" (.int key))
  | some n =>
    if n.isRead then pure n
    else
      let read := { n with isRead := true, readAt := some o.clock }
      set { o with notifications := o.notifications.modify key fun _ => read }
      pure read

/-- Marks every unread notification of a user as read, and tells how many there were. -/
def markAllRead (user : String) : OfficeTask Int := do
  let o ← get
  let isMeant (n : Notification) : Bool := n.user == user && !n.isRead
  let mark (n : Notification) : Notification :=
    if isMeant n then { n with isRead := true, readAt := some o.clock } else n
  set { o with notifications := ⟨o.notifications.rows.map mark⟩ }
  pure ((o.notifications.rows.filter isMeant).length : Int)

/-- Did the user get a notification of one of the types, about the given subject, since a moment? -/
def sentSince (o : Office) (user : String) (types : List String) (since : Moment) (key : String)
    (subject : Value) : Bool :=
  o.notifications.rows.any fun n =>
    n.user == user && types.contains n.type && since.micros ≤ n.createdAt.micros
      && (n.metadata.get key).looseEq subject

/-- Did the user get such a notification in the last hours? -/
def sentWithin (o : Office) (user : String) (types : List String) (hours : Value) (key : String)
    (subject : Value) : Result Bool := do
  let since ← o.clock.plus (-(← Duration.ofHours hours))
  pure (o.sentSince user types since key subject)

end Office
end Signoff
