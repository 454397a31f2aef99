import Signoff.Approval.Channels

/-! # Alerts

What is sent about approvals that are pending for long: reminders, alerts in front of and behind a
deadline, and escalations. Each of them looks whether something of the kind was sent to the same user
about the same approval lately, and then keeps quiet.
-/

namespace Signoff.Alerts

/-- Was one of these kinds of messages sent to the user about the approval in the last hours? -/
def sentWithin (user : String) (types : List String) (hours : Int) (approvalId : Int) :
    SiteTask Bool := do
  Task.ofResult ((← get).office.sentWithin user types (.int hours) "approvalId" (.int approvalId))

/-- A value, or the setting of this name where it is null. -/
def valueOrSetting (v : Value) (name : String) (default : Int) : SiteTask Value := do
  if v.isNull then pure (((← get).office.settings.get? name).getD (.int default)) else pure v

/-- The approver of an approval and its item, if there is an approver and the item is not archived. -/
def addressee? (site : Site) (a : Approval) : Option (String × Item) := do
  let approver ← a.approver
  let item ← site.liveItemOf? a
  if approver.isEmpty then none else some (approver, item)

/-! ## Reminders -/

/-- How many approvals were found, and for how many a reminder was sent. -/
structure ReminderCounts where
  pending : Int := 0
  reminded : Int := 0

/-- The counts as an object. -/
def ReminderCounts.toValue (c : ReminderCounts) : Value :=
  .object [("pending", .int c.pending), ("reminded", .int c.reminded)]

/-- Sends a reminder of one approval, and tells whether it did. -/
def remind (c : Channels) (now : Moment) (a : Approval) : SiteTask Bool := do
  match addressee? (← get) a with
  | none => pure false
  | some (approver, item) =>
    if ← sentWithin approver ["approval_reminder"] 24 a.id then pure false
    else
      let hours := Duration.wholeHours (a.createdAt.between now)
      c.send item fun s => s.reminder a.pending (.int hours)
      pure true

/-- Sends reminders of the approvals that are pending for more than so many hours, or as many as the
settings say. -/
def sendReminders (c : Channels) (hours : Value) (now : Option Moment) :
    SiteTask ReminderCounts := do
  let hours ← valueOrSetting hours "APPROVAL_REMINDER_HOURS" 24
  let now := now.getD (← Site.now)
  let limit ← Task.ofResult (do now.plus (-(← Duration.ofHours hours)))
  let due := (← get).pendingRowsOf none (some limit)
  let sent ← due.mapM (remind c now)
  pure { pending := due.length, reminded := (sent.filter id).length }

/-! ## Deadlines -/

/-- Of how many approvals the deadline was looked at, and how many alerts were sent. -/
structure DeadlineCounts where
  checked : Int := 0
  approaching : Int := 0
  overdue : Int := 0

/-- The counts as an object. -/
def DeadlineCounts.toValue (c : DeadlineCounts) : Value :=
  .object [("checked", .int c.checked), ("approaching", .int c.approaching),
    ("overdue", .int c.overdue)]

/-- Is a number of hours at most the given one? -/
def atMost (hours : Float) (bound : Value) : Result Bool :=
  match bound, bound.asInt? with
  | .float x, _ => .ok (hours ≤ x)
  | _, some n => .ok ((Binary.compareInt? hours n).any fun order => order != .gt)
  | v, none => .error (.wrongKind ("'<=' not supported between instances of 'float' and "
      ++ Text.quoted v.kindName))

/-- The limit of an approval in hours: that of its level. -/
def timeoutOf? (w : Workflow) (a : Approval) : Option Float :=
  (w.configNamed? a.level).bind fun c => c.timeoutHours.filter fun hours => !(hours == 0.0)

/-- Sends an alert about the deadline of one approval, if it is time for one. -/
def alert (c : Channels) (hoursBefore : Value) (now : Moment) (counts : DeadlineCounts)
    (a : Approval) : SiteTask DeadlineCounts := do
  match addressee? (← get) a with
  | none => pure counts
  | some (approver, item) =>
    let w ← Site.workflowOf item.boardId
    match timeoutOf? w a with
    | none => pure counts
    | some timeout =>
      let counts := { counts with checked := counts.checked + 1 }
      let deadline ← Task.ofResult (do a.createdAt.plus (← Duration.ofHours (.float timeout)))
      let hoursLeft := Duration.hours (now.between deadline)
      if 0.0 < hoursLeft then
        if !(← Task.ofResult (atMost hoursLeft hoursBefore)) then pure counts
        else if ← sentWithin approver
            ["approval_deadline_approaching", "approval_deadline_passed"] 12 a.id then pure counts
        else
          c.send item fun s => s.deadlineApproaching a.pending deadline (.float hoursLeft)
          pure { counts with approaching := counts.approaching + 1 }
      else if ← sentWithin approver ["approval_deadline_passed"] 24 a.id then pure counts
      else
        c.send item fun s => s.deadlinePassed a.pending deadline (.float (-hoursLeft))
        pure { counts with overdue := counts.overdue + 1 }

/-- Sends alerts about deadlines that have passed, or will within so many hours, or as many as the
settings say. -/
def sendDeadlineAlerts (c : Channels) (hoursBefore : Value) (now : Option Moment) :
    SiteTask DeadlineCounts := do
  let hoursBefore ← valueOrSetting hoursBefore "APPROVAL_DEADLINE_ALERT_HOURS" 24
  let now := now.getD (← Site.now)
  (← get).pendingRows.foldlM (alert c hoursBefore now) {}

/-! ## Escalations -/

/-- How many approvals were looked at, and how many escalations were sent. -/
structure EscalationCounts where
  checked : Int := 0
  escalated : Int := 0

/-- The counts as an object. -/
def EscalationCounts.toValue (c : EscalationCounts) : Value :=
  .object [("checked", .int c.checked), ("escalated", .int c.escalated)]

/-- Escalates one approval if it is pending for longer than its level allows, and tells whether the
message got through. -/
def escalate (c : Channels) (now : Moment) (a : Approval) : SiteTask Bool := do
  match (← get).liveItemOf? a with
  | none => pure false
  | some item =>
    let w ← Site.workflowOf item.boardId
    let user? := (w.configNamed? a.level).bind fun config =>
      config.escalationUser.filter fun user => !user.isEmpty
    match timeoutOf? w a, user? with
    | some timeout, some user =>
      let hours := Duration.hours (a.createdAt.between now)
      if hours < timeout then pure false
      else if ← sentWithin user ["approval_escalation"] 24 a.id then pure false
      else
        let whole := (Binary.truncate? hours).getD 0
        c.send item fun s => s.escalation a.pending (some user) (.int whole)
        pure c.delivers
    | _, _ => pure false

/-- Escalates the approvals that are pending for longer than their levels allow. -/
def sendEscalations (c : Channels) (now : Option Moment) : SiteTask EscalationCounts := do
  let now := now.getD (← Site.now)
  let pending := (← get).approvals.rows.filter fun a => a.status == .pending
  let sent ← pending.mapM (escalate c now)
  pure { checked := pending.length, escalated := (sent.filter id).length }

end Signoff.Alerts
