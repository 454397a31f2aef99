import Signoff.Approval.Alerts
import Signoff.Job.Basic
import Signoff.Job.Session
import Signoff.Office.Listener

/-! # Registered jobs

A registered job has a name, a description and the work that it does in a session. The four standard
jobs look at the dates of items and at approvals that are pending for long; they store what they write
at once.
-/

namespace Signoff

/-- A registered job. -/
structure RegisteredJob where
  name : String
  /-- What the job says about itself. -/
  about : Option String
  work : SessionTask Value

/-- The jobs in the order of their registration. -/
abbrev Registry := List RegisteredJob

namespace RegisteredJob

/-- Does the character end a line? -/
def endsLine (c : Char) : Bool :=
  [0x0A, 0x0B, 0x0C, 0x0D, 0x1C, 0x1D, 0x1E, 0x85, 0x2028, 0x2029].contains c.toNat

/-- The first line of what the job says about itself. -/
def description (j : RegisteredJob) : String :=
  let about := Text.trim (j.about.getD "")
  if about.isEmpty then "Scheduled job: " ++ j.name
  else String.ofList (about.toList.takeWhile fun c => !endsLine c)

end RegisteredJob

namespace Registry

/-- The channels of the standard jobs. -/
def channels : Channels := {}

/-- Shows the items of boards with tests of dates to their automations. -/
def dateCheck : RegisteredJob where
  name := "date_trigger_check"
  about := some "Evaluate date_* automation triggers for all live items."
  work := Session.storing do pure (← Site.within Automations.dailyPass).toValue

/-- Escalates approvals. -/
def escalationCheck : RegisteredJob where
  name := "approval_escalation_check"
  about := some "Escalate approvals pending longer than their level timeout."
  work := Session.storing do pure (← Alerts.sendEscalations channels none).toValue

/-- Reminds of approvals. -/
def reminders : RegisteredJob where
  name := "approval_reminders"
  about := some "Remind approvers about approvals waiting longer than APPROVAL_REMINDER_HOURS."
  work := Session.storing do pure (← Alerts.sendReminders channels .null none).toValue

/-- Alerts about deadlines. -/
def deadlineAlerts : RegisteredJob where
  name := "approval_deadline_alerts"
  about := some "Warn approvers within APPROVAL_DEADLINE_ALERT_HOURS of their level timeout."
  work := Session.storing do pure (← Alerts.sendDeadlineAlerts channels .null none).toValue

/-- The standard jobs. -/
def standard : Registry := [dateCheck, escalationCheck, reminders, deadlineAlerts]

/-- The job of a name. -/
def find? (r : Registry) (name : String) : Option RegisteredJob :=
  List.find? (fun j => j.name == name) r

/-- Registers a job. One of the same name is replaced and keeps its place. -/
def register (r : Registry) (job : RegisteredJob) : Registry :=
  if (find? r job.name).isSome then
    List.map (fun j => if j.name == job.name then job else j) r
  else r ++ [job]

end Registry
end Signoff
