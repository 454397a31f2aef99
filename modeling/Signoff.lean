import Signoff.Access.Basic
import Signoff.Approval.Alerts
import Signoff.Approval.Basic
import Signoff.Approval.Channels
import Signoff.Approval.Decisions
import Signoff.Approval.Feedback
import Signoff.Approval.Flow
import Signoff.Approval.Messages
import Signoff.Approval.Overview
import Signoff.Automation.Action
import Signoff.Automation.Basic
import Signoff.Automation.Catalog
import Signoff.Automation.Conditions
import Signoff.Automation.Config
import Signoff.Automation.Engine
import Signoff.Automation.Execution
import Signoff.Automation.Schema
import Signoff.Board.Basic
import Signoff.Calendar.Date
import Signoff.Calendar.Duration
import Signoff.Calendar.Iso
import Signoff.Calendar.Moment
import Signoff.Condition.Basic
import Signoff.Condition.Form
import Signoff.Condition.Written
import Signoff.Demo.Seed
import Signoff.Digest.Sha256
import Signoff.Event
import Signoff.Fault
import Signoff.Formula.Expr
import Signoff.Formula.Grammar
import Signoff.Formula.Lexer
import Signoff.Formula.Template
import Signoff.Item.Basic
import Signoff.Item.Changes
import Signoff.Job.Basic
import Signoff.Job.Registry
import Signoff.Job.Scheduler
import Signoff.Job.Session
import Signoff.Json.Reader
import Signoff.Json.Writer
import Signoff.Logging.Record
import Signoff.Logging.Setup
import Signoff.Main
import Signoff.Notification.Basic
import Signoff.Number.Binary
import Signoff.Number.Read
import Signoff.Number.Shortest
import Signoff.Number.Text
import Signoff.Office.Basic
import Signoff.Office.Items
import Signoff.Office.Listener
import Signoff.Office.Notices
import Signoff.Proofs.Access.Entitled
import Signoff.Proofs.Access.Listed
import Signoff.Proofs.Access.Outsider
import Signoff.Proofs.Access.Respecting
import Signoff.Proofs.Approval.Alarms
import Signoff.Proofs.Approval.Atomic
import Signoff.Proofs.Approval.Authentic
import Signoff.Proofs.Approval.Clearing
import Signoff.Proofs.Approval.Completion
import Signoff.Proofs.Approval.Course
import Signoff.Proofs.Approval.Deadlines
import Signoff.Proofs.Approval.Emitting
import Signoff.Proofs.Approval.Escalations
import Signoff.Proofs.Approval.Faults
import Signoff.Proofs.Approval.Finality
import Signoff.Proofs.Approval.Messages
import Signoff.Proofs.Approval.Onward
import Signoff.Proofs.Approval.Opening
import Signoff.Proofs.Approval.Order
import Signoff.Proofs.Approval.Overviews
import Signoff.Proofs.Approval.Pauses
import Signoff.Proofs.Approval.Reach
import Signoff.Proofs.Approval.Refused
import Signoff.Proofs.Approval.Reminders
import Signoff.Proofs.Approval.Repeat
import Signoff.Proofs.Approval.Report
import Signoff.Proofs.Approval.Requests
import Signoff.Proofs.Approval.Satisfied
import Signoff.Proofs.Approval.Standing
import Signoff.Proofs.Approval.Steady
import Signoff.Proofs.Approval.Stream
import Signoff.Proofs.Approval.Telling
import Signoff.Proofs.Approval.Tidy
import Signoff.Proofs.Approval.Transitions
import Signoff.Proofs.Approval.Turns
import Signoff.Proofs.Approval.Unheard
import Signoff.Proofs.Approval.Wording
import Signoff.Proofs.Approval.Writes
import Signoff.Proofs.Automation.Aiming
import Signoff.Proofs.Automation.Assignees
import Signoff.Proofs.Automation.Catalog
import Signoff.Proofs.Automation.Covered
import Signoff.Proofs.Automation.Daily
import Signoff.Proofs.Automation.Effects
import Signoff.Proofs.Automation.Gating
import Signoff.Proofs.Automation.Isolation
import Signoff.Proofs.Automation.Normalized
import Signoff.Proofs.Automation.Resaved
import Signoff.Proofs.Automation.Saved
import Signoff.Proofs.Automation.Tree
import Signoff.Proofs.Automation.Written
import Signoff.Proofs.Calendar.Civil
import Signoff.Proofs.Calendar.Cut
import Signoff.Proofs.Calendar.Instant
import Signoff.Proofs.Calendar.Spelling
import Signoff.Proofs.Condition.Outcome
import Signoff.Proofs.Durable
import Signoff.Proofs.Formula.Arithmetic
import Signoff.Proofs.Formula.Evaluation
import Signoff.Proofs.Formula.Lexing
import Signoff.Proofs.Formula.Literal
import Signoff.Proofs.Formula.Outcome
import Signoff.Proofs.Formula.Plain
import Signoff.Proofs.Formula.Printed
import Signoff.Proofs.Formula.Writing
import Signoff.Proofs.Frames
import Signoff.Proofs.Item.Cells
import Signoff.Proofs.Item.Refused
import Signoff.Proofs.Item.Shown
import Signoff.Proofs.Item.Snapshot
import Signoff.Proofs.Item.Told
import Signoff.Proofs.Job.Books
import Signoff.Proofs.Job.Executions
import Signoff.Proofs.Job.Session
import Signoff.Proofs.Json.Canonical
import Signoff.Proofs.Json.Strings
import Signoff.Proofs.Keyed
import Signoff.Proofs.Level
import Signoff.Proofs.Number.Shortest
import Signoff.Proofs.Number.Sign
import Signoff.Proofs.Number.Written
import Signoff.Proofs.Office.Fixtures
import Signoff.Proofs.Office.Heard
import Signoff.Proofs.Office.Items
import Signoff.Proofs.Office.Notices
import Signoff.Proofs.Office.Reach
import Signoff.Proofs.Office.Tables
import Signoff.Proofs.Pages
import Signoff.Proofs.Routing
import Signoff.Proofs.Run
import Signoff.Proofs.Schema.Written
import Signoff.Proofs.Table
import Signoff.Proofs.Task
import Signoff.Proofs.Task.Commuting
import Signoff.Proofs.Task.Faults
import Signoff.Proofs.Task.Refusals
import Signoff.Proofs.Task.Twins
import Signoff.Proofs.Trigger.Sameness
import Signoff.Proofs.Value
import Signoff.Proofs.Web.Enacting
import Signoff.Proofs.Web.Errand
import Signoff.Proofs.Web.Refused
import Signoff.Proofs.Workflow.Faults
import Signoff.Proofs.Workflow.Meaning
import Signoff.Proofs.Workflow.Remembered
import Signoff.Proofs.Workflow.Reread
import Signoff.Proofs.Workflow.Sound
import Signoff.Proofs.Workflow.Written
import Signoff.RateLimit.Basic
import Signoff.Schema.Check
import Signoff.Schema.Scalar
import Signoff.Settings.Basic
import Signoff.Site.Approvals
import Signoff.Site.Basic
import Signoff.Site.Tables
import Signoff.Store.Column
import Signoff.Store.Json
import Signoff.Store.Query
import Signoff.Store.Table
import Signoff.Text.Case
import Signoff.Text.Case.Table
import Signoff.Text.Identifier
import Signoff.Text.Kinds
import Signoff.Text.Printable
import Signoff.Text.Quoted
import Signoff.Trigger.Basic
import Signoff.Trigger.Comparison
import Signoff.Trigger.DateTest
import Signoff.Trigger.Schema
import Signoff.Value.Basic
import Signoff.Value.Coerce
import Signoff.Value.Display
import Signoff.Web.Endpoint.Approvals
import Signoff.Web.Endpoint.Automations
import Signoff.Web.Endpoint.Items
import Signoff.Web.Endpoint.Notifications
import Signoff.Web.Envelope
import Signoff.Web.Handler
import Signoff.Web.Percent
import Signoff.Web.Request
import Signoff.Web.Serve
import Signoff.Webhook.Basic
import Signoff.Workflow.Basic
import Signoff.Workflow.Evaluation
import Signoff.Workflow.Level
import Signoff.Workflow.Schema
