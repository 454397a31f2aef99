import Signoff.Site.Basic

/-! # Tables of the site

Every table by name: its rows as objects, a label for each row, and how many rows there are.
-/

namespace Signoff

/-- The first characters of a name. -/
def shortName (name : String) : String := String.ofList (name.toList.take 40)

/-- A label: what a row is, and what it is called. -/
def rowLabel (kind : String) (id : Int) (name : String) : String :=
  "<" ++ kind ++ " " ++ NumberText.intText id ++ ": " ++ name ++ ">"

/-- A label for an automation. -/
def Automation.label (a : Automation) : Result String := do
  pure (rowLabel "Automation" a.id (a.name ++ " [" ++ (← a.triggerType).display ++ "]"))

/-- A label for a run of an automation. -/
def ExecutionLog.label (l : ExecutionLog) : String :=
  rowLabel "AutomationExecutionLog" l.id
    ("automation=" ++ NumberText.intText l.automationId ++ " [" ++ l.status ++ "]")

/-- A label for an approval. -/
def Approval.label (a : Approval) : String :=
  rowLabel "Approval" a.id
    ("item=" ++ NumberText.intText a.itemId ++ " " ++ a.level ++ " [" ++ a.status.word ++ "]")

/-- A label for a cell. -/
def Cell.label (c : Cell) : String :=
  "<Cell item=" ++ NumberText.intText c.itemId ++ " column=" ++ NumberText.intText c.columnId ++ ">"

/-- A label for a membership. -/
def Member.label (m : Member) : String :=
  "<WorkspaceMember " ++ m.user ++ "@" ++ NumberText.intText m.workspaceId ++ " [" ++ m.role ++ "]>"

/-- A label for a stored workflow. -/
def StoredWorkflow.label (w : StoredWorkflow) : String :=
  "<ApprovalWorkflow board=" ++ NumberText.intText w.boardId ++ ": " ++ w.name ++ ">"

/-- A label for a job. -/
def Job.label (j : Job) : String := "<ScheduledJob " ++ j.name ++ " [" ++ j.state ++ "]>"

namespace Site

/-- The rows of a table as objects. -/
def rowsOfTable (site : Site) (table : String) : List Value :=
  let o := site.office
  match table with
  | "workspaces" => o.workspaces.rows.map Workspace.toValue
  | "members" => o.members.rows.map Member.toValue
  | "boards" => o.boards.rows.map o.boardValue
  | "columns" => o.columns.rows.map Column.toValue
  | "items" => o.items.rows.map o.itemValue
  | "cells" => o.cells.rows.map Cell.toValue
  | "approvals" => site.approvals.rows.map Approval.toValue
  | "workflows" => o.workflows.rows.map StoredWorkflow.toValue
  | "automations" => o.automations.rows.map Automation.toValue
  | "logs" => o.logs.rows.map ExecutionLog.toValue
  | "notifications" => o.notifications.rows.map Notification.toValue
  | "jobs" => o.jobs.rows.map Job.toValue
  | _ => []

/-- The labels of the rows of a table. -/
def labelsOfTable (site : Site) (table : String) : Result (List String) :=
  let o := site.office
  match table with
  | "workspaces" => .ok (o.workspaces.rows.map fun w => rowLabel "Workspace" w.id w.name)
  | "members" => .ok (o.members.rows.map Member.label)
  | "boards" => .ok (o.boards.rows.map fun b => rowLabel "Board" b.id b.name)
  | "columns" =>
    .ok (o.columns.rows.map fun c => rowLabel "BoardColumn" c.id (c.name ++ " (" ++ c.type ++ ")"))
  | "items" => .ok (o.items.rows.map fun i => rowLabel "Item" i.id (shortName i.name))
  | "cells" => .ok (o.cells.rows.map Cell.label)
  | "approvals" => .ok (site.approvals.rows.map Approval.label)
  | "workflows" => .ok (o.workflows.rows.map StoredWorkflow.label)
  | "automations" => o.automations.rows.mapM Automation.label
  | "logs" => .ok (o.logs.rows.map ExecutionLog.label)
  | "notifications" =>
    .ok (o.notifications.rows.map fun n => rowLabel "Notification" n.id (shortName n.title))
  | "jobs" => .ok (o.jobs.rows.map Job.label)
  | _ => .ok []

/-- How many rows each table has, under the names by which the tables are kept. -/
def counts (site : Site) : List (String × Nat) :=
  let o := site.office
  [("workspaces", o.workspaces.rows.length), ("workspace_members", o.members.rows.length),
    ("boards", o.boards.rows.length), ("board_columns", o.columns.rows.length),
    ("items", o.items.rows.length), ("cells", o.cells.rows.length),
    ("approval_workflows", o.workflows.rows.length), ("approvals", site.approvals.rows.length),
    ("automations", o.automations.rows.length),
    ("automation_execution_logs", o.logs.rows.length),
    ("notifications", o.notifications.rows.length), ("scheduled_jobs", o.jobs.rows.length)]

/-- A line with a name, filled up with dots, and a count. -/
def countLine (name : String) (count : Nat) : String :=
  "    " ++ name ++ String.ofList (List.replicate (30 - name.length) '.') ++ " "
    ++ NumberText.natText count

/-- A line for every table, and one for all of them. -/
def countLines (site : Site) : List String :=
  (site.counts.map fun (name, count) => countLine name count)
    ++ [countLine "TOTAL" ((site.counts.map (·.2)).foldl (· + ·) 0)]

/-- Removes the rows of all tables. -/
def clear : SiteTask Unit := modify fun site =>
  { site with
    approvals := {}
    office := { site.office with
      workspaces := {}, members := {}, boards := {}, columns := {}, items := {}, cells := {},
      workflows := {}, automations := {}, logs := {}, notifications := {}, jobs := {} } }

end Site
end Signoff
