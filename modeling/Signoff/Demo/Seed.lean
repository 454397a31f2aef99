import Signoff.Approval.Decisions
import Signoff.Approval.Overview
import Signoff.Automation.Catalog
import Signoff.Item.Changes
import Signoff.Site.Tables

/-! # The demonstration

A workspace with a board of invoices, a workflow of three levels, two automations and a handful of
invoices. Every step gives lines that say what was made.
-/

namespace Signoff.Demo

/-- What the demonstration does besides. -/
structure Options where
  /-- Removes everything first. -/
  reset : Bool := false
  /-- Requests the approval of the invoices. -/
  request : Bool := false

/-- The names of the options. -/
def Options.names : List String := ["--reset", "--request"]

/-- The option that an argument stands for: its name, or a beginning that no other name has. -/
def Options.named? (argument : String) : Option String :=
  match names.filter fun name => argument.length > 2 && name.startsWith argument with
  | [name] => some name
  | _ => none

/-- The options of a command line, if all of them are known. -/
def Options.ofArguments? : List String → Option Options
  | [] => some {}
  | argument :: rest => do
    let options ← ofArguments? rest
    match ← named? argument with
    | "--reset" => some { options with reset := true }
    | "--request" => some { options with request := true }
    | _ => none

/-- A line about a step that is done. -/
def done (text : String) : String := "  ✓ " ++ text

/-- The members of the workspace with their roles. -/
def members : List (String × String) :=
  [("olivia", "owner"), ("adam", "admin"), ("fiona", "finance"), ("maria", "member"),
    ("bruno", "member"), ("chen", "member")]

/-- The columns of the board with their types. -/
def columns : List (String × String) :=
  [("Amount", "number"), ("Due Date", "date"), ("Owner", "people"), ("Vendor", "text")]

/-- The workflow of the board. -/
def workflow : Workflow where
  name := "Invoice approvals"
  description := "Manager, directors, finance"
  levels := [
    { level := .first, name := "Manager", approvers := ["maria"], timeoutHours := some 48.0,
      escalationUser := some "adam" },
    { level := .second, name := "Directors", approvers := ["bruno", "chen"], isParallel := true,
      requiredApprovals := some 1, isOptional := true },
    { level := .third, name := "Finance", approvers := ["fiona"] }]
  rules := [
    { id := "large-invoice"
      name := "Amount > 10,000 needs directors"
      topic := .amount
      condition := .node (.test .greaterThan) (some "amount") (.int 10000) none
      action := { routing := .requireLevel, level := some .second }
      priority := 100 },
    { id := "petty-cash"
      name := "Amount < 100 is auto-approved"
      topic := .amount
      condition := .node (.test .lessThan) (some "amount") (.int 100) none
      action := { routing := .autoApprove }
      priority := 200 }]

/-- An invoice. -/
structure Invoice where
  name : String
  amount : Int
  /-- In how many days it is due. -/
  dueIn : Int
  owners : List String
  vendor : String

/-- The invoices. -/
def invoices : List Invoice :=
  [⟨"INV-1001 Office chairs", 2400, 10, ["maria"], "Seatco"⟩,
    ⟨"INV-1002 Data center lease", 48000, 3, ["bruno", "chen"], "RackSpace Ltd"⟩,
    ⟨"INV-1003 Coffee beans", 60, 20, ["maria"], "Bean & Co"⟩,
    ⟨"INV-1004 Consulting", 15500, -2, ["chen"], "Northwind"⟩]

/-- Adds rows that are made of texts and their positions. -/
def addRows {α : Type} [Row α] (table : Table α) (make : Int → Int → String × String → α)
    (position : Int) : List (String × String) → Table α
  | [] => table
  | entry :: rest => addRows (table.add fun id => make id position entry) make (position + 1) rest

/-- Makes the workspace, its members and the board. -/
def seedBoard : OfficeTask Board := do
  let o ← get
  let workspace : Workspace := ⟨o.workspaces.nextKey, "Finance Ops", o.clock⟩
  let board : Board := ⟨o.boards.nextKey, workspace.id, "Invoices", o.clock⟩
  set { o with
    workspaces := o.workspaces.add fun _ => workspace
    members := addRows o.members (fun id _ entry => ⟨id, workspace.id, entry.1, entry.2⟩) 0 members
    boards := o.boards.add fun _ => board
    columns := addRows o.columns
      (fun id position entry => ⟨id, board.id, entry.1, entry.2, position⟩) 0 columns }
  pure board

/-- The key of the column of a name. -/
def columnKey (o : Office) (board : Board) (name : String) : Int :=
  (((o.columnsOf board.id).find? fun c => c.name == name).map (·.id)).getD 0

/-- The payload of an automation that tells the people of an item. -/
def automation (board : Board) (name : String) (trigger : Value) (title message : String) : Value :=
  .object [("boardId", .int board.id), ("name", .text name), ("trigger", trigger),
    ("actions", .list [.object [("type", .text "notify_assignees"),
      ("config", .object [("title", .text title), ("message", .text message)])]])]

/-- The payloads of the automations. -/
def automations (o : Office) (board : Board) : List Value :=
  [automation board "Overdue invoices notify owners"
      (.object [("type", .text "field_equals"),
        ("config", .object [("columnId", .text "status"), ("value", .text "Overdue")])])
      "Invoice overdue" "Please follow up",
    automation board "Due within 3 days"
      (.object [("type", .text "date_approaching"),
        ("config", .object [("columnId", .int (columnKey o board "Due Date")),
          ("daysBefore", .int 3)])])
      "Invoice due soon" "Due in 3 days or less"]

/-- Makes an automation. -/
def seedAutomation (payload : Value) : OfficeTask String := do
  let a ← Automations.create payload (some "olivia")
  pure (done ("Automation #" ++ NumberText.intText a.id ++ " '" ++ a.name ++ "'"))

/-- Makes an invoice, and requests its approval if that is wanted. -/
def seedInvoice (board : Board) (options : Options) (invoice : Invoice) : SiteTask String := do
  let o := (← get).office
  let due ← match o.clock.date.addDays? invoice.dueIn with
    | some date => pure date
    | none => throw (.outOfRange "date value out of range")
  let cell (name : String) (v : Value) : Value × Value := (.int (columnKey o board name), v)
  let item ← Site.within (ItemChange.create .automations (.int board.id) (some "maria")
    (.text invoice.name) (.text "Submitted")
    [cell "Amount" (.int invoice.amount), cell "Due Date" (.text due.iso),
      cell "Owner" (.ofTexts invoice.owners), cell "Vendor" (.text invoice.vendor)])
  let line := done ("Item #" ++ NumberText.intText item.id ++ " " ++ invoice.name)
  if options.request then
    let created ← Approvals.request {} item.id (some "maria")
    let overview ← Approvals.overview item.id none
    pure (line ++ " (" ++ overview.progress.word ++ ", " ++ NumberText.natText created.length
      ++ " row(s))")
  else pure line

/-- Makes the demonstration, and gives a line for each step. -/
def seed (options : Options) : SiteTask (List String) := do
  if options.reset then Site.clear
  let board ← Site.within seedBoard
  discard (Site.saveWorkflow board workflow.toValue (some "olivia"))
  let automationLines ← (automations (← get).office board).mapM fun payload =>
    Site.within (seedAutomation payload)
  let itemLines ← invoices.mapM (seedInvoice board options)
  pure ((if options.reset then [done "Tables recreated"] else [])
    ++ [done ("Board #" ++ NumberText.intText board.id ++ " 'Invoices' in workspace 'Finance Ops'"),
      done "Workflow 'Invoice approvals'"]
    ++ automationLines ++ itemLines)

end Signoff.Demo
