import Signoff.Approval.Basic
import Signoff.Calendar.Duration
import Signoff.Office.Notices

/-! # Messages about approvals

What approvers, creators and escalation users are told. A message is a notice with the user that it
goes to; where there is no such user, there is no message.
-/

namespace Signoff

/-- A notice and the user that it goes to. -/
structure Message where
  user : String
  notice : Notice

/-- What messages tell about an item. -/
structure Subject where
  id : Int
  name : String
  boardId : Int
  workspaceId : Option Int
  createdBy : Option String

/-- What messages tell about an approval. -/
structure Pending where
  id : Int
  level : String
  approver : Option String

/-- What messages tell about an item of the office. -/
def Office.subjectOf (o : Office) (item : Item) : Subject :=
  { id := item.id
    name := item.name
    boardId := item.boardId
    workspaceId := o.workspaceOf? item.boardId
    createdBy := some item.createdBy }

/-- What messages tell about an approval. -/
def Approval.pending (a : Approval) : Pending := ⟨a.id, a.level, a.approver⟩

namespace Message

/-- Where approvers find what waits for them. -/
def queueLink : String := "/approvals/queue"

/-- The message to a user, if there is one. -/
def toUser (user : Option String) (notice : Notice) : List Message :=
  match user with
  | some u => if u.isEmpty then [] else [⟨u, notice⟩]
  | none => []

end Message

namespace Subject

/-- Where the item is found. -/
def link (s : Subject) : String :=
  "/workspaces/" ++ (Value.ofInt? s.workspaceId).display ++ "/boards/"
    ++ NumberText.intText s.boardId ++ "/items/" ++ NumberText.intText s.id

/-- The name of the item in double quotes. -/
def title (s : Subject) : String := "\"" ++ s.name ++ "\""

/-- A message to the creator of the item. -/
def toCreator (s : Subject) (type title message : String) (metadata : Fields) : List Message :=
  Message.toUser s.createdBy ⟨type, .text title, .text message, .text s.link, metadata⟩

/-- The item and a level as metadata. -/
def levelData (s : Subject) (level : String) : Fields :=
  [("itemId", .int s.id), ("approvalLevel", .text level)]

/-- The approvers of a level that was opened are asked, each once. -/
def approvalRequested (s : Subject) (level : String) (approvers : List (Option String)) :
    List Message :=
  let label := levelLabel level
  (approvers.filter fun a => a.any (!·.isEmpty)).eraseDups.flatMap fun approver =>
    Message.toUser approver
      { type := "approval_requested"
        title := .text ("Approval Required - " ++ label)
        message := .text (s.title ++ " requires your " ++ label
          ++ " approval. Please review and take action.")
        link := .text Message.queueLink
        metadata := s.levelData level }

/-- An approver in a message. -/
def nameOf (approver : Option String) : String := (Value.ofText? approver).display

/-- A text that is there and not empty. -/
def filled? (text : Option String) : Option String := text.filter (!·.isEmpty)

/-- The creator is told about an approval. -/
def approved (s : Subject) (level : String) (approver comments : Option String) : List Message :=
  let label := levelLabel level
  s.toCreator "approval_approved" ("Approval " ++ label ++ " Approved")
    (s.title ++ " has been approved at " ++ label ++ " by " ++ nameOf approver
      ++ (match filled? comments with | some c => ". Comments: " ++ c | none => ""))
    (s.levelData level)

/-- The creator is told about a rejection. -/
def rejected (s : Subject) (level : String) (approver reason : Option String) : List Message :=
  let label := levelLabel level
  s.toCreator "approval_rejected" ("Approval " ++ label ++ " Rejected")
    (s.title ++ " has been rejected at " ++ label ++ " by " ++ nameOf approver
      ++ ". Reason: " ++ (filled? reason).getD "No reason provided")
    (s.levelData level)

/-- The creator is told about requested changes. -/
def changesRequested (s : Subject) (level : String) (approver : Option String)
    (feedback : String) : List Message :=
  let label := levelLabel level
  s.toCreator "approval_changes_requested" ("Changes Requested - " ++ label)
    (s.title ++ " requires changes at " ++ label ++ ". " ++ nameOf approver
      ++ " has provided feedback: " ++ feedback)
    (s.levelData level)

/-- The creator is told that everything is approved. -/
def allComplete (s : Subject) : List Message :=
  s.toCreator "approval_complete" "All Approvals Complete"
    (s.title ++ " has been fully approved and is ready for processing.")
    [("itemId", .int s.id)]

/-! ## Alerts -/

/-- An approval and its item as metadata. -/
def pendingData (s : Subject) (p : Pending) : Fields :=
  [("approvalId", .int p.id), ("approvalLevel", .text p.level), ("itemId", .int s.id)]

/-- An alert about an approval. -/
def alert (s : Subject) (p : Pending) (user : Option String) (type title message : String)
    (more : Fields) : List Message :=
  Message.toUser user
    ⟨type, .text title, .text message, .text Message.queueLink, s.pendingData p ++ more⟩

/-- The approver is reminded of an approval. -/
def reminder (s : Subject) (p : Pending) (hours : Value) : List Message :=
  let label := levelLabel p.level
  s.alert p p.approver "approval_reminder" ("Reminder: Approval Required - " ++ label)
    (s.title ++ " has been pending your " ++ label ++ " approval for " ++ hours.display
      ++ " hour(s). Please review and take action.")
    [("hoursPending", hours)]

/-- The escalation user is told about an overdue approval. -/
def escalation (s : Subject) (p : Pending) (user : Option String) (hours : Value) : List Message :=
  let label := levelLabel p.level
  s.alert p user "approval_escalation" ("Escalation: " ++ label ++ " Approval Overdue")
    (s.title ++ " has been waiting on " ++ label ++ " approval for " ++ hours.display
      ++ " hour(s) and was escalated to you.")
    [("hoursPending", hours)]

/-- Hours as a double. -/
def asFloat : Value → Float
  | .float x => x
  | v => (v.asInt?.bind Binary.ofInt?).getD 0.0

/-- Hours with one decimal; whole ones stay as they are. -/
def shortHours : Value → Value
  | .float x => .float (NumberText.roundPlaces 1 x)
  | v => v

/-- The approver is warned of a deadline. -/
def deadlineApproaching (s : Subject) (p : Pending) (deadline : Moment) (hoursLeft : Value) :
    List Message :=
  let label := levelLabel p.level
  s.alert p p.approver "approval_deadline_approaching"
    ("Urgent: Approval Deadline Approaching - " ++ label)
    (s.title ++ " has a deadline approaching in "
      ++ NumberText.intText ((Binary.roundInt? (asFloat hoursLeft)).getD 0)
      ++ " hour(s). Please review and take action soon.")
    [("deadline", .text deadline.isoUtc)]

/-- The approver is told of a deadline that has passed. -/
def deadlinePassed (s : Subject) (p : Pending) (deadline : Moment) (hoursOverdue : Value) :
    List Message :=
  let label := levelLabel p.level
  s.alert p p.approver "approval_deadline_passed" ("Overdue: Approval Deadline Passed - " ++ label)
    (s.title ++ " approval deadline passed " ++ NumberText.fixedText 1 (asFloat hoursOverdue)
      ++ " hour(s) ago. Please review and take action immediately.")
    [("deadline", .text deadline.isoUtc),
      ("hoursOverdue", shortHours hoursOverdue)]

end Subject
end Signoff
