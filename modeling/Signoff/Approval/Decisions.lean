import Signoff.Approval.Channels
import Signoff.Approval.Feedback

/-! # Decisions

How the approvals of an item come about and how they are decided.

* `Approvals.request` opens the flow of an item, or goes on with it.
* `Approvals.transition` decides an approval, and opens the next level when this one is satisfied for
  the first time.

A level is opened once, when every required level in front of it is satisfied. An approval on a level
with a level in front needs an approval there. Approved is final. The channels are told at the end,
when everything is written.
-/

namespace Signoff.Approvals

/-! ## Opening levels -/

/-- Opens a level: first the levels that are passed over, then one approval for each approver. Gives
back the latter. -/
def openLevel (item : Item) (o : Opening) : SiteTask (List Approval) := do
  o.passedOver.forM fun l =>
    discard (Site.addApproval item.id l.name none .approved (some skippedComment))
  let rows ← o.approvers.mapM fun approver => Site.addApproval item.id o.level.name approver
  pure (rows.filterMap id)

/-- Opens the next level of an item, if it is time to open one. -/
def openNext (item : Item) (w : Workflow) (e : Evaluation) : SiteTask (List Approval) := do
  if e.required.isEmpty then pure []
  else
    match w.opening e (← Site.rowsOf item.id) with
    | some o => openLevel item o
    | none => pure []

/-- Approves every level of an item that has no approvals. -/
def approveAll (item : Item) (actor : Option String) : SiteTask (List Approval) := do
  let rows ← Site.rowsOf item.id
  let missing := Level.all.filter fun l => (Approval.on rows l).isEmpty
  let added ← missing.mapM fun l =>
    Site.addApproval item.id l.name actor .approved (some autoApprovedComment)
  pure (added.filterMap id)

/-- Requests the approval of an item. Gives back the approvals that were created for it, apart from
those on levels that are passed over. -/
def request (c : Channels) (itemId : Int) (actor : Option String) : SiteTask (List Approval) := do
  let item ← Site.within (Office.requireItem itemId)
  Site.within (Office.demand actor (.item item) .readItems)
  let (w, e) ← Site.evaluateItem item
  if e.autoApproved then
    let created ← approveAll item actor
    if !created.isEmpty then c.send item Subject.allComplete
    pure created
  else
    let created ← openNext item w e
    c.announce item (created.filter fun a => a.status == .pending) actor
    pure created

/-! ## Deciding -/

/-- Where an item stands after a level was satisfied. -/
structure Aftermath where
  /-- The approvals that were opened. -/
  opened : List Approval := []
  /-- Is the whole item approved? -/
  finished : Bool := false

/-- Goes on behind a level that was satisfied: opens the next level, or else finds out whether the item
is approved. -/
def goOn (item : Item) : SiteTask Aftermath := do
  let (w, e) ← Site.evaluateItem item
  let opened ← openNext item w e
  if opened.isEmpty then
    let progress ← Site.progressOf item
    pure { finished := progress == .approved }
  else pure { opened }

/-- The status that a request names, which the present one has to allow. -/
def allowedStatus (approval : Approval) (requested : Value) : Result Status := do
  if !requested.isHashable then throw (Fault.unhashable requested)
  let named := match requested with
    | .text word => Status.ofWord? word
    | _ => none
  match named with
  | none => throw (.badTransition approval.status.word requested)
  | some next =>
    if approval.status == .approved && next != .approved then
      throw (.badTransition approval.status.word requested)
    else pure next

/-- Fails unless the level in front of the approval has an approved row. -/
def checkSequence (site : Site) (approval : Approval) : Result Unit := do
  let level ← Level.ofName approval.level
  match level.previous? with
  | none => pure ()
  | some previous =>
    if (site.rowsNamed approval.itemId previous.name).any fun a => a.status == .approved then pure ()
    else throw (.outOfSequence approval.level previous.name)

/-- Is the level of an approval satisfied? -/
def isSatisfied (w : Workflow) (site : Site) (approval : Approval) : Bool :=
  w.satisfied approval.level (site.rowsNamed approval.itemId approval.level)

/-- Tells about an approval. -/
def tellApproved (c : Channels) (item : Item) (approval : Approval) (actor comments : Option String)
    (completed : Bool) (aftermath : Aftermath) : SiteTask Unit := do
  c.tell item .approvalApproved actor (Channels.noteOf approval)
  c.send item fun s => s.approved approval.level approval.approver comments
  if completed then
    c.tell item .levelCompleted actor
      { approvalId := none, level := approval.level, comments := comments }
  c.announce item (aftermath.opened.filter fun a => a.status == .pending) actor
  if aftermath.finished then c.send item Subject.allComplete

/-- Tells about a rejection. -/
def tellRejected (c : Channels) (item : Item) (approval : Approval)
    (actor comments : Option String) : SiteTask Unit := do
  c.tell item .approvalRejected actor (Channels.noteOf approval)
  c.send item fun s =>
    if Feedback.isAskedFor comments then
      s.changesRequested approval.level approval.approver (Feedback.of (comments.getD ""))
    else s.rejected approval.level approval.approver comments

/-- The approval of a key and the status that is requested for it, if the actor may decide it and the
approval allows this status now. -/
def examine (key : Int) (requested : Value) (actor : Option String) :
    SiteTask (Approval × Status) := do
  let approval ← Site.requireApproval key
  Site.within (Office.demand actor (.approval approval) .decideApproval)
  let next ← Task.ofResult (allowedStatus approval requested)
  if next == .approved then Task.ofResult (checkSequence (← get) approval)
  pure (approval, next)

/-- What follows a decision: the next level is opened when this one was satisfied by it, and the
channels are told. -/
def follow (c : Channels) (item : Item) (w : Workflow) (wasSatisfied : Bool) (decided : Approval)
    (actor comments : Option String) : SiteTask Unit := do
  match decided.status with
  | .approved =>
    let completed := !wasSatisfied && isSatisfied w (← get) decided
    let aftermath ← if completed then goOn item else pure {}
    tellApproved c item decided actor comments completed aftermath
  | .rejected => tellRejected c item decided actor comments
  | _ => pure ()

/-- Decides an approval. -/
def transition (c : Channels) (key : Int) (requested : Value) (actor comments : Option String) :
    SiteTask Approval := do
  let (approval, next) ← examine key requested actor
  let item ← Site.within (Office.requireItem approval.itemId true)
  let w ← Site.workflowOf item.boardId
  let wasSatisfied := isSatisfied w (← get) approval
  let decided ← Site.recordDecision approval next comments actor
  follow c item w wasSatisfied decided actor comments
  pure decided

/-- Removes an approval. -/
def delete (key : Int) (actor : Option String) : SiteTask Unit := do
  let approval ← Site.requireApproval key
  Site.within (Office.demand actor (.approval approval) .deleteApproval)
  Site.removeApproval approval

end Signoff.Approvals
