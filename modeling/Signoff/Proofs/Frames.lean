import Signoff.Approval.Decisions
import Signoff.Approval.Overview
import Signoff.Job.Scheduler
import Signoff.Proofs.Approval.Messages
import Signoff.Proofs.Job.Session
import Signoff.Proofs.Routing
import Signoff.Proofs.Table

/-! # What leaves the approvals alone

    Only requests, decisions and deletions write approvals, and only decisions
    tell that an approval was given. Everything else that is done on the site
    writes to the office, or remembers and forgets workflows:

    * `Site.Lenient`: relations between states that allow just this.
    * `Site.Curious`, `Site.Scheduled`, `Site.Noticing`, `Site.Routine`: relations that
      allow less of it, workflows to be remembered only, or jobs to be written as well,
      or notifications, or both.
    * `Site.keeps_*`: an operation that does no more keeps every such relation.
    * `Site.Growing`, `Site.Revising`: relations that allow approvals to be added, or
      to be replaced and removed.
    * `Site.Tolerant`: relations that allow all of this, as requests, decisions
      and deletions do it.
    * `Site.Indifferent`: relations that allow everything in the office.
-/

open Signoff.Task (Keeps Reads Same Stable)
open Signoff.Session (Settles)

namespace Signoff

namespace Approvals

/-- Tells about an approval, but not yet that the whole item is approved. -/
def tellDecided (c : Channels) (item : Item) (approval : Approval) (actor comments : Option String)
    (completed : Bool) (opened : List Approval) : SiteTask Unit := do
  c.tell item .approvalApproved actor (Channels.noteOf approval)
  c.send item fun s => s.approved approval.level approval.approver comments
  if completed then
    c.tell item .levelCompleted actor
      { approvalId := none, level := approval.level, comments := comments }
  c.announce item (opened.filter fun a => a.status == .pending) actor

/-- That the whole item is approved is told last. -/
theorem tellApproved_eq (c : Channels) (item : Item) (approval : Approval)
    (actor comments : Option String) (completed : Bool) (aftermath : Aftermath) :
    tellApproved c item approval actor comments completed aftermath = (do
      tellDecided c item approval actor comments completed aftermath.opened
      if aftermath.finished then c.send item Subject.allComplete) := by
  unfold tellApproved tellDecided
  cases completed with
  | true => simp only [bind_assoc, ↓reduceIte]
  | false => simp only [bind_assoc, Bool.false_eq_true, ↓reduceIte]

end Approvals

namespace Site

/-- A relation that allows workflows to be remembered. -/
class Curious (R : Site → Site → Prop) : Prop extends Std.Refl R, IsTrans Site R where
  lookedUp (s : Site) (boardId : Int) : R s (s.lookedUp boardId)

/-- Everything that is stored: the office and the approvals, but no remembered workflows. -/
def stored (s : Site) : Office × Table Approval := (s.office, s.approvals)

instance : Curious (Same stored) where
  lookedUp s boardId := by
    obtain ⟨known, hknown⟩ := s.exists_lookedUp boardId
    rw [hknown]
    rfl

/-- A relation that also allows notifications to be written, as alerts do. -/
class Noticing (R : Site → Site → Prop) : Prop extends Curious R where
  noticed (s : Site) (notifications : Table Notification) :
    R s { s with office.notifications := notifications }

/-- A relation that also allows notifications and jobs to be written, as alerts and jobs do. -/
class Routine (R : Site → Site → Prop) : Prop extends Noticing R where
  scheduled (s : Site) (jobs : Table Job) : R s { s with office.jobs := jobs }

/-- A relation that allows jobs to be written, beside workflows to be remembered. -/
class Scheduled (R : Site → Site → Prop) : Prop extends Curious R where
  planned (s : Site) (jobs : Table Job) : R s { s with office.jobs := jobs }

instance {R : Site → Site → Prop} [Routine R] : Scheduled R where
  planned := Routine.scheduled

/-- A relation that also allows writes to the office that tell no approval, and workflows to be
    forgotten. -/
class Lenient (R : Site → Site → Prop) : Prop extends Curious R where
  office (s : Site) (o : Office) (h : Office.Hushed s.office o) : R s { s with office := o }
  forgetful (s : Site) (boardId : Option Int) : R s ((forget boardId).after s)

instance {R : Site → Site → Prop} [Lenient R] : Routine R where
  noticed s _ := Lenient.office s _ (Office.hears_of_heard_eq rfl)
  scheduled s _ := Lenient.office s _ (Office.hears_of_heard_eq rfl)

/-- A relation that allows every write to the office. -/
class Indifferent (R : Site → Site → Prop) : Prop extends Lenient R where
  anyOffice (s : Site) (o : Office) : R s { s with office := o }

instance : Lenient (Same Site.approvals) where
  office _ _ _ := rfl
  lookedUp s boardId := lookedUp_approvals s boardId
  forgetful _ _ := rfl

instance : Indifferent (Same Site.approvals) where
  anyOffice _ _ := rfl

instance (P : Table Approval → Prop) : Lenient (Stable fun s => P s.approvals) where
  office _ _ _ := id
  lookedUp s boardId h := by
    show P (s.lookedUp boardId).approvals
    rw [lookedUp_approvals]
    exact h
  forgetful _ _ := id

instance (P : Table Approval → Prop) : Indifferent (Stable fun s => P s.approvals) where
  anyOffice _ _ := id

instance : Lenient (Stable Informed) where
  office _ _ _ := id
  lookedUp _ boardId h := h.lookedUp boardId
  forgetful s boardId h := by
    cases boardId with
    | some b => exact fun entry hentry => h entry (List.mem_filter.mp hentry).1
    | none => exact fun entry hentry => absurd hentry List.not_mem_nil

instance : Indifferent (Stable Informed) where
  anyOffice _ _ := id

/-! ## Looking up -/

section Reading

variable {R : Site → Site → Prop} [Std.Refl R] [IsTrans Site R]

omit [IsTrans Site R] in
theorem keeps_lookup {α : Type} {task : OfficeTask α} (h : Reads task) : Keeps R (within task) :=
  h.within.keeps

theorem keeps_now : Keeps R now := Keeps.get.bind fun _ => .pure _

theorem keeps_current (item : Item) : Keeps R (current item) := Keeps.get.bind fun _ => .pure _

theorem keeps_rowsOf (itemId : Int) : Keeps R (rowsOf itemId) := by
  refine Keeps.get.bind fun s => ?_
  refine (Keeps.forM _ fun a _ => ?_).bind fun _ => .pure _
  exact (Keeps.ofResult _).discard

theorem keeps_requireApproval (key : Int) : Keeps R (requireApproval key) := by
  refine (Keeps.ofResult _).bind fun _ => Keeps.get.bind fun s => ?_
  cases s.approvals.get? key with
  | some a => exact .pure a
  | none => exact .throw _

theorem reads_examine (key : Int) (requested : Value) (actor : Option String) :
    Reads (Approvals.examine key requested actor) := by
  refine (keeps_requireApproval key).bind fun a => ?_
  refine (Office.reads_demand actor _ _).within.bind fun _ => (Keeps.ofResult _).bind fun next => ?_
  exact .ite (Keeps.get.bind fun s => (Keeps.ofResult _).bind fun _ => .pure _) (.pure _)

theorem keeps_sentWithin (user : String) (types : List String) (hours approvalId : Int) :
    Keeps R (Alerts.sentWithin user types hours approvalId) :=
  Keeps.get.bind fun _ => .ofResult _

theorem keeps_valueOrSetting (v : Value) (name : String) (default : Int) :
    Keeps R (Alerts.valueOrSetting v name default) :=
  .ite (Keeps.get.bind fun _ => .pure _) (.pure _)

end Reading

section Remembering

variable {R : Site → Site → Prop} [Curious R]

theorem keeps_workflowOf (boardId : Int) : Keeps R (workflowOf boardId) := by
  intro s
  rw [Task.after, exec_workflowOf]
  exact Curious.lookedUp s boardId

theorem keeps_evaluateItem (item : Item) : Keeps R (evaluateItem item) := by
  intro s
  rw [Task.after, exec_evaluateItem]
  exact Curious.lookedUp s item.boardId

theorem keeps_progressOf (item : Item) : Keeps R (progressOf item) := by
  refine (keeps_rowsOf item.id).bind fun rows => (keeps_workflowOf item.boardId).bind fun w => ?_
  exact Keeps.get.bind fun s => .ofResult _

theorem keeps_overviewOf (item : Item) : Keeps R (Approvals.overviewOf item) := by
  refine (keeps_rowsOf item.id).bind fun rows => (keeps_workflowOf item.boardId).bind fun w => ?_
  exact (keeps_progressOf item).bind fun progress => .pure _

theorem reads_demandIf (actor : Option String) (item : Item) (permission : Permission) :
    Reads (Approvals.demandIf actor item permission) :=
  .ite (Office.reads_demand actor _ permission).within (.pure _)

theorem keeps_overview (itemId : Int) (actor : Option String) :
    Keeps R (Approvals.overview itemId actor) := by
  refine (keeps_lookup (Office.reads_requireItem itemId _)).bind fun item => ?_
  refine (reads_demandIf actor item _).keeps.bind fun _ => ?_
  exact keeps_overviewOf item

theorem keeps_history (itemId : Int) (actor : Option String) (now : Option Moment) :
    Keeps R (Approvals.history itemId actor now) := by
  refine (keeps_lookup (Office.reads_requireItem itemId _)).bind fun item => ?_
  refine (reads_demandIf actor item _).keeps.bind fun _ => ?_
  refine keeps_now.bind fun _ => (keeps_rowsOf item.id).bind fun rows => .pure _

theorem keeps_pendingFor (actor : Option String) : Keeps R (Approvals.pendingFor actor) :=
  Keeps.get.bind fun _ => .ofResult _

theorem keeps_listed (actor : Option String) (f : Approvals.ItemFilter) (items : List Item) :
    Keeps R (Approvals.listed actor f items) := by
  induction items with
  | nil => exact .pure _
  | cons item rest ih =>
    refine Keeps.get.bind fun s => (Keeps.ofResult _).bind fun isReadable => ?_
    refine .ite ((keeps_overviewOf item).bind fun v => ih.bind fun others => ?_) ih
    exact .ite (.pure _) (.pure _)

theorem keeps_listItems (actor : Option String) (boardId : Option Int) (filter search : String)
    (page limit : Int) : Keeps R (Approvals.listItems actor boardId filter search page limit) := by
  refine (Keeps.ofResult _).bind fun f => Keeps.bind ?_ fun _ => ?_
  · cases boardId with
    | some b => exact .ofResult _
    | none => exact .pure _
  · exact Keeps.get.bind fun s => (keeps_listed actor f _).bind fun items => .pure _

end Remembering

section Routines

variable {R : Site → Site → Prop} [Noticing R]

/-! ## Messages -/

theorem keeps_notify (user : Value) (notice : Notice) :
    Keeps R (within (Office.notify user notice)) := by
  intro s
  obtain ⟨notifications, hafter⟩ := Office.after_notify user notice s.office
  show R s { s with office := (Office.notify user notice).after s.office }
  rw [hafter]
  exact Noticing.noticed s notifications

theorem keeps_send (c : Channels) (item : Item) (messages : Subject → List Message) :
    Keeps R (c.send item messages) := by
  refine .ite ?_ (.pure _)
  refine (keeps_current item).bind fun item => Keeps.get.bind fun s => ?_
  exact Keeps.forM _ fun m _ => (keeps_notify _ _).discard

/-! ## Alerts -/

theorem keeps_remind (c : Channels) (now : Moment) (a : Approval) :
    Keeps R (Alerts.remind c now a) := by
  refine Keeps.get.bind fun s => ?_
  split
  · exact .pure _
  · refine (keeps_sentWithin _ _ _ _).bind fun wasSent => .ite (.pure _) ?_
    exact (keeps_send c _ _).bind fun _ => .pure _

theorem keeps_sendReminders (c : Channels) (hours : Value) (now : Option Moment) :
    Keeps R (Alerts.sendReminders c hours now) := by
  refine (keeps_valueOrSetting _ _ _).bind fun hours => keeps_now.bind fun clock => ?_
  refine (Keeps.ofResult _).bind fun limit => Keeps.get.bind fun s => ?_
  exact (Keeps.mapM _ fun a _ => keeps_remind c _ a).bind fun sent => .pure _

theorem keeps_alert (c : Channels) (hoursBefore : Value) (now : Moment)
    (counts : Alerts.DeadlineCounts) (a : Approval) :
    Keeps R (Alerts.alert c hoursBefore now counts a) := by
  refine Keeps.get.bind fun s => ?_
  split
  · exact .pure _
  · refine (keeps_workflowOf _).bind fun w => ?_
    split
    · exact .pure _
    · refine (Keeps.ofResult _).bind fun deadline => .ite ?_ ?_
      · refine (Keeps.ofResult _).bind fun isNear => .ite (.pure _) ?_
        refine (keeps_sentWithin _ _ _ _).bind fun wasSent => .ite (.pure _) ?_
        exact (keeps_send c _ _).bind fun _ => .pure _
      · refine (keeps_sentWithin _ _ _ _).bind fun wasSent => .ite (.pure _) ?_
        exact (keeps_send c _ _).bind fun _ => .pure _

theorem keeps_sendDeadlineAlerts (c : Channels) (hoursBefore : Value) (now : Option Moment) :
    Keeps R (Alerts.sendDeadlineAlerts c hoursBefore now) := by
  refine (keeps_valueOrSetting _ _ _).bind fun hours => keeps_now.bind fun clock => ?_
  exact Keeps.get.bind fun s => .foldlM _ (fun counts a _ => keeps_alert c hours _ counts a) _

theorem keeps_escalate (c : Channels) (now : Moment) (a : Approval) :
    Keeps R (Alerts.escalate c now a) := by
  refine Keeps.get.bind fun s => ?_
  split
  · exact .pure _
  · refine (keeps_workflowOf _).bind fun w => ?_
    simp only
    split
    · refine .ite (.pure _) ((keeps_sentWithin _ _ _ _).bind fun wasSent => .ite (.pure _) ?_)
      exact (keeps_send c _ _).bind fun _ => .pure _
    · exact .pure _

theorem keeps_sendEscalations (c : Channels) (now : Option Moment) :
    Keeps R (Alerts.sendEscalations c now) := by
  refine keeps_now.bind fun clock => Keeps.get.bind fun s => ?_
  exact (Keeps.mapM _ fun a _ => keeps_escalate c _ a).bind fun sent => .pure _

end Routines

section Jobs

variable {R : Site → Site → Prop} [Scheduled R]

/-! ## Jobs -/

theorem settles_record (name : String) (outcome : Scheduler.Outcome) :
    Settles R (Scheduler.record name outcome) := by
  refine Settles.get_bind fun s => ?_
  rw [Session.seen_opened]
  cases Scheduler.row? s.office name with
  | none => exact ⟨s, rfl, Std.Refl.refl s⟩
  | some j => exact ⟨_, rfl, Scheduled.planned s _⟩

/-- The standard jobs test dates and send alerts. -/
theorem keeps_standard_of {R : Site → Site → Prop} [Std.Refl R] [IsTrans Site R]
    (hdates : Keeps R (within (Automations.dailyPass none)))
    (hescalations : ∀ c now, Keeps R (Alerts.sendEscalations c now))
    (hreminders : ∀ c hours now, Keeps R (Alerts.sendReminders c hours now))
    (hdeadlines : ∀ c hoursBefore now, Keeps R (Alerts.sendDeadlineAlerts c hoursBefore now)) :
    ∀ job ∈ Registry.standard, Settles R job.work := by
  intro job hjob
  simp only [Registry.standard, List.mem_cons, List.not_mem_nil, or_false] at hjob
  rcases hjob with rfl | rfl | rfl | rfl
  · exact .storing (hdates.bind fun _ => .pure _)
  · exact .storing ((hescalations _ _).bind fun _ => .pure _)
  · exact .storing ((hreminders _ _ _).bind fun _ => .pure _)
  · exact .storing ((hdeadlines _ _ _).bind fun _ => .pure _)

theorem keeps_standard {R : Site → Site → Prop} [Noticing R]
    (hdates : Keeps R (within (Automations.dailyPass none))) :
    ∀ job ∈ Registry.standard, Settles R job.work :=
  keeps_standard_of hdates keeps_sendEscalations keeps_sendReminders keeps_sendDeadlineAlerts

section Registered

variable {registry : Registry} (hregistry : ∀ job ∈ registry, Settles R job.work)

include hregistry

omit hregistry in
/-- A job is run, and how it went is written down. -/
theorem settles_runJob {job : RegisteredJob} (hwork : Settles R job.work) :
    Settles R (Scheduler.runJob job) := by
  have hperform : Settles R (Scheduler.perform job) := by
    refine hwork.attempt.bind fun result => ?_
    cases result with
    | ok v => exact .pure _
    | error fault => exact Settles.rollback.bind fun _ => .pure _
  refine Settles.get_bind fun s => ?_
  split
  · exact ⟨s, rfl, Std.Refl.refl s⟩
  · exact (hperform.bind fun outcome => (settles_record job.name outcome).bind fun _ => .pure _) s

theorem keeps_run (ready : Bool) (name : String) : Keeps R (Scheduler.run registry ready name) := by
  unfold Scheduler.run
  split
  · exact .pure _
  · next job hjob =>
    have hwork : Settles R job.work := hregistry job (List.mem_of_find?_eq_some hjob)
    exact .ite (.pure _) (settles_runJob hwork).within

theorem keeps_runAll (ready : Bool) : Keeps R (Scheduler.runAll registry ready) := by
  refine Keeps.bind (Keeps.mapM _ fun job _ => ?_) fun outcomes => .pure _
  exact (keeps_run hregistry ready job.name).bind fun _ => .pure _

omit hregistry in
theorem keeps_ensureRows : Keeps R (Scheduler.ensureRows registry) := by
  refine Keeps.get.bind fun s => ?_
  exact (Keeps.forM _ fun job _ s => Scheduled.planned s _).bind fun _ => .pure _

omit hregistry in
theorem keeps_setEnabled (name : String) (isEnabled : Bool) :
    Keeps R (Scheduler.setEnabled name isEnabled) := by
  refine Keeps.get.bind fun s => ?_
  split
  · exact .pure _
  · refine Keeps.bind (fun s => ?_) fun _ => .pure _
    exact Scheduled.planned s _

theorem keeps_dailyPass : Keeps R (Scheduler.dailyPass registry) :=
  keeps_ensureRows.discard.bind fun _ => (keeps_runAll hregistry true).discard

end Registered

end Jobs

variable {R : Site → Site → Prop} [Lenient R] {α : Type}

theorem keeps_within {task : OfficeTask α} (h : Keeps Office.Hushed task) :
    Keeps R (within task) :=
  fun s => Lenient.office s (task.after s.office) (h s.office)

theorem keeps_anyWithin {R : Site → Site → Prop} [Indifferent R] (task : OfficeTask α) :
    Keeps R (within task) :=
  fun s => Indifferent.anyOffice s (task.after s.office)

theorem keeps_forget (boardId : Option Int) : Keeps R (forget boardId) :=
  fun s => Lenient.forgetful s boardId

theorem keeps_saveWorkflow (board : Board) (payload : Value) (actor : Option String) :
    Keeps R (saveWorkflow board payload actor) := by
  refine (keeps_lookup (Office.reads_demand actor _ _)).bind fun _ => ?_
  refine (Keeps.ofResult _).bind fun w => Keeps.bind (keeps_within ?_) fun _ => ?_
  · refine Keeps.modify fun o => Office.hears_of_heard_eq ?_
    split <;> rfl
  · exact (keeps_forget _).bind fun _ => .pure w

/-! ## Channels -/

theorem keeps_tell (c : Channels) (item : Item) (kind : EventKind) (actor : Option String)
    (note : ApprovalNote) (h : kind ≠ .approvalApproved) : Keeps R (c.tell item kind actor note) :=
  (keeps_current item).bind fun _ => keeps_within (c.listener.hears_tell h)

theorem keeps_anyTell {R : Site → Site → Prop} [Indifferent R] (c : Channels) (item : Item)
    (kind : EventKind) (actor : Option String) (note : ApprovalNote) :
    Keeps R (c.tell item kind actor note) :=
  (keeps_current item).bind fun _ => keeps_anyWithin _

/-- Whatever the channels tell about an item keeps the relation, unless it is that an approval was given,
    or that the item is approved on all levels. -/
structure Carries (R : Site → Site → Prop) (c : Channels) (item : Item) (actor : Option String) :
    Prop where
  tell : ∀ kind note, kind ≠ .approvalApproved → Keeps R (c.tell item kind actor note)
  send : ∀ messages : Subject → List Message, (∀ s, ∀ m ∈ messages s, m.IsOrdinary) →
    Keeps R (c.send item messages)

namespace Carries

variable {R : Site → Site → Prop} [Std.Refl R] [IsTrans Site R] {c : Channels} {item : Item}
  {actor : Option String}

theorem announce (h : Carries R c item actor) (opened : List Approval) :
    Keeps R (c.announce item opened actor) := by
  refine (Keeps.forM _ fun a _ => h.tell .approvalSubmitted _ (by decide)).bind fun _ => ?_
  refine Keeps.forM _ fun level _ => h.send _ fun s m hm => ?_
  exact s.isOrdinary_approvalRequested hm

omit [Std.Refl R] in
theorem tellRejected (h : Carries R c item actor) (approval : Approval)
    (comments : Option String) :
    Keeps R (Approvals.tellRejected c item approval actor comments) := by
  refine (h.tell .approvalRejected _ (by decide)).bind fun _ => h.send _ fun s m hm => ?_
  split at hm
  · exact s.isOrdinary_changesRequested hm
  · exact s.isOrdinary_rejected hm

theorem tellDecided (h : Carries R c item actor) {approval : Approval}
    (hgiven : Keeps R (c.tell item .approvalApproved actor (Channels.noteOf approval)))
    (comments : Option String) (completed : Bool) (opened : List Approval) :
    Keeps R (Approvals.tellDecided c item approval actor comments completed opened) := by
  refine hgiven.bind fun _ => ?_
  refine (h.send _ fun s m hm => s.isOrdinary_approved hm).bind fun _ => ?_
  have hopened : ∀ u : PUnit, Keeps R
      (c.announce item (opened.filter fun a => a.status == .pending) actor) :=
    fun _ => h.announce _
  exact .ite ((h.tell .levelCompleted _ (by decide)).bind hopened) (hopened ⟨⟩)

theorem tellApproved (h : Carries R c item actor) {approval : Approval}
    (hgiven : Keeps R (c.tell item .approvalApproved actor (Channels.noteOf approval)))
    (hcomplete : Keeps R (c.send item Subject.allComplete)) (comments : Option String)
    (completed : Bool) (aftermath : Approvals.Aftermath) :
    Keeps R (Approvals.tellApproved c item approval actor comments completed aftermath) := by
  rw [Approvals.tellApproved_eq]
  exact (h.tellDecided hgiven comments completed _).bind fun _ => .ite hcomplete (.pure _)

end Carries

theorem carries (c : Channels) (item : Item) (actor : Option String) : Carries R c item actor where
  tell kind note h := keeps_tell c item kind actor note h
  send messages _ := keeps_send c item messages

theorem keeps_announce (c : Channels) (item : Item) (opened : List Approval)
    (actor : Option String) : Keeps R (c.announce item opened actor) :=
  (carries c item actor).announce opened

theorem keeps_tellApproved (c : Channels) (item : Item) (approval : Approval)
    (actor comments : Option String) (completed : Bool) (aftermath : Approvals.Aftermath)
    (h : Keeps R (c.tell item .approvalApproved actor (Channels.noteOf approval))) :
    Keeps R (Approvals.tellApproved c item approval actor comments completed aftermath) :=
  (carries c item actor).tellApproved h (keeps_send c item _) comments completed aftermath

theorem keeps_tellRejected (c : Channels) (item : Item) (approval : Approval)
    (actor comments : Option String) :
    Keeps R (Approvals.tellRejected c item approval actor comments) :=
  (carries c item actor).tellRejected approval comments

/-! ## The archive -/

section Archive

variable {R : Site → Site → Prop} [Curious R]

/-- The archive keeps what is kept where an item is archived, -/
theorem keeps_archive_of (h : ∀ item, Keeps R (within (Office.archive item))) (itemId : Int)
    (actor : Option String) : Keeps R (Approvals.archive itemId actor) := by
  refine (keeps_lookup (Office.reads_requireItem itemId _)).bind fun item => ?_
  refine (reads_demandIf actor item _).keeps.bind fun _ => ?_
  refine (keeps_progressOf item).bind fun progress => .ite ?_ (.pure _)
  exact (h item).discard.bind fun _ => .pure _

/-- and where one is restored. -/
theorem keeps_restore_of (h : ∀ item, Keeps R (within (Office.restore item))) (itemId : Int)
    (actor : Option String) : Keeps R (Approvals.restore itemId actor) := by
  refine (keeps_lookup (Office.reads_requireItem itemId _)).bind fun item => ?_
  refine (reads_demandIf actor item _).keeps.bind fun _ => ?_
  refine .ite ?_ (.pure _)
  exact (h item).discard.bind fun _ => .pure _

end Archive

theorem keeps_archive (itemId : Int) (actor : Option String) :
    Keeps R (Approvals.archive itemId actor) :=
  keeps_archive_of (fun item => keeps_within (Office.hears_of_fixtures (Office.keeps_archive item)))
    itemId actor

theorem keeps_restore (itemId : Int) (actor : Option String) :
    Keeps R (Approvals.restore itemId actor) :=
  keeps_restore_of (fun item => keeps_within (Office.hears_of_fixtures (Office.keeps_restore item)))
    itemId actor

/-! ## Requests, decisions and deletions -/

/-- A relation that allows approvals to be added under new keys. -/
class Growing (R : Site → Site → Prop) : Prop extends Curious R where
  added (s : Site) (row : Approval) (h : row.id = s.approvals.nextKey) :
    R s { s with approvals := s.approvals.add fun _ => row }

instance : Growing (Same Site.office) where
  lookedUp s boardId := lookedUp_office s boardId
  added _ _ _ := rfl

/-- A relation that allows approvals of one item to be added under new keys. -/
class GrowingAt (itemId : Int) (R : Site → Site → Prop) : Prop where
  added (s : Site) (row : Approval) (hkey : row.id = s.approvals.nextKey)
    (hitem : row.itemId = itemId) : R s { s with approvals := s.approvals.add fun _ => row }

instance {R : Site → Site → Prop} [Growing R] (itemId : Int) : GrowingAt itemId R where
  added s row hkey _ := Growing.added s row hkey

/-- A relation that allows approvals to be replaced under their own keys, and removed. -/
class Revising (R : Site → Site → Prop) : Prop extends Std.Refl R, IsTrans Site R where
  decided (s : Site) (row : Approval) :
    R s { s with approvals := s.approvals.modify row.id fun _ => row }
  removed (s : Site) (key : Int) : R s { s with approvals := s.approvals.erase key }

/-- A relation that allows all writes of approvals, beside what is lenient. -/
class Tolerant (R : Site → Site → Prop) : Prop extends Lenient R, Growing R, Revising R

instance : Tolerant (Stable Informed) where
  added _ _ _ := id
  decided _ _ := id
  removed _ _ := id

instance : Tolerant (Stable fun s => s.approvals.KeysDistinct) where
  added _ _ hrow h := h.add hrow
  decided _ row h := h.modify row.id fun _ _ => rfl
  removed _ key h := h.erase key

section Adding

variable {R : Site → Site → Prop} [Curious R]

theorem keeps_addApproval (itemId : Int) [GrowingAt itemId R] (level : String)
    (approver : Option String) (status : Status) (comments : Option String) :
    Keeps R (addApproval itemId level approver status comments) := by
  refine Keeps.get_bind fun s => ?_
  split
  · exact Std.Refl.refl s
  · exact GrowingAt.added s _ rfl rfl

theorem keeps_approveAll (item : Item) [GrowingAt item.id R] (actor : Option String) :
    Keeps R (Approvals.approveAll item actor) := by
  refine (keeps_rowsOf item.id).bind fun rows => ?_
  exact (Keeps.mapM _ fun l _ => keeps_addApproval item.id _ _ _ _).bind fun _ => .pure _

theorem keeps_openNext (item : Item) [GrowingAt item.id R] (w : Workflow) (e : Evaluation) :
    Keeps R (Approvals.openNext item w e) := by
  refine .ite (.pure _) ((keeps_rowsOf item.id).bind fun rows => ?_)
  split
  · refine Keeps.bind (Keeps.forM _ fun l _ => ?_) fun _ => ?_
    · exact (keeps_addApproval item.id _ _ _ _).discard
    · exact (Keeps.mapM _ fun approver _ => keeps_addApproval item.id _ _ _ _).bind fun _ => .pure _
  · exact .pure _

theorem keeps_goOn (item : Item) [GrowingAt item.id R] : Keeps R (Approvals.goOn item) := by
  refine (keeps_evaluateItem item).bind fun (w, e) => ?_
  refine (keeps_openNext item w e).bind fun opened => .ite ?_ (.pure _)
  exact (keeps_progressOf item).bind fun _ => .pure _

theorem Carries.follow {c : Channels} {item : Item} [GrowingAt item.id R] {actor : Option String}
    {decided : Approval} (h : Carries R c item actor)
    (hgiven : decided.status = .approved →
      Keeps R (c.tell item .approvalApproved actor (Channels.noteOf decided)))
    (hcomplete : Keeps R (c.send item Subject.allComplete)) (w : Workflow) (wasSatisfied : Bool)
    (comments : Option String) :
    Keeps R (Approvals.follow c item w wasSatisfied decided actor comments) := by
  unfold Approvals.follow
  split
  · next happroved =>
    have htell (completed : Bool) (aftermath : Approvals.Aftermath) :
        Keeps R (Approvals.tellApproved c item decided actor comments completed aftermath) :=
      h.tellApproved (hgiven happroved) hcomplete comments completed aftermath
    refine Keeps.get.bind fun s => .ite ?_ ?_
    · exact (keeps_goOn item).bind fun aftermath => htell _ aftermath
    · exact (Keeps.pure _).bind fun aftermath => htell _ aftermath
  · exact h.tellRejected decided comments
  · exact .pure _

end Adding

section Revising

variable {R : Site → Site → Prop} [Revising R]

theorem keeps_recordDecision (a : Approval) (status : Status) (comments actor : Option String) :
    Keeps R (recordDecision a status comments actor) := by
  refine Keeps.get_bind fun s => ?_
  simp only
  split
  · exact Std.Refl.refl s
  · exact Revising.decided s (a.decided status comments actor s.office.clock)

theorem keeps_delete (key : Int) (actor : Option String) :
    Keeps R (Approvals.delete key actor) := by
  refine (keeps_requireApproval key).bind fun a => ?_
  refine (keeps_lookup (Office.reads_demand actor _ _)).bind fun _ => ?_
  exact fun s => Revising.removed s a.id

end Revising

section Carried

variable {R : Site → Site → Prop} [Growing R] {c : Channels} {actor : Option String}

/-- A request keeps what its messages keep. -/
theorem keeps_request_of_carries (h : ∀ item, Carries R c item actor)
    (hcomplete : ∀ item, Keeps R (c.send item Subject.allComplete)) (itemId : Int) :
    Keeps R (Approvals.request c itemId actor) := by
  refine (keeps_lookup (Office.reads_requireItem itemId false)).bind fun item => ?_
  refine (keeps_lookup (Office.reads_demand actor _ _)).bind fun _ => ?_
  refine (keeps_evaluateItem item).bind fun (w, e) => .ite ?_ ?_
  · refine (keeps_approveAll item actor).bind fun created => ?_
    exact .ite ((hcomplete item).bind fun _ => .pure _) (.pure _)
  · refine (keeps_openNext item w e).bind fun created => ?_
    exact ((h item).announce _).bind fun _ => .pure _

/-- So does a decision, -/
theorem keeps_transition_of_carries [Revising R] (h : ∀ item, Carries R c item actor)
    (hgiven : ∀ item note, Keeps R (c.tell item .approvalApproved actor note))
    (hcomplete : ∀ item, Keeps R (c.send item Subject.allComplete)) (key : Int) (requested : Value)
    (comments : Option String) : Keeps R (Approvals.transition c key requested actor comments) := by
  refine (reads_examine key requested actor).keeps.bind fun (a, next) => ?_
  refine (keeps_lookup (Office.reads_requireItem a.itemId true)).bind fun item => ?_
  refine (keeps_workflowOf _).bind fun w => Keeps.get.bind fun s => ?_
  refine (keeps_recordDecision a next comments actor).bind fun d => ?_
  refine Keeps.bind ?_ fun _ => .pure d
  exact (h item).follow (fun _ => hgiven item _) (hcomplete item) w _ comments

/-- and whatever is sent is kept where notifications may be written. -/
theorem keeps_transition_of_tell [Routine R] [Revising R]
    (h : ∀ item kind note, Keeps R (c.tell item kind actor note)) (key : Int) (requested : Value)
    (comments : Option String) : Keeps R (Approvals.transition c key requested actor comments) :=
  keeps_transition_of_carries
    (fun item => ⟨fun kind note _ => h item kind note, fun messages _ => keeps_send c item messages⟩)
    (fun item note => h item _ note) (fun item => keeps_send c item _) key requested comments

end Carried

section Writing

variable {R : Site → Site → Prop} [Tolerant R]

theorem keeps_request (c : Channels) (itemId : Int) (actor : Option String) :
    Keeps R (Approvals.request c itemId actor) :=
  keeps_request_of_carries (fun item => carries c item actor) (fun item => keeps_send c item _) itemId

theorem keeps_follow (c : Channels) (item : Item) (w : Workflow) (wasSatisfied : Bool)
    (decided : Approval) (actor comments : Option String)
    (h : decided.status = .approved →
      Keeps R (c.tell item .approvalApproved actor (Channels.noteOf decided))) :
    Keeps R (Approvals.follow c item w wasSatisfied decided actor comments) :=
  (carries c item actor).follow h (keeps_send c item _) w wasSatisfied comments

theorem keeps_transition [Indifferent R] (c : Channels) (key : Int) (requested : Value)
    (actor comments : Option String) :
    Keeps R (Approvals.transition c key requested actor comments) :=
  keeps_transition_of_tell (fun item kind note => keeps_anyTell c item kind actor note) key requested
    comments

end Writing

end Site

end Signoff
