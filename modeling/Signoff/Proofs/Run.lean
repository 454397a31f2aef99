import Signoff.Automation.Catalog
import Signoff.Item.Changes
import Signoff.Proofs.Approval.Turns

/-! # Runs

    A run performs operations one after another. Each of them may return or fail;
    what it wrote stays written.

    * `OfficeOperation`: an operation on the office. It cannot reach the approvals.
    * `Operation`: an operation on the site.
    * `Site.run`: the state behind a run.
    * `Site.Sound`: what holds of every site, and stays true along every run.
    * `Site.Throughout`: something holds of every operation of a run in its state.
    * `Operation.turn`: what an operation does to the approvals of an item.
    * `Site.rows_run`: what every such turn keeps is kept along a run.
    * `OfficeOperation.permits`, `Operation.keeps_of_permissive`: what permits all
      writes is kept by all operations.
    * `Operation.keeps_of_parts`: an operation that writes no approvals keeps what
      its parts keep.
    * `Site.small`: a site with one item, for examples.
-/

open Signoff.Task (Keeps Same Stable)

namespace Signoff

/-! ## Operations on the office -/

/-- An operation on the office with its arguments: changes of items, automations, notifications, and the
    passing of time. -/
inductive OfficeOperation where
  | createItem (listener : Listener) (board : Value) (actor : Option String) (name status : Value)
      (cells : ItemChange.Cells)
  | editItem (listener : Listener) (itemId : Int) (actor : Option String) (name : Value)
      (cells : ItemChange.Cells)
  | changeStatus (listener : Listener) (itemId : Int) (actor : Option String) (status : Value)
  | removeItem (listener : Listener) (itemId : Int) (actor : Option String)
  | moveItem (listener : Listener) (itemId : Int) (actor : Option String) (board : Value)
  | createAutomation (payload : Value) (actor : Option String)
  | updateAutomation (key : Int) (payload : Value) (actor : Option String)
  | toggleAutomation (key : Int) (actor : Option String)
  | deleteAutomation (key : Int) (actor : Option String)
  | react (event : Event) (today : Option Date)
  | showDates (today : Option Date)
  | execute (actions : Value) (event : Event) (automation : Option Int)
  | notify (user : Value) (notice : Notice)
  | notifyMany (users : List Value) (notice : Notice)
  | markRead (key : Int) (user : String)
  | markAllRead (user : String)
  /-- The clock is set, forwards or backwards. -/
  | setClock (now : Moment)
  /-- The settings are changed. -/
  | configure (settings : Fields)

/-- Performs an operation on the office. -/
def OfficeOperation.perform : OfficeOperation → OfficeTask Unit
  | createItem listener board actor name status cells =>
    discard (ItemChange.create listener board actor name status cells)
  | editItem listener itemId actor name cells =>
    discard (ItemChange.edit listener itemId actor name cells)
  | changeStatus listener itemId actor status =>
    discard (ItemChange.changeStatus listener itemId actor status)
  | removeItem listener itemId actor => discard (ItemChange.remove listener itemId actor)
  | moveItem listener itemId actor board => discard (ItemChange.move listener itemId actor board)
  | createAutomation payload actor => discard (Automations.create payload actor)
  | updateAutomation key payload actor => discard (Automations.update key payload actor)
  | toggleAutomation key actor => discard (Automations.toggle key actor)
  | deleteAutomation key actor => Automations.delete key actor
  | react event today => discard (Automations.react event today)
  | showDates today => discard (Automations.dailyPass today)
  | execute actions event automation => discard (Action.executeAll actions event automation)
  | notify user notice => discard (Office.notify user notice)
  | notifyMany users notice => discard (Office.notifyMany users notice)
  | markRead key user => discard (Office.markRead key user)
  | markAllRead user => discard (Office.markAllRead user)
  | setClock now => modify fun o => { o with clock := now }
  | configure settings => modify fun o => { o with settings := settings }

/-- An operation on the office tells no approval, unless it hands the automations an event. -/
theorem OfficeOperation.hushed {o : OfficeOperation} (h : ∀ event today, o ≠ .react event today) :
    Keeps Office.Hushed o.perform := by
  cases o with
  | react event today => exact absurd rfl (h event today)
  | createItem listener board actor name status cells =>
    exact (ItemChange.hushed_create listener actor board name status cells).discard
  | editItem listener itemId actor name cells =>
    exact (ItemChange.hushed_edit listener itemId actor name cells).discard
  | changeStatus listener itemId actor status =>
    exact (ItemChange.hushed_changeStatus listener itemId actor status).discard
  | removeItem listener itemId actor =>
    exact (ItemChange.hushed_remove listener itemId actor).discard
  | moveItem listener itemId actor board =>
    exact (ItemChange.hushed_move listener itemId actor board).discard
  | createAutomation payload actor =>
    exact (Automations.keeps_create payload actor).discard
  | updateAutomation key payload actor =>
    exact (Automations.keeps_update key payload actor).discard
  | toggleAutomation key actor =>
    exact (Automations.keeps_toggle key actor).discard
  | deleteAutomation key actor => exact Automations.keeps_delete key actor
  | showDates today => exact (Automations.hushed_dailyPass today).discard
  | execute actions event automation =>
    exact (Office.hears_of_fixtures (Action.keeps_executeAll actions event automation)).discard
  | notify user notice =>
    exact (Office.hears_of_fixtures (Office.notified_notify user notice)).discard
  | notifyMany users notice =>
    exact (Office.hears_of_fixtures (Office.notified_notifyMany users notice)).discard
  | markRead key user => exact (Office.hears_of_fixtures (Office.notified_markRead key user)).discard
  | markAllRead user => exact (Office.hears_of_fixtures (Office.notified_markAllRead user)).discard
  | setClock now => exact .modify fun o => Office.hears_of_heard_eq rfl
  | configure settings => exact .modify fun o => Office.hears_of_heard_eq rfl

/-- Does it write notifications, and nothing else? -/
def OfficeOperation.IsNotice : OfficeOperation → Prop
  | notify .. | notifyMany .. | markRead .. | markAllRead .. => True
  | _ => False

/-- What allows whatever automations do, and automations to be written, is kept by every operation on the
    office, if those that write notifications keep it. -/
theorem OfficeOperation.keeps_of_reacting {R : Office → Office → Prop} [Office.Reacting R]
    [Office.Catalogued R] (op : OfficeOperation) (hnotice : op.IsNotice → Keeps R op.perform)
    (hticked : ∀ (o : Office) clock, R o { o with clock := clock })
    (hconfigured : ∀ (o : Office) settings, R o { o with settings := settings }) :
    Keeps R op.perform := by
  have htell (listener : Listener) (kind : EventKind) :
      ∀ event : Event, event.kind = kind → Keeps R (listener.tell event) :=
    fun event _ => Office.permits_tell listener event
  cases op with
  | createItem listener board actor name status cells =>
    exact (ItemChange.keeps_create (htell listener _) actor board name status cells).discard
  | editItem listener itemId actor name cells =>
    exact (ItemChange.keeps_edit (htell listener _) itemId actor name cells).discard
  | changeStatus listener itemId actor status =>
    exact (ItemChange.keeps_changeStatus (htell listener _) itemId actor status).discard
  | removeItem listener itemId actor =>
    exact (ItemChange.keeps_remove (htell listener _) itemId actor).discard
  | moveItem listener itemId actor board =>
    exact (ItemChange.keeps_move (htell listener _) itemId actor board).discard
  | createAutomation payload actor => exact (Automations.keeps_create payload actor).discard
  | updateAutomation key payload actor => exact (Automations.keeps_update key payload actor).discard
  | toggleAutomation key actor => exact (Automations.keeps_toggle key actor).discard
  | deleteAutomation key actor => exact Automations.keeps_delete key actor
  | react event today => exact (Office.permits_react event today).discard
  | showDates today => exact (Office.permits_dailyPass today).discard
  | execute actions event automation => exact (Action.keeps_executeAll actions event automation).discard
  | notify | notifyMany | markRead | markAllRead => exact hnotice trivial
  | setClock now => exact .modify fun o => hticked o now
  | configure settings => exact .modify fun o => hconfigured o settings

/-- Every operation on the office keeps what permits all of its writes. -/
theorem OfficeOperation.permits {R : Office → Office → Prop} [Office.Permissive R]
    (op : OfficeOperation) : Keeps R op.perform := by
  refine op.keeps_of_reacting (fun hnotice => ?_) Office.Permissive.ticked Office.Permissive.configured
  cases op with
  | notify user notice => exact (Office.notified_notify user notice).discard
  | notifyMany users notice => exact (Office.notified_notifyMany users notice).discard
  | markRead key user => exact (Office.notified_markRead key user).discard
  | markAllRead user => exact (Office.notified_markAllRead user).discard
  | _ => exact absurd hnotice id

/-! ## Operations on the site -/

/-- An operation on the site with its arguments. -/
inductive Operation where
  | request (c : Channels) (itemId : Int) (actor : Option String)
  | transition (c : Channels) (key : Int) (requested : Value) (actor comments : Option String)
  | delete (key : Int) (actor : Option String)
  | overview (itemId : Int) (actor : Option String)
  | history (itemId : Int) (actor : Option String) (now : Option Moment)
  | pending (actor : Option String)
  | list (actor : Option String) (boardId : Option Int) (filter search : String) (page limit : Int)
  | archive (itemId : Int) (actor : Option String)
  | restore (itemId : Int) (actor : Option String)
  | sendReminders (c : Channels) (hours : Value) (now : Option Moment)
  | sendDeadlineAlerts (c : Channels) (hoursBefore : Value) (now : Option Moment)
  | sendEscalations (c : Channels) (now : Option Moment)
  | saveWorkflow (board : Board) (payload : Value) (actor : Option String)
  | lookUpWorkflow (boardId : Int)
  | evaluate (item : Item)
  | forget (boardId : Option Int)
  | ensureJobs
  | runJob (ready : Bool) (name : String)
  | runJobs (ready : Bool)
  | setJob (name : String) (isEnabled : Bool)
  | passDay
  | office (op : OfficeOperation)

namespace Operation

/-- Performs an operation on the site. The jobs are the standard ones. -/
def perform : Operation → SiteTask Unit
  | request c itemId actor => discard (Approvals.request c itemId actor)
  | transition c key requested actor comments =>
    discard (Approvals.transition c key requested actor comments)
  | delete key actor => Approvals.delete key actor
  | overview itemId actor => discard (Approvals.overview itemId actor)
  | history itemId actor now => discard (Approvals.history itemId actor now)
  | pending actor => discard (Approvals.pendingFor actor)
  | list actor boardId filter search page limit =>
    discard (Approvals.listItems actor boardId filter search page limit)
  | archive itemId actor => discard (Approvals.archive itemId actor)
  | restore itemId actor => discard (Approvals.restore itemId actor)
  | sendReminders c hours now => discard (Alerts.sendReminders c hours now)
  | sendDeadlineAlerts c hoursBefore now => discard (Alerts.sendDeadlineAlerts c hoursBefore now)
  | sendEscalations c now => discard (Alerts.sendEscalations c now)
  | saveWorkflow board payload actor => discard (Site.saveWorkflow board payload actor)
  | lookUpWorkflow boardId => discard (Site.workflowOf boardId)
  | evaluate item => discard (Site.evaluateItem item)
  | forget boardId => Site.forget boardId
  | ensureJobs => discard (Scheduler.ensureRows Registry.standard)
  | runJob ready name => discard (Scheduler.run Registry.standard ready name)
  | runJobs ready => discard (Scheduler.runAll Registry.standard ready)
  | setJob name isEnabled => discard (Scheduler.setEnabled name isEnabled)
  | passDay => Scheduler.dailyPass Registry.standard
  | office op => Site.within op.perform

/-- The state behind an operation, whether it returns or fails. -/
def after (op : Operation) (s : Site) : Site := op.perform.after s

/-- Does it remove an approval? -/
def Deletes : Operation → Prop
  | delete _ _ => True
  | _ => False

/-- Does it write no approvals? -/
def IsQuiet : Operation → Prop
  | request .. | transition .. | delete .. => False
  | _ => True

/-- Does it run jobs? -/
def RunsJobs : Operation → Prop
  | runJob .. | runJobs .. | passDay => True
  | _ => False

end Operation

/-- The state behind a run. -/
def Site.run (s : Site) : List Operation → Site
  | [] => s
  | op :: rest => (op.after s).run rest

namespace Operation

variable {R : Site → Site → Prop} {s : Site} {op : Operation}

open Site

/-- Whatever the operation is made of keeps the relation. -/
structure PartsKeep (R : Site → Site → Prop) (op : Operation) : Prop where
  jobs : op.RunsJobs → ∀ job ∈ Registry.standard, Session.Settles R job.work
  reminders : ∀ c hours now, op = .sendReminders c hours now →
    Keeps R (Alerts.sendReminders c hours now)
  deadlines : ∀ c hoursBefore now, op = .sendDeadlineAlerts c hoursBefore now →
    Keeps R (Alerts.sendDeadlineAlerts c hoursBefore now)
  escalations : ∀ c now, op = .sendEscalations c now → Keeps R (Alerts.sendEscalations c now)
  archived : ∀ item, Keeps R (within (Office.archive item))
  restored : ∀ item, Keeps R (within (Office.restore item))
  saved : ∀ board payload actor, Keeps R (Site.saveWorkflow board payload actor)
  forgotten : ∀ boardId, Keeps R (Site.forget boardId)
  office : ∀ o, op = .office o → Keeps R (within o.perform)

/-- An operation that writes no approvals keeps what its parts keep. -/
theorem keeps_of_parts [Scheduled R] (h : op.IsQuiet) (hparts : op.PartsKeep R) :
    Keeps R op.perform := by
  cases op with
  | request | transition | delete => exact absurd h id
  | overview itemId actor => exact (keeps_overview itemId actor).discard
  | history itemId actor now => exact (keeps_history itemId actor now).discard
  | pending actor => exact (keeps_pendingFor actor).discard
  | list actor boardId filter search page limit =>
    exact (keeps_listItems actor boardId filter search page limit).discard
  | archive itemId actor => exact (keeps_archive_of hparts.archived itemId actor).discard
  | restore itemId actor => exact (keeps_restore_of hparts.restored itemId actor).discard
  | sendReminders c hours now => exact (hparts.reminders c hours now rfl).discard
  | sendDeadlineAlerts c hoursBefore now => exact (hparts.deadlines c hoursBefore now rfl).discard
  | sendEscalations c now => exact (hparts.escalations c now rfl).discard
  | saveWorkflow board payload actor => exact (hparts.saved board payload actor).discard
  | lookUpWorkflow boardId => exact (keeps_workflowOf boardId).discard
  | evaluate item => exact (keeps_evaluateItem item).discard
  | forget boardId => exact hparts.forgotten boardId
  | ensureJobs => exact keeps_ensureRows.discard
  | runJob ready name => exact (keeps_run (hparts.jobs trivial) ready name).discard
  | runJobs ready => exact (keeps_runAll (hparts.jobs trivial) ready).discard
  | setJob name isEnabled => exact (keeps_setEnabled name isEnabled).discard
  | passDay => exact keeps_dailyPass (hparts.jobs trivial)
  | office o => exact hparts.office o rfl

/-- An operation that writes no approvals keeps what is lenient. Operations on the office may tell
    anything. -/
theorem keeps_of_isQuiet [Lenient R] (h : op.IsQuiet)
    (hoffice : ∀ o, op = .office o → Keeps R (within o.perform)) : Keeps R op.perform :=
  keeps_of_parts h
    { jobs := fun _ => keeps_standard (keeps_within (Automations.hushed_dailyPass none))
      reminders := fun c hours now _ => keeps_sendReminders c hours now
      deadlines := fun c hoursBefore now _ => keeps_sendDeadlineAlerts c hoursBefore now
      escalations := fun c now _ => keeps_sendEscalations c now
      archived := fun item => keeps_within (Office.hears_of_fixtures (Office.keeps_archive item))
      restored := fun item => keeps_within (Office.hears_of_fixtures (Office.keeps_restore item))
      saved := keeps_saveWorkflow
      forgotten := keeps_forget
      office := hoffice }

/-- Every operation keeps what tolerates all writes. -/
theorem keeps_of_tolerant [Tolerant R] [Indifferent R] (op : Operation) : Keeps R op.perform := by
  by_cases hquiet : op.IsQuiet
  · exact keeps_of_isQuiet hquiet fun _ _ => keeps_anyWithin _
  · -- Three operations are left.
    cases op with
    | request c itemId actor => exact (keeps_request c itemId actor).discard
    | transition c key requested actor comments =>
      exact (keeps_transition c key requested actor comments).discard
    | delete key actor => exact keeps_delete key actor
    | _ => exact absurd trivial hquiet

/-- Every operation keeps what permits all writes in the office, but those of workflows. -/
theorem keeps_of_permissive [Routine R] [Growing R] [Revising R] {T : Office → Office → Prop}
    [Office.Permissive T] (hwithin : ∀ {α : Type} {t : OfficeTask α}, Keeps T t → Keeps R (within t))
    (hsave : ∀ board payload actor, Keeps R (Site.saveWorkflow board payload actor))
    (hforget : ∀ boardId, Keeps R (Site.forget boardId)) (op : Operation) : Keeps R op.perform := by
  by_cases hquiet : op.IsQuiet
  · exact keeps_of_parts hquiet
      { jobs := fun _ => keeps_standard (hwithin (Office.permits_dailyPass none))
        reminders := fun c hours now _ => keeps_sendReminders c hours now
        deadlines := fun c hoursBefore now _ => keeps_sendDeadlineAlerts c hoursBefore now
        escalations := fun c now _ => keeps_sendEscalations c now
        archived := fun item => hwithin (Office.keeps_archive item)
        restored := fun item => hwithin (Office.keeps_restore item)
        saved := hsave
        forgotten := hforget
        office := fun o _ => hwithin o.permits }
  have hchannel (c : Channels) (item : Item) (kind : EventKind) (actor : Option String)
      (note : ApprovalNote) : Keeps R (c.tell item kind actor note) :=
    (keeps_current item).bind fun _ => hwithin (Office.permits_tell c.listener _)
  cases op with
  | request c itemId actor =>
    have hcarries (item : Item) : Carries R c item actor :=
      ⟨fun kind note _ => hchannel c item kind actor note,
        fun messages _ => keeps_send c item messages⟩
    exact (keeps_request_of_carries hcarries (fun item => keeps_send c item _) itemId).discard
  | transition c key requested actor comments =>
    have htells (item : Item) (kind : EventKind) (note : ApprovalNote) :=
      hchannel c item kind actor note
    exact (keeps_transition_of_tell htells key requested comments).discard
  | delete key actor => exact keeps_delete key actor
  | _ => exact absurd trivial hquiet

theorem approvals_after (h : op.IsQuiet) : (op.after s).approvals = s.approvals :=
  (keeps_of_isQuiet h fun _ _ => keeps_anyWithin _ : Keeps (Same Site.approvals) _) s

/-- Remembered workflows stay sound. -/
theorem informed_after (op : Operation) (h : s.Informed) : (op.after s).Informed :=
  (keeps_of_tolerant op : Keeps (Stable Informed) _) s h

/-- The keys of the approvals stay distinct. -/
theorem keysDistinct_after (op : Operation) (h : s.approvals.KeysDistinct) :
    (op.after s).approvals.KeysDistinct :=
  (keeps_of_tolerant op : Keeps (Stable fun s => s.approvals.KeysDistinct) _) s h

/-- Every operation but a deletion takes a turn on every item. -/
theorem turn (hkeys : s.approvals.KeysDistinct) (h : ¬ op.Deletes) (itemId : Int) :
    Turn s itemId (s.approvalsOf itemId) ((op.after s).approvalsOf itemId) := by
  by_cases hquiet : op.IsQuiet
  · exact turn_of_same (approvals_after hquiet) itemId
  · cases op with
    | request c key actor =>
      rw [after, perform, Task.after_discard]
      exact turn_request c key actor s itemId
    | transition c key requested actor comments =>
      rw [after, perform, Task.after_discard]
      exact turn_transition hkeys c key requested actor comments itemId
    | delete key actor => exact absurd trivial h
    | _ => exact absurd trivial hquiet

end Operation

namespace Site

variable {s : Site}

theorem keysDistinct_run (ops : List Operation) (h : s.approvals.KeysDistinct) :
    (s.run ops).approvals.KeysDistinct := by
  induction ops generalizing s with
  | nil => exact h
  | cons op rest ih => exact ih (op.keysDistinct_after h)

/-- What holds of every site: no two approvals share a key, and remembered workflows are sound. -/
structure Sound (s : Site) : Prop where
  keysDistinct : s.approvals.KeysDistinct
  informed : s.Informed

/-- Every operation leaves the site sound. -/
theorem Sound.after (h : s.Sound) (op : Operation) : (op.after s).Sound where
  keysDistinct := op.keysDistinct_after h.keysDistinct
  informed := op.informed_after h.informed

theorem Sound.run (h : s.Sound) (ops : List Operation) : (s.run ops).Sound := by
  induction ops generalizing s with
  | nil => exact h
  | cons op rest ih => exact ih (h.after op)

theorem run_append (s : Site) (ops ops' : List Operation) :
    s.run (ops ++ ops') = (s.run ops).run ops' := by
  induction ops generalizing s with
  | nil => rfl
  | cons op rest ih => exact ih (op.after s)

/-- `P` holds of every operation of a run in the state that it finds. -/
def Throughout (P : Site → Operation → Prop) (s : Site) : List Operation → Prop
  | [] => True
  | op :: rest => P s op ∧ (op.after s).Throughout P rest

theorem throughout_of_forall {P : Site → Operation → Prop} {ops : List Operation}
    (h : ∀ s op, P s op) : s.Throughout P ops := by
  induction ops generalizing s with
  | nil => trivial
  | cons op rest ih => exact ⟨h s op, ih⟩

theorem Throughout.forall_mem {P : Site → Operation → Prop} {Q : Operation → Prop}
    {ops : List Operation} (h : s.Throughout P ops) (hQ : ∀ s op, P s op → Q op) :
    ∀ op ∈ ops, Q op := by
  induction ops generalizing s with
  | nil => simp
  | cons op rest ih =>
    intro op' hop'
    rcases List.mem_cons.mp hop' with rfl | hop'
    · exact hQ s _ h.1
    · exact ih h.2 op' hop'

theorem throughout_append {P : Site → Operation → Prop} {before later : List Operation} :
    s.Throughout P (before ++ later) ↔
      s.Throughout P before ∧ (s.run before).Throughout P later := by
  induction before generalizing s with
  | nil => exact ⟨fun h => ⟨trivial, h⟩, fun h => h.2⟩
  | cons op rest ih => exact (and_congr_right fun _ => ih).trans and_assoc.symm

/-- What every turn keeps of the rows of an item is kept along a run without deletions. -/
theorem rows_run {P : Site → Operation → Prop} {I : List Approval → Prop} {itemId : Int}
    {ops : List Operation}
    (hturn : ∀ {s op rows rows'}, s.Informed → P s op → Turn s itemId rows rows' → I rows → I rows')
    (hsound : s.Sound) (hops : ∀ op ∈ ops, ¬ op.Deletes) (hP : s.Throughout P ops)
    (h : I (s.approvalsOf itemId)) : I ((s.run ops).approvalsOf itemId) := by
  induction ops generalizing s with
  | nil => exact h
  | cons op rest ih =>
    obtain ⟨hfirst, hrest⟩ := hP
    have hop := hops op (List.mem_cons_self ..)
    exact ih (hsound.after op) (fun op' hop' => hops op' (List.mem_cons_of_mem _ hop')) hrest
      (hturn hsound.informed hfirst (op.turn hsound.keysDistinct hop itemId) h)

end Site

/-! ## A small site -/

/-- Two levels, one after the other; petty purchases are not asked for. -/
def Workflow.small : Workflow where
  name := "Purchases"
  levels := [{ level := .first, approvers := ["A"] }, { level := .second, approvers := ["B"] }]
  rules := [
    { id := "petty"
      name := "Petty purchases"
      condition := .node (.test .equals) (some "status") (.text "Petty") none
      action := { routing := .autoApprove } }]

/-- The item of the small site. -/
def Item.small : Item where
  id := 1
  boardId := 1
  name := "Desk"
  status := none
  createdBy := "A"
  createdAt := ⟨0⟩

/-- A site with two members and one item, and no approvals yet. -/
def Site.small : Site where
  office :=
    { clock := ⟨0⟩
      settings := []
      members := ⟨[⟨1, 1, "A", "member"⟩, ⟨2, 1, "B", "member"⟩]⟩
      boards := ⟨[⟨1, 1, "Purchases", ⟨0⟩⟩]⟩
      items := ⟨[.small]⟩ }
  known := [(1, .small)]

/-- Channels that only note events down. -/
def Channels.noted : Channels := { listener := .recorder, delivers := false }

namespace Site

theorem sound_small : small.Sound where
  keysDistinct := List.nodup_nil
  informed := by
    intro entry hentry c hc n hn
    rw [List.mem_singleton.mp hentry] at hc
    simp only [Workflow.small, List.mem_cons, List.not_mem_nil, or_false] at hc
    rcases hc with rfl | rfl <;> cases hn

end Site

end Signoff
