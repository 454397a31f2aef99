import Signoff.Proofs.Access.Respecting
import Signoff.Web.Serve

/-! # What requests do

    A request carries out at most one operation, and this one is by its user.
    Before it and behind it the request only looks up:

    * `Site.Enacts`: what is stored is as it was, or as behind an operation by
      the user.
    * `Handler.enacts_operation`: a handler with one such operation.
    * `enacts_serve`: every request is answered like this.
-/

open Signoff.Task (Keeps Reads Same)

namespace Signoff

/-! ## One operation at most -/

namespace Site

/-- What is stored is as it was, or as behind an operation by the user. Only remembered workflows may
    differ. -/
def Enacts (user : String) (s s' : Site) : Prop :=
  s'.stored = s.stored ∨ ∃ op : Operation, op.By user s ∧ s'.stored = (op.after s).stored

instance (user : String) : Std.Refl (Enacts user) := ⟨fun _ => .inl rfl⟩

end Site

open Site

/-! ## Handlers -/

namespace Handler

variable {α β : Type} {user : String} {s : Site}

theorem run_site_bind (task : SiteTask α) (f : α → Handler β) :
    (site task >>= f).run = task >>= fun x => (f x).run :=
  ExceptT.run_bind_lift task f

theorem run_office_bind (task : OfficeTask α) (f : α → Handler β) :
    (office task >>= f).run = within task >>= fun x => (f x).run :=
  run_site_bind _ f

theorem discard_bind (h : Handler α) (f : Unit → Handler β) : discard h >>= f = h >>= fun _ => f () :=
  bind_map_left _ h f

section Relations

variable {R : Site → Site → Prop} [Std.Refl R]

theorem keeps_pure (x : α) : Keeps R (pure x : Handler α).run := Keeps.pure (Except.ok x)

theorem keeps_refuse (code : ErrorCode) (message : String) (details : Fields) :
    Keeps R (refuse code message details : Handler α).run :=
  Keeps.pure (Except.error (Refusal.of code message details))

omit [Std.Refl R] in
theorem keeps_ite {c : Prop} [Decidable c] {h h' : Handler α} (hh : Keeps R h.run)
    (hh' : Keeps R h'.run) : Keeps R (if c then h else h').run := by
  split
  · exact hh
  · exact hh'

theorem keeps_success (body : Value) : Keeps R (success body).run := keeps_pure _

/-- What follows a handler that only looks up decides how the states are related. -/
theorem keeps_bind {h : Handler α} {f : α → Handler β} (hreads : Reads h.run)
    (hf : ∀ x, Keeps R (f x).run) : Keeps R (h >>= f).run := by
  intro s
  rw [ExceptT.run_bind]
  refine hreads.rel_bind fun x _ => ?_
  cases x with
  | ok x => exact hf x s
  | error refusal => exact Std.Refl.refl s

theorem reads_get : Reads (get : Handler Site).run := fun _ => rfl

omit [Std.Refl R] in
theorem keeps_site_bind [IsTrans Site R] {task : SiteTask α} {f : α → Handler β} (h : Keeps R task)
    (hf : ∀ x, Keeps R (f x).run) : Keeps R (site task >>= f).run := by
  rw [run_site_bind]
  exact h.bind hf

theorem keeps_office_bind {task : OfficeTask α} {f : α → Handler β} (hreads : Reads task)
    (hf : ∀ x, task.answer s.office = .ok x → R s ((f x).run.after s)) :
    R s ((office task >>= f).run.after s) := by
  rw [run_office_bind]
  exact hreads.within.rel_bind hf

end Relations

/-! ## Reading requests -/

variable (r : Request)

theorem reads_payload : Reads (payload r).run := by
  unfold payload
  split
  · exact keeps_pure _
  · exact keeps_refuse _ _ _

theorem reads_int? (name : String) : Reads (int? r name).run := by
  unfold int?
  split
  · exact keeps_pure _
  · split
    · exact keeps_pure _
    · exact keeps_refuse _ _ _

theorem reads_intOr (name : String) (default : Int) : Reads (intOr r name default).run :=
  keeps_bind (reads_int? r name) fun _ => keeps_pure _

theorem reads_needed (fields : Fields) (name : String) : Reads (needed fields name).run := by
  unfold needed
  simp only
  split
  · exact keeps_refuse _ _ _
  · exact keeps_pure _

theorem reads_itemKey (fields : Fields) : Reads (itemKey fields).run := by
  refine keeps_bind (reads_needed fields _) fun v => ?_
  split
  · exact keeps_pure _
  · exact keeps_refuse _ _ _

/-! ## Handlers with one operation -/

/-- Behind an operation by the user, the handler only looks up. -/
theorem enacts_operation {task : SiteTask α} {f : α → Handler β} (op : Operation) (hby : op.By user s)
    (hop : op.after s = task.after s) (hf : ∀ x, Keeps (Same stored) (f x).run) :
    Enacts user s ((site task >>= f).run.after s) := by
  refine .inr ⟨op, hby, ?_⟩
  rw [run_site_bind, hop]
  exact Keeps.same_after_bind hf

/-- The same for operations that answer something, and for operations on the office. -/
theorem enacts_discarded {task : SiteTask α} {f : α → Handler β} (op : Operation) (hby : op.By user s)
    (hop : op.perform = discard task) (hf : ∀ x, Keeps (Same stored) (f x).run) :
    Enacts user s ((site task >>= f).run.after s) := by
  refine enacts_operation op hby ?_ hf
  unfold Operation.after
  rw [hop, Task.after_discard]

theorem enacts_office {task : OfficeTask α} {f : α → Handler β} (op : OfficeOperation)
    (hby : op.By user) (hop : op.perform = discard task) (hf : ∀ x, Keeps (Same stored) (f x).run) :
    Enacts user s ((office task >>= f).run.after s) := by
  refine enacts_operation (.office op) hby ?_ hf
  show { s with office := op.perform.after s.office } = _
  rw [hop, Task.after_discard]
  rfl

end Handler

/-! ## Endpoints -/

namespace Web

open Handler

variable {r : Request}

/-- A handler does no more for a request than an operation by its user. -/
abbrev Proper (handler : Request → Handler Response) : Prop :=
  ∀ r, Keeps (Enacts r.user) (handler r).run

/-- A handler only looks up. -/
abbrev Looks (handler : Request → Handler Response) : Prop :=
  ∀ r, Keeps (Same stored) (handler r).run

/-- What only looks up enacts nothing. -/
theorem Looks.proper {handler : Request → Handler Response} (h : Looks handler) : Proper handler :=
  fun r => (h r).imp fun _ _ hsame => .inl hsame

section Items

theorem keeps_answer {R : Site → Site → Prop} [Std.Refl R] (status : Int) (item : Item) :
    Keeps R (Items.answer status item).run :=
  keeps_bind reads_get fun _ => keeps_pure _

theorem reads_cells (fields : Fields) : Reads (Items.cells fields).run := by
  unfold Items.cells
  split
  · exact keeps_pure _
  · split
    · exact keeps_pure _
    · exact keeps_refuse _ _ _
  · exact keeps_refuse _ _ _

theorem proper_createItem : Proper Items.create := by
  intro r
  refine keeps_bind (reads_payload r) fun fields => keeps_bind (reads_needed fields _) fun board => ?_
  refine keeps_bind (reads_cells fields) fun cells s => ?_
  exact enacts_office (.createItem _ _ _ _ _ _) rfl rfl fun item => keeps_answer 201 item

theorem looks_findItem (key : Int) : Looks (Items.find key) := by
  refine fun r s => keeps_office_bind (ItemChange.reads_readable key _) fun item _ => ?_
  exact keeps_answer 200 item s

theorem proper_editItem (key : Int) : Proper (Items.edit key) := by
  intro r
  refine keeps_bind (reads_payload r) fun fields => keeps_bind (reads_cells fields) fun cells s => ?_
  exact enacts_office (.editItem _ _ _ _ _) rfl rfl fun item => keeps_answer 200 item

theorem proper_changeStatus (key : Int) : Proper (Items.changeStatus key) := by
  intro r
  refine keeps_bind (reads_payload r) fun fields => ?_
  split
  · split
    · exact keeps_refuse _ _ _
    · exact fun s => enacts_office (.changeStatus _ _ _ _) rfl rfl fun item => keeps_answer 200 item
  · exact keeps_refuse _ _ _

theorem proper_moveItem (key : Int) : Proper (Items.move key) := by
  intro r
  refine keeps_bind (reads_payload r) fun fields => keeps_bind (reads_needed fields _) fun board s => ?_
  exact enacts_office (.moveItem _ _ _ _) rfl rfl fun item => keeps_answer 200 item

theorem proper_removeItem (key : Int) : Proper (Items.remove key) := by
  intro r s
  unfold Items.remove
  rw [discard_bind]
  exact enacts_office (.removeItem _ _ _) rfl rfl fun _ => keeps_success _

end Items

/-! ### Approvals and workflows -/

section Approvals

theorem proper_request (itemId : Int) : Proper (Approvals.request itemId) := by
  refine fun r s => enacts_discarded (.request _ _ _) rfl rfl fun created => ?_
  exact keeps_site_bind (keeps_overview itemId none) fun overview => keeps_pure _

theorem looks_overview (itemId : Int) : Looks (Approvals.overview itemId) :=
  fun _ => keeps_site_bind (keeps_overview itemId _) fun _ => keeps_success _

theorem looks_history (itemId : Int) : Looks (Approvals.history itemId) :=
  fun _ => keeps_site_bind (keeps_history itemId _ _) fun _ => keeps_success _

theorem keeps_archived {R : Site → Site → Prop} [Std.Refl R] (itemId : Int) (isArchived : Bool) :
    Keeps R (Approvals.archived itemId isArchived).run :=
  keeps_success _

theorem proper_archive (itemId : Int) : Proper (Approvals.archive itemId) := by
  refine fun r s => enacts_discarded (.archive _ _) rfl rfl fun isArchived => ?_
  exact keeps_ite (keeps_archived itemId true) (keeps_refuse _ _ _)

theorem proper_restore (itemId : Int) : Proper (Approvals.restore itemId) := by
  refine fun r s => enacts_discarded (.restore _ _) rfl rfl fun isRestored => ?_
  exact keeps_ite (keeps_archived itemId false) (keeps_refuse _ _ _)

theorem looks_items : Looks Approvals.items := by
  intro r
  refine keeps_bind (reads_int? r _) fun board => keeps_bind (reads_intOr r _ _) fun page => ?_
  refine keeps_bind (reads_intOr r _ _) fun limit => keeps_ite (keeps_refuse _ _ _) ?_
  exact keeps_site_bind (keeps_listItems _ _ _ _ _ _) fun _ => keeps_success _

theorem looks_pending : Looks Approvals.pending :=
  fun _ => keeps_site_bind (keeps_pendingFor _) fun _ => keeps_success _

theorem reads_requestedStatus (fields : Fields) : Reads (Approvals.requestedStatus fields).run := by
  refine keeps_ite (keeps_refuse _ _ _) (keeps_ite (Keeps.throw _) ?_)
  split
  · exact keeps_ite (keeps_pure _) (keeps_refuse _ _ _)
  · exact keeps_refuse _ _ _

theorem reads_comments (fields : Fields) : Reads (Approvals.comments fields).run := by
  unfold Approvals.comments
  split
  · exact keeps_pure _
  · exact keeps_pure _
  · exact keeps_refuse _ _ _

theorem proper_decide (key : Int) : Proper (Approvals.decide key) := by
  intro r
  refine keeps_bind (reads_payload r) fun fields => ?_
  refine keeps_bind (reads_requestedStatus fields) fun status => ?_
  refine keeps_bind (reads_comments fields) fun comments s => ?_
  exact enacts_discarded (.transition _ _ _ _ _) rfl rfl fun approval => keeps_success _

theorem proper_removeApproval (key : Int) : Proper (Approvals.remove key) :=
  fun _ _ => enacts_operation (.delete _ _) rfl rfl fun _ => keeps_success _

theorem looks_workflow (boardId : Int) : Looks (Approvals.workflow boardId) := by
  intro r
  refine keeps_site_bind (Office.reads_requireBoard _).within.keeps fun board => ?_
  refine keeps_site_bind (Office.reads_demand _ _ _).within.keeps fun _ => ?_
  exact keeps_site_bind (keeps_workflowOf _) fun w => keeps_success _

/-- A workflow is saved for the board that is found. -/
theorem proper_saveWorkflow (boardId : Int) : Proper (Approvals.saveWorkflow boardId) := by
  intro r
  refine keeps_bind (reads_payload r) fun fields s => ?_
  refine keeps_office_bind (Office.reads_requireBoard _) fun board hboard => ?_
  obtain ⟨n, -, hget⟩ := Office.get?_of_requireBoard hboard
  have hid : board.id = n := (Table.mem_of_get? hget).2
  exact enacts_discarded (.saveWorkflow _ _ _) ⟨rfl, hid ▸ hget⟩ rfl fun w => keeps_success _

theorem looks_evaluate (boardId : Int) : Looks (Approvals.evaluate boardId) := by
  intro r
  refine keeps_bind (reads_payload r) fun fields => keeps_bind (reads_itemKey fields) fun key => ?_
  refine keeps_site_bind (Office.reads_requireBoard _).within.keeps fun board => ?_
  refine keeps_site_bind (Office.reads_demand _ _ _).within.keeps fun _ => ?_
  refine keeps_site_bind (Office.reads_findItem key false).within.keeps fun item => ?_
  split
  · exact Keeps.throw _
  · exact keeps_site_bind (keeps_evaluateItem _) fun _ => keeps_success _

end Approvals

/-! ### Automations -/

section Automations

open Signoff.Automations in
theorem reads_list (board : Value) (actor : Option String) (isActive : Option Bool) (search : String)
    (page limit : Int) : Reads (list board actor isActive search page limit) := by
  refine (Office.reads_requireBoard _).bind fun board => (Office.reads_demand _ _ _).bind fun _ => ?_
  exact .ite (fun _ => rfl) ((Keeps.ofResult _).bind fun _ => Keeps.get.bind fun _ => .pure _)

open Signoff.Automations in
theorem reads_preview (key : Int) (actor : Option String) (itemId : Int) :
    Reads (preview key actor itemId) := by
  refine (reads_permitted key actor _).bind fun a => (Office.reads_findItem itemId false).bind fun found => ?_
  cases found.filter fun i => i.boardId == a.boardId with
  | none => exact fun _ => rfl
  | some item =>
    refine (Keeps.pure item).bind fun item => Keeps.get.bind fun o => ?_
    refine (Keeps.ofResult _).bind fun isTriggered => ?_
    refine (Keeps.ofResult _).bind fun areMet => (Keeps.ofResult _).bind fun actions => ?_
    exact (Keeps.ofResult _).bind fun previews => .pure _

open Signoff.Automations in
theorem reads_logOf (key : Int) (actor : Option String) (limit : Int) :
    Reads (logOf key actor limit) :=
  (reads_permitted key actor _).bind fun _ => Keeps.get.bind fun _ => .pure _

theorem looks_list : Looks Automations.list := by
  refine fun r => Reads.keeps (keeps_bind (reads_int? r _) fun board => ?_)
  split
  · exact keeps_refuse _ _ _
  · refine keeps_bind (reads_intOr r _ _) fun page => keeps_bind (reads_intOr r _ _) fun limit => ?_
    exact keeps_site_bind (reads_list _ _ _ _ _ _).within fun _ => keeps_success _

theorem looks_find (key : Int) : Looks (Automations.find key) := by
  refine fun r => Reads.keeps ?_
  exact keeps_site_bind (Signoff.Automations.reads_permitted key _ _).within fun _ => keeps_success _

theorem looks_preview (key : Int) : Looks (Automations.preview key) := by
  refine fun r => keeps_bind (reads_payload r) fun fields => keeps_bind (reads_itemKey fields) fun item => ?_
  exact Reads.keeps (keeps_site_bind (reads_preview key _ item).within fun _ => keeps_success _)

theorem looks_log (key : Int) : Looks (Automations.log key) := by
  refine fun r => keeps_bind (reads_intOr r _ _) fun limit => Reads.keeps ?_
  exact keeps_site_bind (reads_logOf key _ _).within fun _ => keeps_success _

theorem proper_createAutomation : Proper Automations.create := by
  intro r
  refine keeps_bind (reads_payload r) fun fields s => ?_
  exact enacts_office (.createAutomation _ _) rfl rfl fun a => keeps_pure _

theorem proper_update (key : Int) : Proper (Automations.update key) := by
  intro r
  refine keeps_bind (reads_payload r) fun fields s => ?_
  exact enacts_office (.updateAutomation _ _ _) rfl rfl fun a => keeps_success _

theorem proper_removeAutomation (key : Int) : Proper (Automations.remove key) :=
  fun _ _ => enacts_operation (.office (.deleteAutomation _ _)) rfl rfl fun _ => keeps_success _

theorem proper_toggle (key : Int) : Proper (Automations.toggle key) :=
  fun _ _ => enacts_office (.toggleAutomation _ _) rfl rfl fun _ => keeps_success _

end Automations

/-! ### Notifications, and the state of the program -/

section Notifications

theorem looks_notifications : Looks Notifications.list := by
  refine fun r => keeps_bind (reads_intOr r _ _) fun limit => keeps_bind (reads_intOr r _ _) fun offset => ?_
  apply Reads.keeps
  exact keeps_site_bind (.ofResult _) fun _ => keeps_bind reads_get fun s => keeps_success _

theorem proper_markRead (key : Int) : Proper (Notifications.markRead key) :=
  fun _ _ => enacts_office (.markRead _ _) rfl rfl fun _ => keeps_success _

theorem proper_markAllRead : Proper Notifications.markAllRead :=
  fun _ _ => enacts_office (.markAllRead _) rfl rfl fun _ => keeps_success _

theorem looks_ready : Looks fun _ => Health.ready := fun _ => keeps_success _

theorem looks_live : Looks fun _ => Health.live :=
  fun _ => keeps_bind reads_get fun _ => keeps_success _

end Notifications

/-! ## Serving -/

section Paths

variable {P : (Request → Handler Response) → Prop} {method : String}
  {handler : Request → Handler Response} {rest : Endpoints}

theorem forall_mem_one (h : P handler) : ∀ e ∈ [(method, handler)], P e.2 :=
  List.forall_mem_singleton.mpr h

theorem forall_mem_more (h : P handler) (hrest : ∀ e ∈ rest, P e.2) :
    ∀ e ∈ (method, handler) :: rest, P e.2 :=
  List.forall_mem_cons.mpr ⟨h, hrest⟩

/-- What holds at every number holds at the one of the path. -/
theorem forall_mem_at {part : String} {endpoints : Int → Endpoints}
    (h : ∀ n, ∀ e ∈ endpoints n, P e.2) : ∀ e ∈ at? part endpoints, P e.2 := by
  unfold at?
  split
  · exact h _
  · exact List.forall_mem_nil _

/-- The handler of a method is one of those at the path. -/
theorem of_handler? (h : ∀ e ∈ rest, P e.2) (hhandler : handler? rest method = some handler) :
    P handler := by
  obtain ⟨before, later, rfl, -⟩ := List.lookup_eq_some_iff.mp hhandler
  exact h _ (List.mem_append_right _ (List.mem_cons_self ..))

end Paths

/-- Whatever can be done at a path is proper. -/
def AllProper (endpoints : Endpoints) : Prop := ∀ e ∈ endpoints, Proper e.2

theorem allProper_items (parts : List String) : AllProper (itemEndpoints parts) := by
  unfold itemEndpoints
  split
  · exact forall_mem_one proper_createItem
  · refine forall_mem_at fun n => forall_mem_more (looks_findItem n).proper ?_
    exact forall_mem_more (proper_editItem n) (forall_mem_one (proper_removeItem n))
  · exact forall_mem_at fun n => forall_mem_one (proper_changeStatus n)
  · exact forall_mem_at fun n => forall_mem_one (proper_moveItem n)
  · exact List.forall_mem_nil _

theorem allProper_approvals (parts : List String) : AllProper (approvalEndpoints parts) := by
  unfold approvalEndpoints
  split
  · exact forall_mem_one looks_items.proper
  · exact forall_mem_one looks_pending.proper
  · exact forall_mem_at fun n =>
      forall_mem_more (proper_decide n) (forall_mem_one (proper_removeApproval n))
  · exact forall_mem_at fun n => forall_mem_one (looks_overview n).proper
  · exact forall_mem_at fun n => forall_mem_one (proper_request n)
  · exact forall_mem_at fun n => forall_mem_one (looks_history n).proper
  · exact forall_mem_at fun n => forall_mem_one (proper_archive n)
  · exact forall_mem_at fun n => forall_mem_one (proper_restore n)
  · exact forall_mem_at fun n =>
      forall_mem_more (looks_workflow n).proper (forall_mem_one (proper_saveWorkflow n))
  · exact forall_mem_at fun n => forall_mem_one (looks_evaluate n).proper
  · exact List.forall_mem_nil _

theorem allProper_automations (parts : List String) : AllProper (automationEndpoints parts) := by
  unfold automationEndpoints
  split
  · exact forall_mem_more proper_createAutomation (forall_mem_one looks_list.proper)
  · refine forall_mem_at fun n => forall_mem_more (looks_find n).proper ?_
    exact forall_mem_more (proper_update n) (forall_mem_one (proper_removeAutomation n))
  · exact forall_mem_at fun n => forall_mem_one (proper_toggle n)
  · exact forall_mem_at fun n => forall_mem_one (looks_preview n).proper
  · exact forall_mem_at fun n => forall_mem_one (looks_log n).proper
  · exact List.forall_mem_nil _

theorem allProper_notifications (parts : List String) : AllProper (notificationEndpoints parts) := by
  unfold notificationEndpoints
  split
  · exact forall_mem_one looks_notifications.proper
  · exact forall_mem_at fun n => forall_mem_one (proper_markRead n)
  · exact forall_mem_one proper_markAllRead
  · exact List.forall_mem_nil _

/-- Whatever can be found out about the program is only looked up. -/
theorem looks_health (parts : List String) : ∀ e ∈ healthEndpoints parts, Looks e.2 := by
  unfold healthEndpoints
  split
  · exact forall_mem_one looks_ready
  · exact forall_mem_one looks_live
  · exact List.forall_mem_nil _

theorem allProper_endpointsAt (parts : List String) : AllProper (endpointsAt parts) := by
  unfold endpointsAt
  split
  · split
    · exact allProper_items _
    · exact allProper_approvals _
    · exact allProper_automations _
    · exact allProper_notifications _
    · exact fun e he => (looks_health _ e he).proper
    · exact List.forall_mem_nil _
  · exact List.forall_mem_nil _

/-- What is answered writes nothing more than the handler. -/
theorem after_respond (handler : Handler Response) (requestId : String) (s : Site) :
    (respond handler requestId).after s = handler.run.after s := by
  refine Keeps.same_after_bind (g := id) fun answer => ?_
  split <;> exact Keeps.pure _

theorem enacts_answer (r : Request) : Keeps (Enacts r.user) (answer r) := by
  refine .ite (.pure _) ?_
  split
  · next handler hhandler =>
    intro s
    rw [after_respond]
    exact of_handler? (allProper_endpointsAt _) hhandler r s
  · exact .ite (.pure _) (.pure _)

/-- A request does no more than an operation by its user. -/
theorem enacts_serve (r : Request) : Keeps (Enacts r.user) (serve r) := by
  intro s
  have hsame : (serve r).after s = (answer r).after s :=
    Keeps.same_after_bind (g := id) fun _ => .pure _
  rw [hsame]
  exact enacts_answer r s

end Web

end Signoff
