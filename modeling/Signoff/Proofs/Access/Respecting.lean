import Signoff.Proofs.Access.Outsider
import Signoff.Proofs.Workflow.Remembered

/-! # Operations by outsiders

    Every operation by an outsider of a workspace respects it:

    * `Operation.By`: the operation is one by the user.
    * `respects_*`: one operation after the other. An operation that writes has
      asked for permission on the resource that it writes to, which lies outside.
    * `respects_of_by`: all of them.
-/

open Signoff.Task (Keeps Reads Same)

namespace Signoff

/-! ## Operations by a user -/

/-- The operation on the office is one by the user. Events, actions, the clock and the settings are
    nobody's. -/
def OfficeOperation.By (user : String) : OfficeOperation → Prop
  | createItem _ _ actor _ _ _ => actor = some user
  | editItem _ _ actor _ _ => actor = some user
  | changeStatus _ _ actor _ => actor = some user
  | removeItem _ _ actor => actor = some user
  | moveItem _ _ actor _ => actor = some user
  | createAutomation _ actor => actor = some user
  | updateAutomation _ _ actor => actor = some user
  | toggleAutomation _ actor => actor = some user
  | deleteAutomation _ actor => actor = some user
  | notify _ _ => True
  | notifyMany _ _ => True
  | markRead _ reader => reader = user
  | markAllRead reader => reader = user
  | react _ _ | showDates _ | execute _ _ _ | setClock _ | configure _ => False

/-- The operation is one by the user, on the site as it is: a workflow is saved for a board that is there.
    Alerts and jobs are nobody's. -/
def Operation.By (user : String) (s : Site) : Operation → Prop
  | request _ _ actor => actor = some user
  | transition _ _ _ actor _ => actor = some user
  | delete _ actor => actor = some user
  | overview _ actor => actor = some user
  | history _ actor _ => actor = some user
  | pending actor => actor = some user
  | list actor _ _ _ _ _ => actor = some user
  | archive _ actor => actor = some user
  | restore _ actor => actor = some user
  | saveWorkflow board _ actor => actor = some user ∧ s.office.boards.get? board.id = some board
  | lookUpWorkflow _ | evaluate _ | forget _ => True
  | sendReminders _ _ _ | sendDeadlineAlerts _ _ _ | sendEscalations _ _ => False
  | ensureJobs | runJob _ _ | runJobs _ | setJob _ _ | passDay => False
  | office op => op.By user

namespace Site

variable {s : Site} {workspace : Int} {user : String} (hkeyed : s.Keyed)
  (hroles : Access.ListsRoles s.office) (hout : s.Outsider workspace user)

include hkeyed hroles hout

/-! ## Approvals -/

/-- What is bounded by the item that the user is permitted something with respects the workspace. -/
theorem respects_of_grants {s' : Site} (itemId : Int) (archived : Bool) (permission : Permission)
    (h : ∀ c : Reach,
      (∀ item, s.Grants user itemId archived permission item → c.items item.id ∧ c.boards item.boardId) →
      (∀ b, s.office.workspaceOf? b ≠ some workspace → c.boards b) → c.BoundsSite s s') :
    s.Respects workspace s' :=
  respects_of_found hkeyed (s.Grants user itemId archived permission) (outside_of_grants hroles hout) h

theorem respects_request (c : Channels) (itemId : Int) :
    s.Respects workspace ((Approvals.request c itemId (some user)).after s) := by
  refine respects_of_grants hkeyed hroles hout itemId false .readItems fun _ hreach _ => ?_
  exact Reach.bounds_request c fun item hfound hdemand => hreach item ⟨hfound, hdemand⟩

theorem respects_transition (c : Channels) (key : Int) (requested : Value) (comments : Option String) :
    s.Respects workspace ((Approvals.transition c key requested (some user) comments).after s) := by
  let found (item : Item) : Prop :=
    ∃ a next w, Approvals.Decision s key requested (some user) comments a next item w
  refine respects_of_found hkeyed found ?_ fun _ hreach _ => ?_
  · -- The permission is about the approval, and so about the workspace of its item.
    rintro item ⟨a, next, w, hdecision⟩
    exact outside_of_approval hroles hout hdecision.found hdecision.itemFound hdecision.permitted
  · exact Reach.bounds_transition c fun a next item w hdecision => hreach item ⟨a, next, w, hdecision⟩

theorem respects_delete (key : Int) :
    s.Respects workspace ((Approvals.delete key (some user)).after s) := by
  let found (item : Item) : Prop := ∃ a, s.approvals.get? key = some a ∧
    s.office.items.get? a.itemId = some item ∧
    Access.demand s.office (some user) (.approval a) .deleteApproval = .ok ()
  refine respects_of_found hkeyed found ?_ fun _ hreach _ => Reach.bounds_delete fun a hget hdemand => ?_
  · rintro item ⟨a, hget, hitem, hdemand⟩
    exact outside_of_approval hroles hout hget hitem hdemand
  · -- What is permitted belongs to a workspace, so the item of the approval is there.
    obtain ⟨_, hworkspace⟩ := Access.workspace_of_demand hdemand
    obtain ⟨item, hitem, -⟩ := Access.workspaceOf?_approval hworkspace
    have hid : item.id = a.itemId := (Table.mem_of_get? hitem).2
    rw [← hid]
    exact (hreach item ⟨a, hget, hitem, hdemand⟩).1

/-! ## The archive -/

omit hkeyed hroles hout in
/-- For a user, the archive asks for the permission. -/
theorem demand_of_demandIf {item : Item} {permission : Permission}
    (h : (Approvals.demandIf (some user) item permission).answer s = .ok ()) :
    Access.demand s.office (some user) (.item item) permission = .ok () :=
  (Office.answer_demand s.office _ _ _).symm.trans h

theorem respects_archive (itemId : Int) :
    s.Respects workspace ((Approvals.archive itemId (some user)).after s) := by
  refine respects_of_grants hkeyed hroles hout itemId false .archiveItem fun _ hreach _ => ?_
  exact Reach.bounds_archived fun item hfound hdemand =>
    (hreach item ⟨hfound, demand_of_demandIf hdemand⟩).1

theorem respects_restore (itemId : Int) :
    s.Respects workspace ((Approvals.restore itemId (some user)).after s) := by
  refine respects_of_grants hkeyed hroles hout itemId true .archiveItem fun _ hreach _ => ?_
  exact Reach.bounds_restored fun item hfound hdemand =>
    (hreach item ⟨hfound, demand_of_demandIf hdemand⟩).1

/-! ## Items -/

section Items

open ItemChange

/-- A change of an item that the user may read respects the workspace. -/
theorem respects_of_readable {α : Type} (itemId : Int) {task : OfficeTask α}
    (h : ∀ c : Reach,
      (∀ item, (readable itemId (some user)).answer s.office = .ok item → c.items item.id) →
      (∀ b, s.office.workspaceOf? b ≠ some workspace → c.boards b) →
      c.Bounds s.office (task.after s.office)) : s.Respects workspace ((within task).after s) := by
  refine respects_of_grants hkeyed hroles hout itemId false .readItems fun c hreach hboards => ?_
  refine Reach.boundsSite_of_office (h c (fun item hfound => ?_) hboards) rfl
  exact (hreach item (Reach.of_readable hfound)).1

theorem respects_edit (listener : Listener) (itemId : Int) (name : Value) (cells : Cells) :
    s.Respects workspace ((within (edit listener itemId (some user) name cells)).after s) :=
  respects_of_readable hkeyed hroles hout itemId fun _ hreach _ => Reach.bounds_edit hreach listener name cells

theorem respects_changeStatus (listener : Listener) (itemId : Int) (status : Value) :
    s.Respects workspace ((within (changeStatus listener itemId (some user) status)).after s) :=
  respects_of_readable hkeyed hroles hout itemId fun _ hreach _ =>
    Reach.bounds_changeStatus hreach listener status

theorem respects_remove (listener : Listener) (itemId : Int) :
    s.Respects workspace ((within (remove listener itemId (some user))).after s) :=
  respects_of_readable hkeyed hroles hout itemId fun _ hreach _ => Reach.bounds_remove hreach listener

theorem respects_move (listener : Listener) (itemId : Int) (board : Value) :
    s.Respects workspace ((within (move listener itemId (some user) board)).after s) := by
  refine respects_of_readable hkeyed hroles hout itemId fun _ hreach hboards => ?_
  exact Reach.bounds_move hreach
    (fun target htarget hdemand => hboards _ (outside_of_target hroles hout htarget hdemand)) listener

/-- The key of a new item is within reach. No item has it yet. -/
theorem respects_create (listener : Listener) (board name status : Value) (cells : Cells) :
    s.Respects workspace ((within (create listener board (some user) name status cells)).after s) := by
  refine respects_of_bounds hkeyed (fun key => key = s.office.items.nextKey) ?_ fun boards hboards => ?_
  · intro i hi hnew
    have hlt : i.id < s.office.items.nextKey := Table.key_lt_nextKey hi
    rw [hnew] at hlt
    exact absurd hlt (Int.lt_irrefl _)
  · refine Reach.boundsSite_of_office (Reach.bounds_create rfl ?_ listener name status cells) rfl
    exact fun target htarget hdemand => hboards _ (outside_of_target hroles hout htarget hdemand)

end Items

/-! ## Automations -/

section Automations

open Automations

omit hkeyed in
theorem respects_createAutomation (payload : Value) :
    s.Respects workspace ((within (create payload (some user))).after s) := by
  have h : s.RespectsOffice workspace s.office ((create payload (some user)).after s.office) := by
    refine Reads.rel_bind (R := s.RespectsOffice workspace) (.ofResult _) fun draft _ => ?_
    refine (Office.reads_requireBoard _).rel_bind fun board hboard => ?_
    refine (Office.reads_demand _ _ _).rel_bind fun _ hdemand => ?_
    rw [Office.answer_demand] at hdemand
    have houtside := outside_of_target hroles hout hboard hdemand
    refine respects_of_settings rfl rfl rfl rfl (fun a ha => ?_) fun _ _ => Iff.rfl
    show a ∈ Table.rows (Table.add _ _) ↔ _
    rw [Table.rows_add, List.mem_append, List.mem_singleton]
    constructor
    · rintro (hold | rfl)
      · exact hold
      · exact absurd ha houtside
    · exact .inl
  exact h

omit hroles hout in
/-- A row outside is replaced by one of the same board. -/
theorem respects_write {old new : Automation} (hold : old ∈ s.office.automations.rows)
    (houtside : s.office.workspaceOf? old.boardId ≠ some workspace) (hboard : new.boardId = old.boardId) :
    s.RespectsOffice workspace s.office ((write old new).after s.office) := by
  refine respects_of_settings rfl rfl rfl rfl (fun a ha => ?_) fun _ _ => Iff.rfl
  refine hkeyed.automations.mem_modify (P := fun a => s.office.workspaceOf? a.boardId = some workspace)
    hold houtside ?_ ha
  show ¬ s.office.workspaceOf? new.boardId = some workspace
  rw [hboard]
  exact houtside

omit hkeyed in
/-- An automation that an outsider may write lies outside. -/
theorem outside_of_permitted {key : Int} {permission : Permission} {a : Automation}
    (h : (permitted key (some user) permission).answer s.office = .ok a) :
    a ∈ s.office.automations.rows ∧ s.office.workspaceOf? a.boardId ≠ some workspace := by
  obtain ⟨hget, board, hboard, hdemand⟩ := of_permitted h
  exact ⟨(Table.mem_of_get? hget).1, outside_of_board hroles hout hboard hdemand⟩

theorem respects_updateAutomation (key : Int) (payload : Value) :
    s.Respects workspace ((within (update key payload (some user))).after s) := by
  have h : s.RespectsOffice workspace s.office ((update key payload (some user)).after s.office) := by
    refine Reads.rel_bind (R := s.RespectsOffice workspace) (reads_permitted key _ _) fun a ha => ?_
    obtain ⟨hstored, houtside⟩ := outside_of_permitted hroles hout ha
    refine Reads.rel_bind (R := s.RespectsOffice workspace) (.ofResult _) fun change _ => ?_
    exact respects_write hkeyed hstored houtside rfl
  exact h

theorem respects_toggleAutomation (key : Int) :
    s.Respects workspace ((within (toggle key (some user))).after s) := by
  have h : s.RespectsOffice workspace s.office ((toggle key (some user)).after s.office) := by
    refine Reads.rel_bind (R := s.RespectsOffice workspace) (reads_permitted key _ _) fun a ha => ?_
    obtain ⟨hstored, houtside⟩ := outside_of_permitted hroles hout ha
    exact respects_write hkeyed hstored houtside rfl
  exact h

theorem respects_deleteAutomation (key : Int) :
    s.Respects workspace ((within (delete key (some user))).after s) := by
  have h : s.RespectsOffice workspace s.office ((delete key (some user)).after s.office) := by
    refine Reads.rel_bind (R := s.RespectsOffice workspace) (reads_permitted key _ _) fun a ha => ?_
    obtain ⟨hstored, houtside⟩ := outside_of_permitted hroles hout ha
    refine respects_of_settings rfl rfl rfl rfl (fun b hb => ?_) fun _ _ => Iff.rfl
    refine List.mem_filter.trans (and_iff_left_of_imp fun hmem => ?_)
    -- The row that is removed lies outside, so it is another one.
    rw [bne_iff_ne]
    intro hsame
    rw [hkeyed.automations.eq_of_key_eq hmem hstored hsame] at hb
    exact houtside hb
  exact h

end Automations

/-! ## Workflows -/

theorem respects_saveWorkflow {board : Board} (hboard : s.office.boards.get? board.id = some board)
    (payload : Value) : s.Respects workspace ((saveWorkflow board payload (some user)).after s) := by
  refine (Office.reads_demand _ _ _).within.rel_bind fun _ hdemand => ?_
  rw [Task.answer_within, Office.answer_demand] at hdemand
  have houtside := outside_of_board hroles hout hboard hdemand
  refine Reads.rel_bind (.ofResult _) fun w _ => ?_
  have hstored := store_eq board (some user) w s.office
  refine respects_of_settings ?_ ?_ ?_ rfl (fun a _ => ?_) fun row hrow => ?_
  · exact congrArg (fun o => o.boards) hstored
  · exact congrArg (fun o => o.items) hstored
  · exact congrArg (fun o => o.cells) hstored
  · exact iff_of_eq (congrArg (fun o => a ∈ o.automations.rows) hstored)
  · refine mem_store hkeyed.workflows fun hsame => houtside ?_
    rwa [← hsame]

/-! ## All operations -/

omit hkeyed hroles hout in
theorem Respects.discard {α : Type} {task : SiteTask α} (h : s.Respects workspace (task.after s)) :
    s.Respects workspace ((Functor.discard task).after s) := by
  rw [Task.after_discard]
  exact h

omit hkeyed hroles hout in
theorem Respects.discard_within {α : Type} {task : OfficeTask α}
    (h : s.Respects workspace ((within task).after s)) :
    s.Respects workspace ((within (Functor.discard task)).after s) := by
  have hsame : (within (Functor.discard task)).after s = (within task).after s := by
    show { s with office := (Functor.discard task).after s.office } = _
    rw [Task.after_discard]
    rfl
  rw [hsame]
  exact h

theorem respects_of_officeBy {op : OfficeOperation} (hby : op.By user) :
    s.Respects workspace ((within op.perform).after s) := by
  cases op with
  | createItem listener board actor name status cells =>
    obtain rfl : actor = some user := hby
    exact (respects_create hkeyed hroles hout listener board name status cells).discard_within
  | editItem listener itemId actor name cells =>
    obtain rfl : actor = some user := hby
    exact (respects_edit hkeyed hroles hout listener itemId name cells).discard_within
  | changeStatus listener itemId actor status =>
    obtain rfl : actor = some user := hby
    exact (respects_changeStatus hkeyed hroles hout listener itemId status).discard_within
  | removeItem listener itemId actor =>
    obtain rfl : actor = some user := hby
    exact (respects_remove hkeyed hroles hout listener itemId).discard_within
  | moveItem listener itemId actor board =>
    obtain rfl : actor = some user := hby
    exact (respects_move hkeyed hroles hout listener itemId board).discard_within
  | createAutomation payload actor =>
    obtain rfl : actor = some user := hby
    exact (respects_createAutomation hroles hout payload).discard_within
  | updateAutomation key payload actor =>
    obtain rfl : actor = some user := hby
    exact (respects_updateAutomation hkeyed hroles hout key payload).discard_within
  | toggleAutomation key actor =>
    obtain rfl : actor = some user := hby
    exact (respects_toggleAutomation hkeyed hroles hout key).discard_within
  | deleteAutomation key actor =>
    obtain rfl : actor = some user := hby
    exact respects_deleteAutomation hkeyed hroles hout key
  | notify recipient notice =>
    exact respects_within (Office.notified_notify recipient notice).discard
  | notifyMany recipients notice =>
    exact respects_within (Office.notified_notifyMany recipients notice).discard
  | markRead key reader =>
    exact respects_within (Office.notified_markRead key reader).discard
  | markAllRead reader =>
    exact respects_within (Office.notified_markAllRead reader).discard
  | react | showDates | execute | setClock | configure => exact hby.elim

/-- Every operation by an outsider respects the workspace. -/
theorem respects_of_by {op : Operation} (hby : op.By user s) : s.Respects workspace (op.after s) := by
  unfold Operation.after
  cases op with
  | request c itemId actor =>
    obtain rfl : actor = some user := hby
    exact (respects_request hkeyed hroles hout c itemId).discard
  | transition c key requested actor comments =>
    obtain rfl : actor = some user := hby
    exact (respects_transition hkeyed hroles hout c key requested comments).discard
  | delete key actor =>
    obtain rfl : actor = some user := hby
    exact respects_delete hkeyed hroles hout key
  | archive itemId actor =>
    obtain rfl : actor = some user := hby
    exact (respects_archive hkeyed hroles hout itemId).discard
  | restore itemId actor =>
    obtain rfl : actor = some user := hby
    exact (respects_restore hkeyed hroles hout itemId).discard
  | saveWorkflow board payload actor =>
    obtain ⟨hactor, hboard⟩ := hby
    obtain rfl : actor = some user := hactor
    exact (respects_saveWorkflow hkeyed hroles hout hboard payload).discard
  | overview itemId actor => exact respects_of_keeps (keeps_overview itemId actor).discard
  | history itemId actor now => exact respects_of_keeps (keeps_history itemId actor now).discard
  | pending actor => exact respects_of_keeps (keeps_pendingFor actor).discard
  | list actor boardId filter search page limit =>
    exact respects_of_keeps (keeps_listItems actor boardId filter search page limit).discard
  | lookUpWorkflow boardId => exact respects_of_keeps (keeps_workflowOf boardId).discard
  | evaluate item => exact respects_of_keeps (keeps_evaluateItem item).discard
  | forget boardId => exact respects_of_holdings rfl
  | office op => exact respects_of_officeBy hkeyed hroles hout hby
  | sendReminders | sendDeadlineAlerts | sendEscalations => exact hby.elim
  | ensureJobs | runJob | runJobs | setJob | passDay => exact hby.elim

end Site

end Signoff
