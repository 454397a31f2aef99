import Signoff.Proofs.Approval.Atomic
import Signoff.Proofs.Item.Refused

/-! # Calls about approvals that are refused

    Requests, decisions and the archive read before they write. What they cannot
    do behind their writes is a failure that nobody is told about in detail, and no
    refusal:

    * `spares_transition`, `spares_delete`, `spares_archive`, `spares_restore`,
      `spares_saveWorkflow`: a call that is refused has stored nothing.
    * `unreadable_of_overview`: the overview of an item that is there is refused only
      where the workflow of its board cannot be read.
    * `found_of_request`: behind a request, its item is still there.
-/

open Signoff.Task (Keeps Reads Same SparesAt UnrefusedAt)

namespace Signoff

variable {s : Site} {item : Item} {w : Workflow} {d : Approval} {actor comments : Option String}
  {itemId : Int}

namespace Site

/-- What an operation on the office spares, it spares on the site. -/
theorem spares_within {α : Type} {task : OfficeTask α} (h : SparesAt Result.Refused id s.office task) :
    SparesAt Result.Refused stored s (within task) := by
  intro hrefused
  have hoffice : task.after s.office = s.office := h hrefused
  show (task.after s.office, s.approvals) = _
  rw [hoffice]
  rfl

/-! ## Faults of evaluations -/

theorem refusal?_of_levelRows {fault : Fault} (h : s.levelRows itemId = .error fault) :
    fault.refusal? = none := by
  rw [levelRows_eq_error h]
  rfl

/-- A limit of the evaluation is no refusal. -/
theorem refusal?_of_isLimit {fault : Fault} (h : fault.IsLimit) : fault.refusal? = none := by
  rcases h with rfl | rfl <;> rfl

theorem refusal?_of_progress {rows : List Approval} {snapshot : Snapshot} {fault : Fault}
    (h : w.progress rows (w.evaluate snapshot) = .error fault) : fault.refusal? = none := by
  have hevaluated : w.evaluate snapshot = .error fault := by
    unfold Workflow.progress at h
    split at h
    · cases h
    · split at h
      · cases h
      · split at h
        · rcases Result.bind_eq_error h with h | ⟨e, -, h⟩
          · exact h
          · cases h
        · cases h
  exact refusal?_of_isLimit (Workflow.fault_evaluate hevaluated)

/-- How far an item has come is refused only where its workflow is. -/
theorem workflow?_of_progressOf {fault : Fault} (h : (progressOf item).answer s = .error fault)
    (hrefused : fault.refusal?.isSome) : s.workflow? item.boardId = .error fault := by
  rw [answer_progressOf] at h
  rcases Result.bind_eq_error h with h | ⟨rows, -, h⟩
  · rw [refusal?_of_levelRows h] at hrefused
    cases hrefused
  · rcases Result.bind_eq_error h with h | ⟨w, -, h⟩
    · exact h
    · rw [refusal?_of_progress h] at hrefused
      cases hrefused

/-- The overview of an item that is there is refused only where its workflow is. -/
theorem unreadable_of_overview {fault : Fault} (hkey : checkKey itemId = .ok ())
    (hitem : s.office.items.get? itemId = some item)
    (h : (Approvals.overview itemId none).answer s = .error fault)
    (hrefused : fault.refusal?.isSome) : s.workflow? item.boardId = .error fault := by
  have hfound : (Office.requireItem itemId true).answer s.office = .ok item :=
    Office.answer_requireItem_of_get? hkey hitem
  unfold Approvals.overview at h
  rw [(Office.reads_requireItem itemId true).within.answer_bind, Task.answer_within, hfound] at h
  change (Approvals.overviewOf item).answer s = _ at h
  unfold Approvals.overviewOf at h
  rw [Task.answer_bind_of_exec (exec_rowsOf s item.id)] at h
  rcases Result.bind_eq_error h with h | ⟨rows, -, h⟩
  · rw [refusal?_of_levelRows h] at hrefused
    cases hrefused
  · rw [Task.answer_bind_of_exec (exec_workflowOf s item.boardId)] at h
    rcases Result.bind_eq_error h with h | ⟨w, -, h⟩
    · exact h
    · rw [Task.answer_bind, Approvals.answer_progressOf_lookedUp] at h
      rcases Result.bind_eq_error h with h | ⟨progress, -, h⟩
      · exact workflow?_of_progressOf h hrefused
      · cases h

/-- Such a workflow is a stored one. -/
theorem stored_of_workflow? {boardId : Int} {fault : Fault} (h : s.workflow? boardId = .error fault) :
    ∃ row ∈ s.office.workflows.rows, row.boardId = boardId ∧
      Workflow.ofPayload (payloadOf row) = .error fault := by
  unfold workflow? at h
  split at h
  · cases h
  · unfold storedWorkflow at h
    split at h
    · next row hrow =>
      have hboard := List.find?_some hrow
      exact ⟨row, List.mem_of_find?_eq_some hrow, beq_iff_eq.mp hboard, h⟩
    · cases h

/-! ## Items behind a request -/

/-- On the office, items stay, and so do the stored workflows. -/
def Lasts (s s' : Site) : Prop := s.office.Lasts s'.office

instance : Std.Refl Lasts := ⟨fun s => Std.Refl.refl s.office⟩

instance : IsTrans Site Lasts := ⟨fun s s' s'' h h' => IsTrans.trans s.office s'.office s''.office h h'⟩

instance : Routine Lasts where
  lookedUp s boardId := by
    unfold Lasts
    rw [lookedUp_office]
    exact Std.Refl.refl s.office
  noticed _ _ := .of_same rfl rfl
  scheduled _ _ := .of_same rfl rfl

instance : Growing Lasts where
  lookedUp := Curious.lookedUp
  added _ _ _ := .of_same rfl rfl

theorem lasts_request (c : Channels) (itemId : Int) (actor : Option String) :
    Keeps Lasts (Approvals.request c itemId actor) := by
  have hcarries (item : Item) : Carries Lasts c item actor := by
    refine ⟨fun kind note _ => (keeps_current item).bind fun _ s => ?_, fun messages _ => keeps_send c item messages⟩
    exact Office.permits_tell (R := Office.Lasts) c.listener _ s.office
  exact keeps_request_of_carries hcarries (fun item => keeps_send c item _) itemId

end Site

namespace Approvals

open Site

/-- The item that was asked for is there, and still there behind the request. -/
theorem found_of_request {c : Channels} {created : List Approval}
    (h : (request c itemId actor).answer s = .ok created) :
    checkKey itemId = .ok () ∧
      ∃ item, ((request c itemId actor).after s).office.items.get? itemId = some item := by
  obtain ⟨item, w, e, hrequested, -⟩ := after_of_request h
  refine ⟨Office.checkKey_of_requireItem hrequested.found, Option.isSome_iff_exists.mp ?_⟩
  refine (lasts_request c itemId actor s).items itemId ?_
  rw [hrequested.itemFound]
  rfl

/-! ## Decisions -/

/-- The flow that cannot go on is no refusal, if the workflow was read before. -/
theorem unrefused_goOn (hitem : (s.office.items.get? item.id).isSome)
    (hw : s.workflow? item.boardId = .ok w) : UnrefusedAt s (goOn item) := by
  intro fault h
  cases heval : s.evaluationOf item with
  | ok we => rw [fault_goOn hitem heval h]; rfl
  | error e =>
    have hgone : (goOn item).answer s = .error e := by
      unfold goOn
      rw [Task.answer_bind_of_exec (exec_evaluateItem s item), heval]
      rfl
    obtain rfl : e = fault := Except.error.inj (hgone.symm.trans h)
    unfold evaluationOf at heval
    rw [hw] at heval
    rcases Result.bind_eq_error heval with hnone | ⟨w', hw', heval⟩
    · cases hnone
    · rcases Result.bind_eq_error heval with he | ⟨_, -, he⟩
      · exact refusal?_of_isLimit (Workflow.fault_evaluate he)
      · cases he

theorem unrefused_follow {c : Channels} {wasSatisfied : Bool}
    (hitem : (s.office.items.get? item.id).isSome) (hw : s.workflow? item.boardId = .ok w) :
    UnrefusedAt s (follow c item w wasSatisfied d actor comments) := by
  unfold follow
  split
  · refine .reads_bind .get (.of_returns ⟨s, rfl⟩) fun s' hs' => ?_
    cases hs'
    simp only
    split
    · exact (unrefused_goOn hitem hw).bind fun aftermath _ =>
        .of_returns (returns_tellApproved c item d actor comments _ aftermath _)
    · exact UnrefusedAt.bind (.of_returns ⟨_, rfl⟩) fun aftermath _ =>
        .of_returns (returns_tellApproved c item d actor comments _ aftermath _)
  · exact .of_returns (returns_tellRejected c item d actor comments s)
  · exact .of_returns ⟨_, rfl⟩

/-- A decision that is refused is not written. -/
theorem spares_transition (c : Channels) (key : Int) (requested : Value) :
    SparesAt Result.Refused stored s (transition c key requested actor comments) := by
  rintro ⟨fault, h, hrefused⟩
  rcases transition_cases c key requested actor comments s with
    ⟨fault', s', hexec, hlooked, -⟩ | ⟨a, next, item, w, hdecision, hexec⟩
  · obtain ⟨happrovals, hoffice⟩ := Untouched.of_looked hlooked
    rw [Task.after, hexec]
    exact Prod.ext hoffice happrovals
  · rw [Task.answer, hexec] at h
    have hid : item.id = a.itemId := hdecision.id_eq
    have hitem : (((s.decide (a.decided next comments actor s.office.clock)).lookedUp
        item.boardId).office.items.get? item.id).isSome := by
      rw [lookedUp_office, decide_office, hid, hdecision.itemFound]
      rfl
    have hw : ((s.decide (a.decided next comments actor s.office.clock)).lookedUp
        item.boardId).workflow? item.boardId = .ok w := by
      rw [workflow?_lookedUp]
      exact hdecision.workflow
    -- The decision is written, so what follows it has failed.
    rcases Result.bind_eq_error ((Task.answer_bind _ _ _).symm.trans h) with h | ⟨_, -, h⟩
    · rw [unrefused_follow hitem hw fault h] at hrefused
      cases hrefused
    · cases h

/-! ## Removals, the archive and workflows -/

theorem spares_delete (key : Int) : SparesAt Result.Refused stored s (delete key actor) := by
  refine .reads_bind (keeps_requireApproval key) fun a _ => ?_
  refine .reads_bind (Office.reads_demand actor _ _).within fun _ _ => ?_
  exact .of_unrefused (.of_returns ⟨_, rfl⟩)

/-- An item that is not archived is as it was, -/
theorem spares_archive (itemId : Int) :
    SparesAt (fun r => r ≠ .ok true) stored s (archive itemId actor) := by
  refine .reads_bind (Office.reads_requireItem itemId false).within fun item _ => ?_
  refine .reads_bind (reads_demandIf actor item _) fun _ _ => ?_
  refine .same_bind (keeps_progressOf (R := Same stored) item s) fun progress _ => .ite ?_ ?_
  · exact fun h => absurd rfl h
  · exact .of_keeps (.pure _)

/-- and so is one that is not restored. -/
theorem spares_restore (itemId : Int) :
    SparesAt (fun r => r ≠ .ok true) stored s (restore itemId actor) := by
  refine .reads_bind (Office.reads_requireItem itemId true).within fun item _ => ?_
  refine .reads_bind (reads_demandIf actor item _) fun _ _ => .ite ?_ ?_
  · exact fun h => absurd rfl h
  · exact .of_keeps (.pure _)

theorem spares_saveWorkflow (board : Board) (payload : Value) :
    SparesAt Result.Refused stored s (saveWorkflow board payload actor) := by
  refine .reads_bind (Office.reads_demand actor _ _).within fun _ _ => ?_
  exact .reads_bind (.ofResult _) fun w _ => .of_unrefused (.of_returns ⟨w, rfl⟩)

end Approvals

end Signoff
