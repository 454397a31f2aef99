import Signoff.Proofs.Task
import Signoff.Proofs.Workflow.Sound

/-! # The workflow that counts for an item

    Looking up a workflow writes it down for later, and changes nothing else:

    * `Site.workflow?` is the workflow that counts for a board, and
      `Site.evaluationOf` what it means for an item, as functions of the state.
    * `exec_workflowOf`, `exec_evaluateItem`: the tasks answer just this, and
      behind them the same workflow counts.
    * `Site.Informed`: every workflow that is remembered is sound.
-/

namespace Signoff.Site

/-- The workflow that counts for a board. -/
def workflow? (site : Site) (boardId : Int) : Result Workflow :=
  match site.known.lookup boardId with
  | some w => .ok w
  | none => storedWorkflow site.office boardId

/-- The workflow that counts for an item, and what it means for it. -/
def evaluationOf (site : Site) (item : Item) : Result (Workflow × Evaluation) := do
  let w ← site.workflow? item.boardId
  let e ← w.evaluate (site.office.snapshotOf item)
  pure (w, e)

/-- The state behind a look at the workflow of a board, which is then remembered. -/
def lookedUp (site : Site) (boardId : Int) : Site :=
  match site.known.lookup boardId, storedWorkflow site.office boardId with
  | none, .ok w => { site with known := (boardId, w) :: site.known }
  | _, _ => site

theorem exec_workflowOf (site : Site) (boardId : Int) :
    (workflowOf boardId).exec site = (site.workflow? boardId, site.lookedUp boardId) := by
  unfold workflowOf workflow? lookedUp
  rw [Task.exec_get_bind]
  cases hknown : site.known.lookup boardId with
  | some w => simp
  | none =>
    simp only
    rw [Task.exec_bind, Task.exec_ofResult]
    cases storedWorkflow site.office boardId <;> rfl

/-- Only what is remembered is affected by a look. -/
theorem exists_lookedUp (site : Site) (boardId : Int) :
    ∃ known, site.lookedUp boardId = { site with known := known } := by
  unfold lookedUp
  split
  · exact ⟨_, rfl⟩
  · exact ⟨site.known, rfl⟩

@[simp] theorem lookedUp_office (site : Site) (boardId : Int) :
    (site.lookedUp boardId).office = site.office := by
  unfold lookedUp
  split <;> rfl

@[simp] theorem lookedUp_approvals (site : Site) (boardId : Int) :
    (site.lookedUp boardId).approvals = site.approvals := by
  unfold lookedUp
  split <;> rfl

/-- A look at a workflow changes nothing about which one counts. -/
@[simp] theorem workflow?_lookedUp (site : Site) (boardId other : Int) :
    (site.lookedUp boardId).workflow? other = site.workflow? other := by
  unfold lookedUp
  split
  · next w hknown hstored =>
    -- The board itself had no workflow remembered, and now has the stored one.
    unfold workflow?
    by_cases h : other = boardId
    · simp [h, hknown, hstored]
    · have hne : (other == boardId) = false := beq_eq_false_iff_ne.mpr h
      simp [List.lookup_cons, hne]
  · rfl

@[simp] theorem evaluationOf_lookedUp (site : Site) (boardId : Int) (item : Item) :
    (site.lookedUp boardId).evaluationOf item = site.evaluationOf item := by
  simp [evaluationOf]

theorem exec_evaluateItem (site : Site) (item : Item) :
    (evaluateItem item).exec site = (site.evaluationOf item, site.lookedUp item.boardId) := by
  unfold evaluateItem evaluationOf
  rw [Task.exec_bind, exec_workflowOf]
  cases site.workflow? item.boardId with
  | error fault => rfl
  | ok w =>
    simp only
    rw [Task.exec_get_bind, Task.exec_bind, Task.exec_ofResult, lookedUp_office]
    show _ = (w.evaluate (site.office.snapshotOf item) >>= fun e => pure (w, e), _)
    cases w.evaluate (site.office.snapshotOf item) <;> rfl

/-- The workflow of an evaluation is the one that counts for the board of the item. -/
theorem workflow?_of_evaluationOf {site : Site} {item : Item} {w : Workflow} {e : Evaluation}
    (h : site.evaluationOf item = .ok (w, e)) :
    site.workflow? item.boardId = .ok w ∧ w.evaluate (site.office.snapshotOf item) = .ok e := by
  unfold evaluationOf at h
  cases hw : site.workflow? item.boardId with
  | error fault =>
    rw [hw] at h
    cases h
  | ok w' =>
    rw [hw] at h
    cases he : w'.evaluate (site.office.snapshotOf item) with
    | error fault =>
      simp only [bind, Except.bind, he] at h
      cases h
    | ok e' =>
      simp only [bind, Except.bind, he] at h
      cases h
      exact ⟨rfl, he⟩

/-! ## Remembered workflows -/

/-- Every workflow that is remembered is sound. -/
def Informed (site : Site) : Prop := ∀ entry ∈ site.known, entry.2.Sound

theorem Informed.lookedUp {site : Site} (h : site.Informed) (boardId : Int) :
    (site.lookedUp boardId).Informed := by
  unfold Site.lookedUp
  split
  · next w hknown hstored =>
    -- Only the stored workflow of the board is new.
    intro entry hentry
    rcases List.mem_cons.mp hentry with rfl | hentry
    · exact sound_of_storedWorkflow hstored
    · exact h entry hentry
  · exact h

/-- The workflow that counts for a board is sound. -/
theorem Informed.sound {site : Site} (h : site.Informed) {boardId : Int} {w : Workflow}
    (hw : site.workflow? boardId = .ok w) : w.Sound := by
  unfold workflow? at hw
  split at hw
  · next found =>
    cases hw
    obtain ⟨l₁, l₂, hl, -⟩ := List.lookup_eq_some_iff.mp found
    exact h (boardId, w) (by simp [hl])
  · exact sound_of_storedWorkflow hw

end Signoff.Site
