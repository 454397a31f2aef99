import Signoff.Proofs.Keyed
import Signoff.Proofs.Workflow.Written

/-! # Remembered workflows

    The workflow of a board is remembered once it was looked up, and forgotten
    when another one is stored. So what is remembered is always what is stored:

    * `Office.Filed`: every board has one stored workflow at most, and each of
      them was written.
    * `after_saveWorkflow`: a workflow is stored and forgotten, or nothing changes.
    * `Site.Recollects`: the workflows that are remembered are those that are
      stored. Every operation keeps it (`Operation.recollects`).
    * `workflowOf_run`: so a lookup answers as if nothing were remembered, and
      never fails.
-/

open Signoff.Task (Keeps Reads Stable)

namespace Signoff

/-! ## Stored workflows -/

/-- Every board has one stored workflow at most, and each of them was written. -/
structure Office.Filed (o : Office) : Prop where
  boardsDistinct : (o.workflows.rows.map (·.boardId)).Nodup
  written : ∀ row ∈ o.workflows.rows, row.Written

namespace Site

variable {s : Site} {o : Office} {board : Board} {actor : Option String} {w : Workflow}

/-- Storing a workflow writes no row of another board. -/
theorem mem_store {board : Board} {actor : Option String} {w : Workflow} {o : Office}
    (hkeys : o.workflows.KeysDistinct) {row : StoredWorkflow} (hrow : row.boardId ≠ board.id) :
    row ∈ ((saveWorkflow.store board actor w).after o).workflows.rows ↔ row ∈ o.workflows.rows := by
  unfold saveWorkflow.store Task.after
  rw [Task.exec_modify]
  split
  · rw [Table.rows_add, List.mem_append, List.mem_singleton]
    constructor
    · rintro (hold | rfl)
      · exact hold
      · exact absurd rfl hrow
    · exact .inl
  · next stored hstored =>
    have hfound := List.find?_some hstored
    have hboard : stored.boardId = board.id := beq_iff_eq.mp hfound
    have hwritten : ¬ stored.boardId ≠ board.id := fun h => h hboard
    exact hkeys.mem_modify (P := fun row => row.boardId ≠ board.id) (List.mem_of_find?_eq_some hstored)
      hwritten hwritten hrow

/-- A row into which a workflow is stored was written, if it was written before. -/
theorem written_of_store {row : StoredWorkflow} (h : row.Written) (hw : w.Admitted)
    (description : Option String) (updatedAt : Moment) :
    StoredWorkflow.Written { row with
      name := w.name
      description
      levels := keepEqual row.levels w.levelsValue
      rules := keepEqual row.rules w.rulesValue
      updatedBy := actor
      updatedAt } where
  named := hw.named
  levels := by
    rcases keepEqual_cases row.levels w.levelsValue with hkept | hkept
    · obtain ⟨levels, hlevels, hvalue⟩ := h.levels
      exact ⟨levels, hlevels, hkept.trans hvalue⟩
    · exact ⟨w.levels, hw.levels, hkept⟩
  rules := by
    rcases keepEqual_cases row.rules w.rulesValue with hkept | hkept
    · obtain ⟨rules, hrules, hvalue⟩ := h.rules
      exact ⟨rules, hrules, hkept.trans hvalue⟩
    · exact ⟨w.rules, hw.rules, hkept⟩

/-- A workflow that is stored is filed. -/
theorem filed_store (h : o.Filed) (hw : w.Admitted) :
    ((saveWorkflow.store board actor w).after o).Filed := by
  unfold saveWorkflow.store Task.after
  rw [Task.exec_modify]
  split
  · next hnone =>
    rw [List.find?_eq_none] at hnone
    constructor
    · rw [Table.rows_add, List.map_append, List.map_singleton, List.nodup_append_comm]
      refine List.nodup_cons.mpr ⟨fun hmem => ?_, h.boardsDistinct⟩
      obtain ⟨row, hrow, hboard⟩ := List.mem_map.mp hmem
      exact hnone row hrow (beq_iff_eq.mpr hboard)
    · intro row hrow
      rw [Table.rows_add, List.mem_append, List.mem_singleton] at hrow
      rcases hrow with hrow | rfl
      · exact h.written row hrow
      · exact ⟨hw.named, ⟨w.levels, hw.levels, rfl⟩, ⟨w.rules, hw.rules, rfl⟩⟩
  · next stored _ =>
    constructor
    · show ((o.workflows.modify stored.id _).rows.map (·.boardId)).Nodup
      rw [Table.map_modify]
      · exact h.boardsDistinct
      · exact fun _ => rfl
    · intro row hrow
      obtain ⟨old, hold, hnew⟩ := List.mem_map.mp hrow
      split at hnew
      · rw [← hnew]
        exact written_of_store (h.written old hold) hw _ _
      · rw [← hnew]
        exact h.written old hold

/-- A stored workflow of a board is the one that is found there. -/
theorem find?_of_filed (h : o.Filed) {row : StoredWorkflow} (hrow : row ∈ o.workflows.rows) :
    (o.workflows.rows.find? fun r => r.boardId == row.boardId) = some row := by
  have hthere : (o.workflows.rows.find? fun r => r.boardId == row.boardId).isSome :=
    List.find?_isSome.mpr ⟨row, hrow, beq_self_eq_true _⟩
  obtain ⟨found, hfound⟩ := Option.isSome_iff_exists.mp hthere
  have hboard : found.boardId = row.boardId := by simpa using List.find?_some hfound
  rw [hfound, List.inj_on_of_nodup_map h.boardsDistinct (List.mem_of_find?_eq_some hfound) hrow hboard]

/-- Storing the workflow of a board does not change those of others. -/
theorem storedWorkflow_store (hkeys : o.workflows.KeysDistinct) (h : o.Filed) (hw : w.Admitted)
    {other : Int} (hother : other ≠ board.id) :
    storedWorkflow ((saveWorkflow.store board actor w).after o) other = storedWorkflow o other := by
  have hmem {row : StoredWorkflow} (hboard : row.boardId = other) :
      row ∈ ((saveWorkflow.store board actor w).after o).workflows.rows ↔ row ∈ o.workflows.rows :=
    mem_store hkeys fun hsame => hother (hboard.symm.trans hsame)
  have hfiled : ((saveWorkflow.store board actor w).after o).Filed := filed_store h hw
  have hfind : (((saveWorkflow.store board actor w).after o).workflows.rows.find?
      fun row => row.boardId == other) = o.workflows.rows.find? fun row => row.boardId == other := by
    cases hfound : o.workflows.rows.find? fun row => row.boardId == other with
    | some row =>
      have hboard : row.boardId = other := by simpa using List.find?_some hfound
      have hstored := find?_of_filed hfiled ((hmem hboard).mpr (List.mem_of_find?_eq_some hfound))
      rwa [hboard] at hstored
    | none =>
      rw [List.find?_eq_none] at hfound ⊢
      intro row hrow hboard
      exact hfound row ((hmem (beq_iff_eq.mp hboard)).mp hrow) hboard
  unfold storedWorkflow
  rw [hfind]

/-- A workflow is stored, and what was remembered of the board is forgotten, or nothing changes. -/
theorem after_saveWorkflow (board : Board) (payload : Value) (actor : Option String) (s : Site) :
    (saveWorkflow board payload actor).after s = s ∨
      ∃ w, Workflow.ofPayload payload = .ok w ∧ (saveWorkflow board payload actor).after s =
        { s with
          office := (saveWorkflow.store board actor w).after s.office
          known := s.known.filter fun entry => entry.1 != board.id } := by
  unfold saveWorkflow Task.after
  rw [(Office.reads_demand actor _ _).within.exec_bind]
  split
  · rw [Reads.exec_bind (.ofResult _), Task.answer_ofResult]
    cases hw : Workflow.ofPayload payload with
    | ok w => exact .inr ⟨w, rfl, rfl⟩
    | error fault => exact .inl rfl
  · exact .inl rfl

/-! ## Remembered workflows -/

/-- The stored workflows are filed, and the remembered ones are those that are stored. -/
structure Recollects (s : Site) : Prop where
  keyed : s.Keyed
  filed : s.office.Filed
  remembered : ∀ boardId w, s.known.lookup boardId = some w → storedWorkflow s.office boardId = .ok w

/-- Neither remembered nor stored workflows are changed. -/
theorem Recollects.of_workflows {s' : Site} (h : s.Recollects) (hkeyed : s'.Keyed)
    (hworkflows : s'.office.workflows = s.office.workflows) (hknown : s'.known = s.known) :
    s'.Recollects where
  keyed := hkeyed
  filed := by
    constructor
    · rw [hworkflows]
      exact h.filed.boardsDistinct
    · rw [hworkflows]
      exact h.filed.written
  remembered := by
    unfold storedWorkflow
    rw [hworkflows, hknown]
    exact h.remembered

/-- A lookup answers what is stored. -/
theorem Recollects.workflow?_eq (h : s.Recollects) (boardId : Int) :
    s.workflow? boardId = storedWorkflow s.office boardId := by
  unfold workflow?
  split
  · next w hw => exact (h.remembered boardId w hw).symm
  · rfl

theorem Recollects.answer_workflowOf (h : s.Recollects) (boardId : Int) :
    (workflowOf boardId).answer s = storedWorkflow s.office boardId := by
  rw [Task.answer, exec_workflowOf, h.workflow?_eq]

instance : Routine (Stable Recollects) where
  lookedUp s boardId h := by
    unfold lookedUp
    split
    · next w hnone hstored =>
      refine ⟨{ h.keyed with }, h.filed, fun other found hfound => ?_⟩
      rw [List.lookup_cons] at hfound
      split at hfound
      · next hsame =>
        cases hfound
        rw [beq_iff_eq.mp hsame]
        exact hstored
      · exact h.remembered other found hfound
    · exact h
  noticed _ _ h := h.of_workflows { h.keyed with } rfl rfl
  scheduled _ _ h := h.of_workflows { h.keyed with } rfl rfl

instance : Growing (Stable Recollects) where
  lookedUp := Curious.lookedUp
  added _ _ hrow h := h.of_workflows { h.keyed with approvals := h.keyed.approvals.add hrow } rfl rfl

instance : Revising (Stable Recollects) where
  decided _ row h :=
    h.of_workflows { h.keyed with approvals := h.keyed.approvals.modify row.id fun _ _ => rfl } rfl rfl
  removed _ key h := h.of_workflows { h.keyed with approvals := h.keyed.approvals.erase key } rfl rfl

theorem recollects_within {α : Type} {task : OfficeTask α} (h : Keeps Office.LeavesWorkflows task) :
    Keeps (Stable Recollects) (within task) := by
  intro s hs
  obtain ⟨hkeyed, hworkflows⟩ := h s.office hs.keyed.toKeyed
  exact hs.of_workflows ⟨hkeyed, hs.keyed.approvals⟩ hworkflows rfl

/-- What is left after a board was forgotten was there before. -/
theorem lookup_forgotten {known : List (Int × Workflow)} {b other : Int} :
    (known.filter fun entry => entry.1 != b).lookup other =
      if other = b then none else known.lookup other := by
  induction known with
  | nil => simp
  | cons entry rest ih =>
    by_cases hentry : entry.1 = b
    · rw [List.filter_cons_of_neg (by simp [hentry]), ih, List.lookup_cons]
      by_cases hother : other = b
      · rw [if_pos hother, if_pos hother]
      · have hne : (other == entry.1) = false := by simp [hentry, hother]
        rw [if_neg hother, if_neg hother, hne]
    · rw [List.filter_cons_of_pos (by simp [hentry]), List.lookup_cons, List.lookup_cons, ih]
      by_cases hother : other = b
      · have hne : (other == entry.1) = false := by simp [hother, Ne.symm hentry]
        rw [if_pos hother, if_pos hother, hne]
      · rw [if_neg hother, if_neg hother]

theorem recollects_forget (boardId : Option Int) : Keeps (Stable Recollects) (forget boardId) := by
  intro s h
  refine ⟨{ h.keyed with }, h.filed, fun other w hw => h.remembered other w ?_⟩
  cases boardId with
  | none => cases hw
  | some b =>
    have hleft : (s.known.filter fun entry => entry.1 != b).lookup other = some w := hw
    rw [lookup_forgotten] at hleft
    split at hleft
    · cases hleft
    · exact hleft

/-- The workflow that is stored is forgotten, and those of other boards are the same as before. -/
theorem recollects_saveWorkflow (board : Board) (payload : Value) (actor : Option String) :
    Keeps (Stable Recollects) (saveWorkflow board payload actor) := by
  intro s h
  have hkeyed := keyed_saveWorkflow board payload actor s h.keyed
  rcases after_saveWorkflow board payload actor s with hsame | ⟨w, hw, hafter⟩
  · rw [hsame]
    exact h
  · rw [hafter] at hkeyed ⊢
    have hadmitted := Workflow.admitted_of_payload hw
    refine ⟨hkeyed, filed_store h.filed hadmitted, fun other found hfound => ?_⟩
    rw [lookup_forgotten] at hfound
    split at hfound
    · cases hfound
    · next hother =>
      rw [storedWorkflow_store h.keyed.workflows h.filed hadmitted hother]
      exact h.remembered other found hfound

end Site

/-! ## Runs -/

/-- Every operation keeps the remembered workflows as they are stored. -/
theorem Operation.recollects (op : Operation) : Keeps (Stable Site.Recollects) op.perform :=
  Operation.keeps_of_permissive Site.recollects_within Site.recollects_saveWorkflow
    Site.recollects_forget op

namespace Site

variable {s : Site}

theorem Recollects.run (h : s.Recollects) (ops : List Operation) : (s.run ops).Recollects := by
  induction ops generalizing s with
  | nil => exact h
  | cons op rest ih => exact ih (op.recollects s h)

/-- A site starts without workflows. -/
theorem recollects_of_fresh (hkeyed : s.Keyed) (hrows : s.office.workflows.rows = [])
    (hknown : s.known = []) : s.Recollects where
  keyed := hkeyed
  filed := by
    constructor
    · rw [hrows]
      exact List.nodup_nil
    · rw [hrows]
      exact fun _ hrow => absurd hrow List.not_mem_nil
  remembered := by
    rw [hknown]
    exact fun _ _ hw => by cases hw

/-- After any run from a site without workflows, the stored workflows can be read, each of them belongs
    to another board, and a lookup answers as if nothing were remembered: the workflow that is stored for
    the board, or else the standard one. -/
theorem workflowOf_run (hkeyed : s.Keyed) (hrows : s.office.workflows.rows = [])
    (hknown : s.known = []) (ops : List Operation) (boardId : Int) :
    (workflowOf boardId).answer (s.run ops) =
        (workflowOf boardId).answer { s.run ops with known := [] } ∧
      (∀ row ∈ (s.run ops).office.workflows.rows, row.boardId = boardId →
        ∃ w, Workflow.ofPayload (payloadOf row) = .ok w ∧
          (workflowOf boardId).answer (s.run ops) = .ok w) ∧
      ((∀ row ∈ (s.run ops).office.workflows.rows, row.boardId ≠ boardId) →
        (workflowOf boardId).answer (s.run ops) = .ok .standard) := by
  have h := (recollects_of_fresh hkeyed hrows hknown).run ops
  have hanswer := h.answer_workflowOf boardId
  refine ⟨?_, fun row hrow hboard => ?_, fun hnone => ?_⟩
  · rw [hanswer, Task.answer, exec_workflowOf]
    rfl
  · obtain ⟨w, hw⟩ := (h.filed.written row hrow).ofPayload
    refine ⟨w, hw, ?_⟩
    rw [hanswer, storedWorkflow, ← hboard, find?_of_filed h.filed hrow]
    exact hw
  · have hfind : ((s.run ops).office.workflows.rows.find? fun row => row.boardId == boardId) = none :=
      List.find?_eq_none.mpr fun row hrow hboard => hnone row hrow (beq_iff_eq.mp hboard)
    rw [hanswer, storedWorkflow, hfind]

/-- A site with an owner and a board, and nothing else. -/
def vacant : Site where
  office :=
    { clock := ⟨0⟩
      settings := []
      members := ⟨[⟨1, 1, "O", "owner"⟩]⟩
      boards := ⟨[⟨1, 1, "Purchases", ⟨0⟩⟩]⟩ }

theorem keyed_vacant : vacant.Keyed :=
  ⟨⟨List.nodup_nil, List.nodup_nil, List.nodup_nil, List.nodup_nil⟩, List.nodup_nil⟩

/-- The standard workflow is looked up before the first one is stored, behind a stranger and a payload
    that are refused. -/
def filing : List Operation :=
  [.lookUpWorkflow 1,
    .saveWorkflow ⟨1, 1, "Purchases", ⟨0⟩⟩ Workflow.small.toValue (some "X"),
    .saveWorkflow ⟨1, 1, "Purchases", ⟨0⟩⟩ .null (some "O"),
    .saveWorkflow ⟨1, 1, "Purchases", ⟨0⟩⟩ Workflow.small.toValue (some "O"),
    .lookUpWorkflow 2]

theorem boards_filing : (vacant.run filing).office.workflows.rows.map (·.boardId) = [1] := by with_unfolding_all rfl

theorem workflowOf_run_vacant :
    (∃ row ∈ (vacant.run filing).office.workflows.rows, row.boardId = 1 ∧
      ∃ w, Workflow.ofPayload (payloadOf row) = .ok w ∧
        (workflowOf 1).answer (vacant.run filing) = .ok w) ∧
      (workflowOf 2).answer (vacant.run filing) = .ok .standard := by
  constructor
  · obtain ⟨row, hrow, hboard⟩ := List.mem_map.mp (boards_filing ▸ List.mem_singleton_self 1)
    exact ⟨row, hrow, hboard, (workflowOf_run keyed_vacant rfl rfl filing 1).2.1 row hrow hboard⟩
  · refine (workflowOf_run keyed_vacant rfl rfl filing 2).2.2 fun row hrow htwo => ?_
    have hmem := List.mem_map_of_mem (f := fun row : StoredWorkflow => row.boardId) hrow
    rw [boards_filing, htwo] at hmem
    exact absurd hmem (by decide)

end Site
end Signoff
