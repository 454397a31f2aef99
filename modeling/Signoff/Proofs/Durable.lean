import Signoff.Proofs.Automation.Gating
import Signoff.Proofs.Item.Snapshot
import Signoff.Proofs.Workflow.Remembered

/-! # What was written is read back

    A cell, a workflow or an automation is written over the stored one. A value
    that equals the stored one is not written, also where it is another one: true
    is lost over one, and one over 1.0. Every other value is read back. Only a cell
    may hold a bare number, and its column keeps some of them as other numbers:

    * `CellKept`: a cell that was written shows what is kept of the value, under the
      number of its column.
    * `WorkflowKept`: a workflow that was saved is the one that is looked up.
    * `AutomationKept`: an automation that was changed has its new trigger, actions and
      conditions.
    * `kept_unless_lost`: all of this, for every value that is not lost.
-/

open Signoff.Task (Keeps Reads)

namespace Signoff

variable {o o' : Office}

/-! ## Cells -/

namespace Office

variable {itemId key : Int} {column value : Value}

/-- No other column in which the item has a cell is called like the number of the column. -/
def NumberFree (o : Office) (itemId key : Int) : Prop :=
  ∀ c ∈ o.cellsOf itemId, ∀ column, o.columns.get? c.columnId = some column →
    Text.lower column.name = NumberText.intText key → c.columnId = key

/-- A number that is free shows the value in its column. -/
theorem get?_snapshotOf_of_numberFree {item : Item} {v : Value} (happart : o.CellsApart)
    (hfree : o.NumberFree item.id key) (hv : o.value? item.id key = some v) :
    Fields.get? (o.snapshotOf item) (NumberText.intText key) = some v := by
  obtain ⟨c, hc, rfl, rfl⟩ := exists_of_value? hv
  refine get?_snapshotOf_of_mem hc (List.mem_cons_self ..) fun c' hc' hname => ?_
  have hcolumn : c'.columnId = c.columnId := by
    rcases mem_namesOf.mp hname with hnumber | ⟨column, hfound, hcalled⟩
    · exact (NumberText.intText_injective hnumber).symm
    · exact hfree c' hc' column hfound hcalled.symm
  rw [happart.eq hc' hc hcolumn]

/-- The cell that was written has what is kept of the value, and it is shown under the number of its column,
    if and only if the value was not lost. Every other cell is the same. -/
def CellKept (o o' : Office) (itemId : Int) (column value : Value) : Prop :=
  ∃ key item, column.key? = .ok (some key) ∧ o'.items.get? itemId = some item ∧
    (o'.value? itemId key = some (JsonColumn.keep value) ↔
      ¬ JsonColumn.LostOver value (o.value? itemId key)) ∧
    (o'.NumberFree itemId key →
      (Fields.get? (o'.snapshotOf item) (NumberText.intText key) = some (JsonColumn.keep value) ↔
        ¬ JsonColumn.LostOver value (o.value? itemId key))) ∧
    ∀ i k, (i, k) ≠ (itemId, key) → o'.value? i k = o.value? i k

theorem cellKept_of_writeCell {u : Unit} (hkeyed : o.Keyed) (happart : o.CellsApart)
    (h : (writeCell itemId column value).exec o = (.ok u, o')) : CellKept o o' itemId column value := by
  obtain ⟨key, item, -, hkey, hitem, -, -, rfl⟩ := withCell_of_writeCell h
  obtain rfl : item.id = itemId := (Table.mem_of_get? hitem).2
  have hitem' : (o.withCell item.id key value).items.get? item.id = some item := by
    rw [withCell_eq]
    exact hitem
  have hvalue : (o.withCell item.id key value).value? item.id key =
      some (JsonColumn.keptOver value (o.value? item.id key)) := by
    rw [value?_withCell hkeyed.cells, if_pos ⟨rfl, rfl⟩]
  refine ⟨key, item, hkey, hitem', ?_, fun hfree => ?_, fun i k hother => ?_⟩
  · rw [hvalue, Option.some_inj, JsonColumn.keptOver_eq_iff]
  · rw [get?_snapshotOf_of_numberFree (happart.withCell ..) hfree hvalue, Option.some_inj,
      JsonColumn.keptOver_eq_iff]
  · rw [value?_withCell hkeyed.cells, if_neg fun hsame => hother (Prod.ext hsame.1 hsame.2)]

end Office

/-! ## Workflows -/

/-- The workflow as it is read back, with null in place of doubles that are not finite. -/
def Workflow.kept (w : Workflow) : Workflow := { w with rules := w.rules.map Rule.kept }

namespace Site

variable {s s' : Site} {board : Board} {payload : Value} {actor : Option String} {w : Workflow}

/-- The row of a board. -/
def workflowRow? (o : Office) (boardId : Int) : Option StoredWorkflow :=
  o.workflows.rows.find? fun row => row.boardId == boardId

/-- The row of the board holds the workflow that was stored, but for values that were lost. -/
theorem workflowRow?_store (board : Board) (actor : Option String) (w : Workflow) (o : Office) :
    ∃ row, workflowRow? ((saveWorkflow.store board actor w).after o) board.id = some row ∧
      row.name = w.name ∧ row.description = some w.description ∧
      row.levels = w.levelsValue.keptOver ((workflowRow? o board.id).map (·.levels)) ∧
      row.rules = w.rulesValue.keptOver ((workflowRow? o board.id).map (·.rules)) := by
  unfold saveWorkflow.store Task.after
  rw [Task.exec_modify]
  -- A board without a row gets one, and a row that is there is changed where it stands.
  split
  · next hnone =>
    have hold : workflowRow? o board.id = none := hnone
    refine ⟨⟨o.workflows.nextKey, board.id, w.name, some w.description, w.levelsValue, w.rulesValue,
      actor, o.clock⟩, ?_, rfl, rfl, ?_, ?_⟩
    · unfold workflowRow?
      rw [Table.rows_add, List.find?_append, hnone]
      simp
    · rw [hold]
      rfl
    · rw [hold]
      rfl
  · next row hrow =>
    have hold : workflowRow? o board.id = some row := hrow
    have hfind (f : StoredWorkflow → StoredWorkflow) (hf : ∀ r, (f r).boardId = r.boardId) :
        (o.workflows.modify row.id f).rows.find? (fun r => r.boardId == board.id) = some (f row) := by
      rw [Table.find?_modify _ fun r _ => by rw [hf], hrow]
      exact congrArg some (if_pos (beq_self_eq_true _))
    refine ⟨_, hfind _ fun _ => rfl, rfl, rfl, ?_, ?_⟩
    · rw [hold]
      rfl
    · rw [hold]
      rfl

/-- A workflow that was saved was read from the payload, stored for the board, and forgotten. -/
theorem saveWorkflow_cases (h : (saveWorkflow board payload actor).exec s = (.ok w, s')) :
    Workflow.ofPayload payload = .ok w ∧ s' =
      { s with
        office := (saveWorkflow.store board actor w).after s.office
        known := s.known.filter fun entry => entry.1 != board.id } := by
  unfold saveWorkflow at h
  obtain ⟨_, -, h⟩ := (Office.reads_demand actor _ _).within.bind_eq_ok h
  obtain ⟨read, hread, h⟩ := Reads.bind_eq_ok (.ofResult _) h
  rw [Task.answer_ofResult] at hread
  cases h
  exact ⟨hread, rfl⟩

/-- The row of the board holds the levels and the rules that were saved, unless they were lost, and a
    lookup reads this row. Where both of them are there, it finds what was saved. -/
def WorkflowKept (s s' : Site) (boardId : Int) (w : Workflow) : Prop :=
  ∃ row, workflowRow? s'.office boardId = some row ∧ row.name = w.name ∧
    row.description = some w.description ∧
    (row.levels = w.levelsValue ↔
      ¬ w.levelsValue.LostOver ((workflowRow? s.office boardId).map (·.levels))) ∧
    (row.rules = w.rulesValue ↔
      ¬ w.rulesValue.LostOver ((workflowRow? s.office boardId).map (·.rules))) ∧
    (workflowOf boardId).answer s' = Workflow.ofPayload (payloadOf row) ∧
    (row.levels = w.levelsValue → row.rules = w.rulesValue →
      (workflowOf boardId).answer s' = .ok w.kept)

theorem workflowKept_of_saveWorkflow (hs : s.Recollects)
    (h : (saveWorkflow board payload actor).exec s = (.ok w, s')) :
    WorkflowKept s s' board.id w := by
  have hs' : s'.Recollects := by
    have hkept := recollects_saveWorkflow board payload actor s hs
    rwa [Task.after, h] at hkept
  obtain ⟨hread, rfl⟩ := saveWorkflow_cases h
  obtain ⟨row, hrow, hname, hdescription, hlevels, hrules⟩ :=
    workflowRow?_store board actor w s.office
  have hanswer := hs'.answer_workflowOf board.id
  unfold workflowRow? at hrow
  rw [storedWorkflow, hrow] at hanswer
  refine ⟨row, hrow, hname, hdescription, ?_, ?_, hanswer, fun hsame hsame' => ?_⟩
  · rw [hlevels, Value.keptOver_eq_iff]
  · rw [hrules, Value.keptOver_eq_iff]
  · -- A lookup checks the row like a payload. What was accepted once is accepted again.
    have hw := Workflow.admitted_of_payload hread
    refine hanswer.trans ?_
    show Workflow.ofPayload (payloadOf row) = _
    rw [Workflow.ofPayload_payloadOf (hname ▸ hw.named) hw.levels hw.rules hsame hsame', hname,
      hdescription]
    rfl

end Site

/-! ## Automations -/

namespace Automations

variable {key : Int} {payload : Value} {actor : Option String} {a : Automation}

/-- The automation that was changed holds the trigger, the actions and the conditions of the change, unless
    they were lost. What the change does not name is as before. -/
def AutomationKept (o o' : Office) (key : Int) (payload : Value) : Prop :=
  ∃ old change a, o.automations.get? key = some old ∧ AutomationChange.ofPayload payload = .ok change ∧
    o'.automations.get? key = some a ∧
    (a.trigger = (applied change old).trigger ↔
      ¬ (applied change old).trigger.LostOver (some old.trigger)) ∧
    (a.actions = (applied change old).actions ↔
      ¬ (applied change old).actions.LostOver (some old.actions)) ∧
    (a.conditions = (applied change old).conditions ↔
      ¬ (applied change old).conditions.LostOver (some old.conditions))

/-- A row that is written holds the new values, unless they are lost over the old ones. -/
theorem of_write {old new : Automation} (hid : new.id = old.id)
    (hfound : o.automations.get? old.id = some old) (h : (write old new).exec o = (.ok a, o')) :
    o'.automations.get? old.id = some a ∧ a.trigger = new.trigger.keptOver (some old.trigger) ∧
      a.actions = new.actions.keptOver (some old.actions) ∧
      a.conditions = new.conditions.keptOver (some old.conditions) := by
  cases h
  refine ⟨?_, rfl, rfl, rfl⟩
  refine (Table.get?_modify (fun _ _ => hid) hfound).trans ?_
  exact congrArg some (if_pos (beq_self_eq_true _))

theorem automationKept_of_update (h : (update key payload actor).exec o = (.ok a, o')) :
    AutomationKept o o' key payload := by
  unfold update at h
  obtain ⟨old, hold, h⟩ := (reads_permitted key actor _).bind_eq_ok h
  obtain ⟨change, hchange, hwrite⟩ := Reads.bind_eq_ok (.ofResult _) h
  rw [Task.answer_ofResult] at hchange
  have hfound := get?_of_permitted hold
  obtain rfl : old.id = key := (Table.mem_of_get? hfound).2
  have hid : (applied change old).id = old.id := rfl
  obtain ⟨hstored, htrigger, hactions, hconditions⟩ := of_write hid hfound hwrite
  refine ⟨old, change, a, hfound, hchange, hstored, ?_, ?_, ?_⟩
  · rw [htrigger, Value.keptOver_eq_iff]
  · rw [hactions, Value.keptOver_eq_iff]
  · rw [hconditions, Value.keptOver_eq_iff]

end Automations

/-! ## Runs -/

/-- After any run from a site without workflows, what a write has written is read back, if and only if it
    was not lost over a value that equals it. For a cell that is what its column keeps: the value itself,
    unless it is a double or an integer of more than 64 bits. -/
theorem Site.kept_unless_lost {s : Site} (hkeyed : s.Keyed) (happart : s.CellsApart)
    (hrows : s.office.workflows.rows = []) (hknown : s.known = []) (ops : List Operation) :
    (∀ itemId column value u o',
      (Office.writeCell itemId column value).exec (s.run ops).office = (.ok u, o') →
      Office.CellKept (s.run ops).office o' itemId column value ∧
        ((∀ x, value ≠ .float x) → (∀ n, value = .int n → TextColumn.fits n = true) →
          JsonColumn.keep value = value)) ∧
    (∀ board payload actor w s', (saveWorkflow board payload actor).exec (s.run ops) = (.ok w, s') →
      Workflow.ofPayload payload = .ok w ∧ WorkflowKept (s.run ops) s' board.id w) ∧
    ∀ key payload actor a o',
      (Automations.update key payload actor).exec (s.run ops).office = (.ok a, o') →
      Automations.AutomationKept (s.run ops).office o' key payload := by
  refine ⟨fun itemId column value u o' h => ⟨?_, JsonColumn.keep_eq_self⟩, fun board payload actor w s' h => ⟨?_, ?_⟩,
    fun key payload actor a o' h => ?_⟩
  · exact Office.cellKept_of_writeCell (hkeyed.run ops).toKeyed (Site.cellsApart_run happart ops) h
  · exact (saveWorkflow_cases h).1
  · exact workflowKept_of_saveWorkflow ((recollects_of_fresh hkeyed hrows hknown).run ops) h
  · exact Automations.automationKept_of_update h

namespace Site

/-- A site with an item, a column and an automation, but without a workflow. -/
def stocked : Site where
  office := { Automations.automated with columns := ⟨[⟨1, 1, "Total", "number", 0⟩]⟩ }

/-- The item has got a total of one, and the board a workflow. -/
def stocking : List Operation :=
  [.office (.editItem .nobody 1 (some "A") .null [(.int 1, .int 1)]),
    .saveWorkflow ⟨1, 1, "Purchases", ⟨0⟩⟩ Workflow.small.toValue (some "A")]

/-- A workflow in place of it, with a single level. -/
def shortened : Workflow := { Workflow.small with levels := [{ level := .first, approvers := ["B"] }] }

/-- The automation is to answer new items. -/
def retriggered : Value := .object [("trigger", .object [("type", .text "item_created")])]

theorem keyed_stocked : stocked.Keyed :=
  ⟨⟨List.nodup_singleton _, List.nodup_nil, List.nodup_singleton _, List.nodup_nil⟩, List.nodup_nil⟩

theorem cell_stocked :
    (Office.writeCell 1 (.int 1) (.int 2)).answer (stocked.run stocking).office = .ok () := by
  with_unfolding_all rfl

theorem workflow_stocked :
    (saveWorkflow ⟨1, 1, "Purchases", ⟨0⟩⟩ shortened.toValue (some "A")).answer
      (stocked.run stocking) = .ok shortened := by
  with_unfolding_all rfl

theorem automation_stocked :
    (Automations.update 1 retriggered (some "A")).answer (stocked.run stocking).office =
      .ok { Automations.closing with trigger := .object [("type", .text "item_created")] } := by
  with_unfolding_all rfl

theorem kept_unless_lost_stocked :
    Office.CellKept (stocked.run stocking).office
        ((Office.writeCell 1 (.int 1) (.int 2)).after (stocked.run stocking).office) 1 (.int 1) (.int 2) ∧
      WorkflowKept (stocked.run stocking)
        ((saveWorkflow ⟨1, 1, "Purchases", ⟨0⟩⟩ shortened.toValue (some "A")).after
          (stocked.run stocking)) 1 shortened ∧
      Automations.AutomationKept (stocked.run stocking).office
        ((Automations.update 1 retriggered (some "A")).after (stocked.run stocking).office) 1
        retriggered := by
  obtain ⟨hcells, hworkflows, hautomations⟩ :=
    kept_unless_lost keyed_stocked List.nodup_nil rfl rfl stocking
  exact ⟨(hcells _ _ _ _ _ (Prod.ext cell_stocked rfl)).1, (hworkflows _ _ _ _ _ (Prod.ext workflow_stocked rfl)).2,
    hautomations _ _ _ _ _ (Prod.ext automation_stocked rfl)⟩

/-- Where the total is one, true is lost. -/
theorem true_lost_over_one :
    (Office.writeCell 1 (.int 1) (.bool true)).answer (stocked.run stocking).office = .ok () ∧
      ((Office.writeCell 1 (.int 1) (.bool true)).after (stocked.run stocking).office).value? 1 1 =
        some (.int 1) := by
  constructor
  · with_unfolding_all rfl
  · with_unfolding_all rfl

end Site

end Signoff
