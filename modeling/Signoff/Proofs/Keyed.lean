import Signoff.Proofs.Run

/-! # Rows are kept apart

    No operation gives one key to two rows of a table:

    * `Office.Keyed`, `Site.Keyed`: no two rows of a table share a key.
    * `Office.LeavesWorkflows`: rows are kept apart, and the stored workflows are the
      same.
    * `Keyed.after`: every operation keeps rows apart, and so every run.
    * `cellsApart_run`: nor does an item get a second cell in a column.
-/

open Signoff.Task (Keeps Reads Stable)

namespace Signoff

/-! ## Keys -/

/-- No two rows of a table of the office share a key. -/
structure Office.Keyed (o : Office) : Prop where
  items : o.items.KeysDistinct
  cells : o.cells.KeysDistinct
  automations : o.automations.KeysDistinct
  workflows : o.workflows.KeysDistinct

/-- Rows stay apart, and the stored workflows are the same. -/
def Office.LeavesWorkflows (o o' : Office) : Prop := o.Keyed → o'.Keyed ∧ o'.workflows = o.workflows

namespace Office

instance : Std.Refl LeavesWorkflows := ⟨fun _ h => ⟨h, rfl⟩⟩

instance : IsTrans Office LeavesWorkflows where
  trans _ _ _ h h' hkeyed :=
    ⟨(h' (h hkeyed).1).1, (h' (h hkeyed).1).2.trans (h hkeyed).2⟩

end Office

/-- Nor do two approvals. -/
structure Site.Keyed (s : Site) : Prop extends s.office.Keyed where
  approvals : s.approvals.KeysDistinct

/-! ## Operations on the office -/

namespace Office

/-- Every write in the office keeps rows apart, and none is one of a workflow. -/
instance : Permissive LeavesWorkflows where
  changed _ key _ hf h := ⟨{ h with items := h.items.modify key fun i hkey => (hf i).1.trans hkey }, rfl⟩
  added _ _ hid h := ⟨{ h with items := h.items.add hid }, rfl⟩
  wrote itemId := keeps_writeCell_of_withCell fun o columnId value h => by
    have hcells : (o.withCell itemId columnId value).cells.KeysDistinct := keysDistinct_withCell h.cells
    rw [withCell_eq]
    exact ⟨{ h with cells := hcells }, rfl⟩
  cleared itemId := keeps_deleteCells_of_erase fun _ _ _ h =>
    ⟨{ h with cells := h.cells.sublist (List.filter_sublist.map _) }, rfl⟩
  noticed _ _ _ h := ⟨{ h with }, rfl⟩
  logged _ _ h := ⟨{ h with }, rfl⟩
  called _ _ _ h := ⟨{ h with }, rfl⟩
  written _ _ h := ⟨{ h with }, rfl⟩
  saved _ _ hid h := ⟨{ h with automations := h.automations.add hid }, rfl⟩
  rewrote _ _ _ hid h := ⟨{ h with automations := h.automations.modify _ fun _ _ => hid }, rfl⟩
  erased _ key _ h := ⟨{ h with automations := h.automations.erase key }, rfl⟩
  told _ _ h := ⟨{ h with }, rfl⟩
  ticked _ _ h := ⟨{ h with }, rfl⟩
  configured _ _ h := ⟨{ h with }, rfl⟩

/-- And none gives an item a second cell in a column. -/
instance : Permissive (Stable CellsApart) where
  changed _ _ _ _ := id
  added _ _ _ := id
  wrote itemId := keeps_writeCell_of_withCell fun _ columnId value h => h.withCell itemId columnId value
  cleared _ := keeps_deleteCells_of_erase fun _ _ _ h => h.sublist (List.filter_sublist.map _)
  noticed _ _ _ := id
  logged _ _ := id
  called _ _ _ := id
  written _ _ := id
  saved _ _ _ := id
  rewrote _ _ _ _ := id
  erased _ _ _ := id
  told _ _ := id
  ticked _ _ := id
  configured _ _ := id

end Office

/-! ## Operations on the site -/

namespace Site

theorem keyed_within {α : Type} {task : OfficeTask α} (h : Keeps Office.LeavesWorkflows task) :
    Keeps (Stable Site.Keyed) (within task) :=
  fun s hkeyed => ⟨(h s.office hkeyed.toKeyed).1, hkeyed.approvals⟩

/-- Storing a workflow writes no other table, -/
theorem store_eq (board : Board) (actor : Option String) (w : Workflow) (o : Office) :
    (saveWorkflow.store board actor w).after o =
      { o with workflows := ((saveWorkflow.store board actor w).after o).workflows } := by
  unfold saveWorkflow.store Task.after
  rw [Task.exec_modify]
  split <;> rfl

/-- and keeps the rows of this table apart. -/
theorem keyed_store {o : Office} (h : o.Keyed) (board : Board) (actor : Option String) (w : Workflow) :
    ((saveWorkflow.store board actor w).after o).Keyed := by
  unfold saveWorkflow.store Task.after
  rw [Task.exec_modify]
  split
  · exact { h with workflows := h.workflows.add rfl }
  · exact { h with workflows := h.workflows.modify _ fun _ hkey => hkey }

theorem keyed_saveWorkflow (board : Board) (payload : Value) (actor : Option String) :
    Keeps (Stable Site.Keyed) (saveWorkflow board payload actor) := by
  refine (Office.reads_demand actor _ _).within.keeps.bind fun _ => (Keeps.ofResult _).bind fun w => ?_
  refine Keeps.bind (fun s h => ?_) fun _ => Keeps.bind (fun s h => { h with }) fun _ => .pure w
  exact ⟨keyed_store h.toKeyed board actor w, h.approvals⟩

instance : Routine (Stable Site.Keyed) where
  lookedUp s boardId h := by
    obtain ⟨known, hknown⟩ := s.exists_lookedUp boardId
    rw [hknown]
    exact { h with }
  noticed _ _ h := { h with }
  scheduled _ _ h := { h with }

instance : Growing (Stable Site.Keyed) where
  lookedUp := Curious.lookedUp
  added _ _ hrow h := { h with approvals := h.approvals.add hrow }

instance : Revising (Stable Site.Keyed) where
  decided _ row h := { h with approvals := h.approvals.modify row.id fun _ _ => rfl }
  removed _ key h := { h with approvals := h.approvals.erase key }

end Site

theorem Operation.keyed (op : Operation) : Keeps (Stable Site.Keyed) op.perform :=
  Operation.keeps_of_permissive Site.keyed_within Site.keyed_saveWorkflow (fun _ _ h => { h with }) op

namespace Site.Keyed

variable {s : Site}

/-- Every operation keeps rows apart. -/
theorem after (h : s.Keyed) (op : Operation) : (op.after s).Keyed := op.keyed s h

theorem run (h : s.Keyed) (ops : List Operation) : (s.run ops).Keyed := by
  induction ops generalizing s with
  | nil => exact h
  | cons op rest ih => exact ih (h.after op)

end Site.Keyed

/-! ## Cells -/

namespace Site

/-- No item has two cells in one column. -/
def CellsApart (s : Site) : Prop := s.office.CellsApart

instance : Routine (Stable CellsApart) where
  lookedUp s boardId h := by
    obtain ⟨known, hknown⟩ := s.exists_lookedUp boardId
    rw [hknown]
    exact h
  noticed _ _ := id
  scheduled _ _ := id

instance : Growing (Stable CellsApart) where
  lookedUp := Curious.lookedUp
  added _ _ _ := id

instance : Revising (Stable CellsApart) where
  decided _ _ := id
  removed _ _ := id

theorem cellsApart_saveWorkflow (board : Board) (payload : Value) (actor : Option String) :
    Keeps (Stable CellsApart) (saveWorkflow board payload actor) := by
  refine (Office.reads_demand actor _ _).within.keeps.bind fun _ => (Keeps.ofResult _).bind fun w => ?_
  refine Keeps.bind (fun s h => ?_) fun _ => Keeps.bind (fun s => id) fun _ => .pure w
  show ((saveWorkflow.store board actor w).after s.office).CellsApart
  rw [store_eq]
  exact h

end Site

theorem Operation.cellsApart (op : Operation) : Keeps (Stable Site.CellsApart) op.perform :=
  Operation.keeps_of_permissive (T := Stable Office.CellsApart) (fun h s => h s.office)
    Site.cellsApart_saveWorkflow (fun _ _ => id) op

/-- No run gives an item a second cell in a column. -/
theorem Site.cellsApart_run {s : Site} (h : s.CellsApart) (ops : List Operation) :
    (s.run ops).CellsApart := by
  induction ops generalizing s with
  | nil => exact h
  | cons op rest ih => exact ih (op.cellsApart s h)

end Signoff
