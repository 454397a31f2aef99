import Signoff.Proofs.Office.Items
import Signoff.Proofs.Value

/-! # Cells of items

    An item has one cell in a column at most, and no write gives it a second one:

    * `Office.CellsApart`: no item has two cells in one column.
    * `Office.value?`: the value that an item has in a column.
    * `Office.withCell`: the office after a cell was written. The cell has what the column
      keeps of the value, or an equal one that it had before (`value?_withCell`), and every
      other cell is the same.
    * `withCell_of_writeCell`: this is what a write does that returns.
-/

open Signoff.Task (Keeps Reads Stable)

namespace Signoff.Office

/-- No item has two cells in one column. -/
def CellsApart (o : Office) : Prop := (o.cells.rows.map fun c => (c.itemId, c.columnId)).Nodup

/-- The value that an item has in a column, if it has a cell there. -/
def value? (o : Office) (itemId columnId : Int) : Option Value :=
  (o.cell? itemId columnId).map (·.value)

/-- The office after a cell was written: the stored one is changed, or a new one made. -/
def withCell (o : Office) (itemId columnId : Int) (value : Value) : Office :=
  match o.cell? itemId columnId with
  | some cell =>
    { o with cells := o.cells.modify cell.id fun row =>
      { row with value := JsonColumn.write row.value value } }
  | none => { o with cells := o.cells.add fun id => ⟨id, itemId, columnId, JsonColumn.keep value⟩ }

variable {o o' : Office} {itemId columnId key : Int} {column value v : Value} {c c' : Cell}

/-! ## Looking up -/

theorem mem_cellsOf : c ∈ o.cellsOf itemId ↔ c ∈ o.cells.rows ∧ c.itemId = itemId := by
  unfold cellsOf
  rw [List.mem_filter, beq_iff_eq]

/-- The cell that is found is one of the item, in the column. -/
theorem of_cell? (h : o.cell? itemId columnId = some c) :
    c ∈ o.cellsOf itemId ∧ c.columnId = columnId := by
  have hplace := List.find?_some h
  simp only [Bool.and_eq_true, beq_iff_eq] at hplace
  exact ⟨mem_cellsOf.mpr ⟨List.mem_of_find?_eq_some h, hplace.1⟩, hplace.2⟩

/-- An item has one cell in a column. -/
theorem CellsApart.eq (h : o.CellsApart) (hc : c ∈ o.cellsOf itemId) (hc' : c' ∈ o.cellsOf itemId)
    (hcolumn : c.columnId = c'.columnId) : c = c' := by
  obtain ⟨hc, hitem⟩ := mem_cellsOf.mp hc
  obtain ⟨hc', hitem'⟩ := mem_cellsOf.mp hc'
  exact List.inj_on_of_nodup_map h hc hc' (by rw [hitem, hitem', hcolumn])

/-- So every cell is found. -/
theorem CellsApart.cell?_of_mem (h : o.CellsApart) (hc : c ∈ o.cellsOf itemId) :
    o.cell? itemId c.columnId = some c := by
  obtain ⟨hmem, hitem⟩ := mem_cellsOf.mp hc
  have hthere : (o.cell? itemId c.columnId).isSome :=
    List.find?_isSome.mpr ⟨c, hmem, by simp [hitem]⟩
  obtain ⟨found, hfound⟩ := Option.isSome_iff_exists.mp hthere
  obtain ⟨hfound_mem, hcolumn⟩ := of_cell? hfound
  rw [hfound, h.eq hfound_mem hc hcolumn]

theorem CellsApart.value?_of_mem (h : o.CellsApart) (hc : c ∈ o.cellsOf itemId) :
    o.value? itemId c.columnId = some c.value := by
  rw [value?, h.cell?_of_mem hc]
  rfl

theorem exists_of_value? (h : o.value? itemId columnId = some v) :
    ∃ c ∈ o.cellsOf itemId, c.columnId = columnId ∧ c.value = v := by
  obtain ⟨c, hc, hvalue⟩ := Option.map_eq_some_iff.mp h
  obtain ⟨hmem, hcolumn⟩ := of_cell? hc
  exact ⟨c, hmem, hcolumn, hvalue⟩

/-! ## Writing -/

/-- No other table is written. -/
theorem withCell_eq (o : Office) (itemId columnId : Int) (value : Value) :
    o.withCell itemId columnId value =
      { o with cells := (o.withCell itemId columnId value).cells } := by
  unfold withCell
  split <;> rfl

/-- The cell has what is kept of the value, or an equal one that it had before, and every other cell is
    the same. -/
theorem value?_withCell (hkeys : o.cells.KeysDistinct) (i k : Int) :
    (o.withCell itemId columnId value).value? i k =
      if i = itemId ∧ k = columnId then some (JsonColumn.keptOver value (o.value? itemId columnId))
      else o.value? i k := by
  unfold withCell
  split
  · next cell hcell =>
    obtain ⟨hmem, hcolumn⟩ := of_cell? hcell
    obtain ⟨hmem, hitem⟩ := mem_cellsOf.mp hmem
    -- The place of a row stays the same, so the same row is found.
    have hfind : (o.cells.modify cell.id fun row =>
          { row with value := JsonColumn.write row.value value }).rows.find?
            (fun c => c.itemId == i && c.columnId == k) =
        (o.cell? i k).map fun row =>
          if row.id == cell.id then { row with value := JsonColumn.write row.value value } else row :=
      Table.find?_modify _ fun _ _ => rfl
    unfold value?
    rw [cell?, hfind, Option.map_map]
    split
    · next hplace =>
      obtain ⟨rfl, rfl⟩ := hplace
      rw [hcell, Option.map_some, Option.map_some, Function.comp_apply, if_pos (beq_self_eq_true _)]
      rfl
    · next hplace =>
      apply Option.map_congr
      intro row hrow
      obtain ⟨hrow_mem, hrow_column⟩ := of_cell? hrow
      obtain ⟨hrow_mem, hrow_item⟩ := mem_cellsOf.mp hrow_mem
      rw [Function.comp_apply, if_neg]
      intro hsame
      have hrow_eq := hkeys.eq_of_key_eq hrow_mem hmem (beq_iff_eq.mp hsame)
      subst hrow_eq
      exact hplace ⟨hrow_item.symm.trans hitem, hrow_column.symm.trans hcolumn⟩
  · next hnone =>
    unfold value? cell?
    rw [Table.rows_add, List.find?_append]
    split
    · next hplace =>
      obtain ⟨rfl, rfl⟩ := hplace
      unfold cell? at hnone
      simp [hnone, JsonColumn.keptOver]
    · next hplace =>
      have hother : (itemId == i && columnId == k) = false := by
        rw [Bool.and_eq_false_imp]
        intro hi
        exact beq_false_of_ne fun hk => hplace ⟨(beq_iff_eq.mp hi).symm, hk.symm⟩
      simp [hother]

theorem keysDistinct_withCell (hkeys : o.cells.KeysDistinct) :
    (o.withCell itemId columnId value).cells.KeysDistinct := by
  unfold withCell
  split
  · exact hkeys.modify _ fun _ hkey => hkey
  · exact hkeys.add rfl

/-- No second cell is made in a column. -/
theorem CellsApart.withCell (h : o.CellsApart) (itemId columnId : Int) (value : Value) :
    (o.withCell itemId columnId value).CellsApart := by
  unfold Office.withCell
  split
  · unfold CellsApart
    rw [Table.map_modify]
    · exact h
    · exact fun _ => rfl
  · next hnone =>
    unfold CellsApart
    rw [Table.rows_add, List.map_append, List.map_singleton, List.nodup_append_comm]
    refine List.nodup_cons.mpr ⟨fun hmem => ?_, h⟩
    obtain ⟨row, hrow, hplace⟩ := List.mem_map.mp hmem
    obtain ⟨hitem, hcolumn⟩ := Prod.mk.inj hplace
    exact List.find?_eq_none.mp hnone row hrow (by simp [hitem, hcolumn])

/-- What allows one cell of the item to be put allows its cells to be written, -/
theorem keeps_writeCell_of_withCell {R : Office → Office → Prop} [Std.Refl R] [IsTrans Office R]
    (h : ∀ o columnId value, R o (o.withCell itemId columnId value)) (column value : Value) :
    Keeps R (writeCell itemId column value) := by
  refine (reads_columnKey column).keeps.bind fun key => ?_
  refine (reads_findItem itemId true).keeps.bind fun item => (Keeps.ofResult _).bind fun _ => ?_
  refine Keeps.get_bind fun o => ?_
  have hput := h o key value
  unfold withCell at hput
  split
  · exact Std.Refl.refl o
  · exact Std.Refl.refl o
  · split
    · exact Std.Refl.refl o
    · cases hcell : o.cell? itemId key with
      | some cell =>
        rw [hcell] at hput
        exact hput
      | none =>
        rw [hcell] at hput
        exact hput

/-- and what allows cells of the item to be removed allows them to be cleared. -/
theorem keeps_deleteCells_of_erase {R : Office → Office → Prop} [Std.Refl R] [IsTrans Office R]
    (h : ∀ o test, (∀ c, test c = true → c.itemId = itemId) →
      R o { o with cells := o.cells.eraseWhere test }) (column : Value) :
    Keeps R (deleteCells itemId column) := by
  refine (reads_columnKey column).keeps.bind fun key => (Keeps.ofResult _).bind fun _ => ?_
  refine (Keeps.ofResult _).bind fun _ => Keeps.get_set (fun o => h o _ ?_) fun _ => .pure _
  intro c hc
  exact beq_iff_eq.mp (Bool.and_eq_true_iff.mp hc).1

theorem key?_of_columnKey (h : (columnKey column).answer o = .ok key) :
    column.key? = .ok (some key) := by
  unfold columnKey at h
  rw [Reads.answer_bind (.ofResult _), Task.answer_ofResult] at h
  obtain ⟨n, hn, h⟩ := Result.bind_eq_ok h
  cases n with
  | none => cases h
  | some n =>
    cases h
    exact hn

/-- A write that returns has found the item, and the column on its board. -/
theorem withCell_of_writeCell {u : Unit} (h : (writeCell itemId column value).exec o = (.ok u, o')) :
    ∃ key item c, column.key? = .ok (some key) ∧ o.items.get? itemId = some item ∧
      o.columns.get? key = some c ∧ c.boardId = item.boardId ∧ o' = o.withCell itemId key value := by
  unfold writeCell at h
  obtain ⟨key, hkey, h⟩ := (reads_columnKey column).bind_eq_ok h
  obtain ⟨item?, hitem?, h⟩ := (reads_findItem itemId true).bind_eq_ok h
  obtain ⟨_, -, h⟩ := Reads.bind_eq_ok (.ofResult _) h
  rw [Task.exec_get_bind] at h
  cases item? with
  | none => cases h
  | some item =>
    have hitem : o.items.get? itemId = some item := by
      rw [answer_findItem] at hitem?
      cases hchecked : checkKey itemId with
      | error fault =>
        rw [hchecked] at hitem?
        cases hitem?
      | ok _ =>
        rw [hchecked] at hitem?
        exact (Option.filter_eq_some_iff.mp (Except.ok.inj hitem?)).1
    cases hcolumn : o.columns.get? key with
    | none =>
      rw [hcolumn] at h
      cases h
    | some c =>
      simp only [hcolumn] at h
      split at h
      · cases h
      · next hboard =>
        refine ⟨key, item, c, key?_of_columnKey hkey, hitem, hcolumn, by simpa using hboard, ?_⟩
        unfold withCell
        cases hcell : o.cell? itemId key with
        | some cell =>
          rw [hcell] at h
          exact (Prod.mk.inj h).2.symm
        | none =>
          rw [hcell] at h
          exact (Prod.mk.inj h).2.symm

end Signoff.Office
