import Signoff.Proofs.Automation.Effects
import Signoff.Proofs.Item.Told
import Signoff.Proofs.Office.Tables
import Signoff.Proofs.Task.Refusals

/-! # Changes of items that are refused

    A change of an item looks up everything before it writes. Only the columns
    of cells are looked up twice, first by their texts on the board and then by
    their keys in the table, one after another between the writes:

    * `Office.Placed`: the item is there, and cells lie in columns of its board.
    * `placed_of_checkColumns`: the first look finds no others.
    * `unrefused_writeCells`: so the second one does not refuse any.
    * `ItemChange.spares_*`: a change that is refused leaves the office as it was.
    * `Office.Lasts`: no write takes an item away.
-/

open Signoff.Task (AtomicAt Keeps Reads Same SparesAt UnrefusedAt)

namespace Signoff

variable {o : Office}

/-! ## Cells -/

namespace Office

/-- The item is there, and each of the cells lies in a column of its board, named by its number. -/
def Placed (itemId : Int) (cells : ItemChange.Cells) (o : Office) : Prop :=
  ∃ item, o.items.get? itemId = some item ∧ ∀ cell ∈ cells,
    ∃ key c, cell.1 = .int key ∧ o.columns.get? key = some c ∧ c.boardId = item.boardId

variable {itemId key : Int} {item : Item} {c : Column} {cells : ItemChange.Cells}

theorem unrefused_findItem (key : Int) (archived : Bool) : UnrefusedAt o (findItem key archived) := by
  intro fault h
  rw [answer_findItem] at h
  cases hchecked : checkKey key with
  | ok _ =>
    rw [hchecked] at h
    cases h
  | error e =>
    rw [hchecked] at h
    cases h
    exact refusal?_of_checkKey hchecked

/-- A cell in a column of the board is not refused. -/
theorem unrefused_writeCell (hitem : o.items.get? itemId = some item)
    (hcolumn : o.columns.get? key = some c) (hboard : c.boardId = item.boardId) (value : Value) :
    UnrefusedAt o (writeCell itemId (.int key) value) := by
  unfold writeCell
  refine .reads_bind (reads_columnKey _) (.of_returns ⟨key, rfl⟩) fun k hk => ?_
  obtain rfl : key = k := Except.ok.inj hk
  refine .reads_bind (reads_findItem itemId true) (unrefused_findItem itemId true) fun found hfound => ?_
  refine .reads_bind (.ofResult _) (.ofResult fun _ => refusal?_of_checkKey) fun _ _ => ?_
  -- Behind the lookups everything is there.
  have hthere : found = some item := by
    rw [answer_findItem] at hfound
    cases hchecked : checkKey itemId with
    | error e =>
      rw [hchecked] at hfound
      cases hfound
    | ok _ =>
      rw [hchecked] at hfound
      change Except.ok ((o.items.get? itemId).filter _) = _ at hfound
      rw [hitem] at hfound
      exact (Except.ok.inj hfound).symm
  have hplace : (c.boardId != item.boardId) = false := by simp [hboard]
  refine .of_returns ?_
  rw [Task.answer_get_bind]
  subst hthere
  simp only [hcolumn, hplace]
  cases o.cell? itemId key with
  | some cell => exact ⟨_, rfl⟩
  | none => exact ⟨_, rfl⟩

/-- Writing a cell leaves items and columns alone. -/
theorem keeps_places (itemId : Int) (column value : Value) :
    Keeps (Same fun o : Office => (o.items, o.columns)) (writeCell itemId column value) :=
  keeps_writeCell_of_withCell (fun o columnId value => by
    show ((o.withCell itemId columnId value).items, (o.withCell itemId columnId value).columns) = _
    rw [withCell_eq]) column value

theorem Placed.congr {o' : Office} (h : Placed itemId cells o)
    (hsame : Same (fun o : Office => (o.items, o.columns)) o o') : Placed itemId cells o' := by
  obtain ⟨hitems, hcolumns⟩ := Prod.mk.inj hsame
  unfold Placed
  rw [hitems, hcolumns]
  exact h

/-- So none of such cells is refused, whichever were written before. -/
theorem unrefused_writeCells (h : Placed itemId cells o) :
    UnrefusedAt o (ItemChange.writeCells itemId cells) := by
  induction cells generalizing o with
  | nil => exact .of_returns ⟨_, rfl⟩
  | cons cell rest ih =>
    obtain ⟨item, hitem, hcells⟩ := h
    obtain ⟨key, c, hkey, hcolumn, hboard⟩ := hcells cell (List.mem_cons_self ..)
    have hrest : Placed itemId rest o :=
      ⟨item, hitem, fun other hother => hcells other (List.mem_cons_of_mem _ hother)⟩
    have hfirst : UnrefusedAt o (writeCell itemId cell.1 cell.2) := by
      rw [hkey]
      exact unrefused_writeCell hitem hcolumn hboard cell.2
    exact hfirst.bind fun _ _ => ih (hrest.congr (keeps_places itemId cell.1 cell.2 o))

end Office

namespace ItemChange

open Office

variable {boardId itemId : Int} {cells : Cells} {actor : Option String}

/-- The cells of a request are named by numbers. -/
def Numbered (cells : Cells) : Prop := ∀ cell ∈ cells, ∃ key, cell.1 = .int key

/-- Where all columns are found on a board, the cells can be placed on its items. -/
theorem placed_of_checkColumns (hkeys : o.columns.KeysDistinct) (hnumbered : Numbered cells)
    (h : (checkColumns boardId cells).answer o = .ok ()) {o' : Office} {item : Item}
    (hitem : o'.items.get? itemId = some item) (hboard : item.boardId = boardId)
    (hcolumns : o'.columns = o.columns) : Placed itemId cells o' := by
  refine ⟨item, hitem, fun cell hcell => ?_⟩
  obtain ⟨key, hkey⟩ := hnumbered cell hcell
  unfold checkColumns at h
  rw [Task.answer_get_bind] at h
  simp only at h
  split at h
  · cases h
  · next hnone =>
    have hknown := List.find?_eq_none.mp hnone cell hcell
    rw [Bool.not_eq_true, Bool.not_eq_false', List.contains_iff_mem] at hknown
    obtain ⟨c, hc, hname⟩ := List.mem_map.mp hknown
    rw [hkey] at hname
    obtain rfl : c.id = key := NumberText.intText_injective hname
    unfold columnsOf at hc
    rw [List.mem_mergeSort, List.mem_filter, beq_iff_eq] at hc
    refine ⟨c.id, c, hkey, ?_, hc.2.trans hboard.symm⟩
    rw [hcolumns]
    exact hkeys.get?_of_mem hc.1

/-! ## Changes -/

variable {listener : Listener}

/-- Telling is the end of every change, and returns. -/
theorem returns_told (event : Event) (item : Item) :
    Task.Returns (do listener.tell event; current item) :=
  (listener.returns_tell event).bind fun _ => Task.Returns.get.bind fun _ => .pure _

/-- A new item with cells is refused before it is made, -/
theorem spares_create (hkeys : o.columns.KeysDistinct) (hnumbered : Numbered cells)
    (board name status : Value) :
    SparesAt Result.Refused id o (create listener board actor name status cells) := by
  refine .reads_bind (reads_requireBoard board) fun b _ => ?_
  refine .reads_bind (reads_demand actor _ _) fun _ _ => ?_
  refine .ite (.reads_bind (.throw _) fun _ h => nomatch h) ?_
  refine .reads_bind (reads_checkColumns b.id cells) fun _ hchecked => ?_
  refine SparesAt.bind (.of_atomicAt (atomicAt_createItem _ _ _ _)) fun item hmade => ?_
  rcases createItem_cases o b.id (.text (Text.trim name.display)) status (actor.getD "") with
    ⟨fault, hexec⟩ | ⟨made, hid, hboard, -, hexec⟩
  · rw [Task.answer, hexec] at hmade
    cases hmade
  · rw [Task.answer, hexec] at hmade
    cases hmade
    rw [Task.after, hexec]
    have hfound : (o.items.add fun _ => item).get? item.id = some item := by
      rw [hid]
      exact Table.get?_add_new o.items hid
    -- The new item lies on the board whose columns were looked at.
    have hplaced : Placed item.id cells { o with items := o.items.add fun _ => item } :=
      placed_of_checkColumns hkeys hnumbered hchecked hfound hboard rfl
    refine (unrefused_writeCells hplaced).bind fun _ _ => .of_returns ?_
    exact (Task.Returns.get.bind fun _ => .pure _).bind (fun _ => returns_told _ _) _

/-- and an edit before the name and the cells are written. -/
theorem spares_edit (hkeys : o.columns.KeysDistinct) (hnumbered : Numbered cells) (name : Value) :
    SparesAt Result.Refused id o (edit listener itemId actor name cells) := by
  refine .reads_bind (reads_readable itemId actor) fun item hreadable => ?_
  obtain ⟨hitem, -⟩ := get?_of_readable hreadable
  refine .reads_bind (reads_checkColumns item.boardId cells) fun _ hchecked => ?_
  refine .reads_bind (reads_snapshot item) fun before _ => ?_
  -- The item may be renamed first, or stay as it is.
  have hrest (row : Item) {o' : Office} (hfound : o'.items.get? row.id = some row)
      (hboard : row.boardId = item.boardId) (hcolumns : o'.columns = o.columns) :
      UnrefusedAt o' (do
        writeCells row.id cells
        let after ← Office.snapshot row
        let changed := changedFields before after
        if changed.isEmpty then pure row
        else
          listener.tell
            { itemId := row.id
              boardId := row.boardId
              user := actor
              kind := .itemUpdated
              before := some before
              after := some after
              changed := changed }
          current row) := by
    have hplaced := placed_of_checkColumns hkeys hnumbered hchecked hfound hboard hcolumns
    refine (unrefused_writeCells hplaced).bind fun _ _ => .of_returns ?_
    refine (Task.Returns.get.bind fun _ => .pure _).bind (fun _ => ?_) _
    exact .ite (.pure _) (returns_told _ _)
  refine .ite ?_ ?_
  · exact .reads_bind (.pure _) fun _ h => .of_unrefused (Except.ok.inj h ▸ hrest item hitem rfl rfl)
  · refine SparesAt.bind (.of_atomicAt ?_) fun row hrenamed => ?_
    · exact .reads_bind (.ofResult _) fun _ _ => .reads_bind (.ofResult _) fun _ _ =>
        atomicAt_changeItem item _
    · obtain ⟨n, -, rfl, hchanged⟩ := rowChanged_of_renameItem hitem (Prod.ext hrenamed rfl)
      have hcolumns := congrArg Office.columns hchanged.rest
      exact hrest _ hchanged.found rfl hcolumns

/-- The other changes write once, and do not fail behind it: a change of the status, -/
theorem spares_changeStatus (status : Value) :
    SparesAt Result.Refused id o (changeStatus listener itemId actor status) := by
  refine .reads_bind (reads_readable itemId actor) fun item _ => ?_
  refine .reads_bind (reads_snapshot item) fun before _ => .ite (.of_keeps (.pure _)) ?_
  refine SparesAt.bind (.of_atomicAt (atomicAt_setStatus item status)) fun row _ => .of_returns ?_
  exact (Task.Returns.get.bind fun _ => .pure _).bind (fun _ => returns_told _ _) _

/-- a removal -/
theorem spares_remove : SparesAt Result.Refused id o (remove listener itemId actor) := by
  refine .reads_bind (reads_readable itemId actor) fun item _ => ?_
  refine .reads_bind (reads_snapshot item) fun before _ => .of_unrefused (.of_returns ?_)
  exact (Task.Returns.get.bind fun _ => Task.Returns.bind (.modify _) fun _ => .pure _).bind
    (fun _ => returns_told _ _) o

/-- and a move. -/
theorem spares_move (board : Value) : SparesAt Result.Refused id o (move listener itemId actor board) := by
  refine .reads_bind (reads_readable itemId actor) fun item _ => ?_
  refine .reads_bind (reads_requireBoard board) fun target _ => ?_
  refine .reads_bind (reads_demand actor _ _) fun _ _ => .ite (.of_keeps (.pure _)) ?_
  refine .reads_bind (reads_snapshot item) fun before _ => .of_unrefused (.of_returns ?_)
  refine (Task.Returns.bind (.modify _) fun _ => .pure _).bind (fun moved => ?_) o
  exact (Task.Returns.get.bind fun _ => .pure _).bind fun _ => returns_told _ _

end ItemChange

/-! ## Items that are there -/

/-- Items stay, and the stored workflows are the same. -/
structure Office.Lasts (o o' : Office) : Prop where
  items (key : Int) (h : (o.items.get? key).isSome) : (o'.items.get? key).isSome
  workflows : o'.workflows = o.workflows

namespace Office

theorem Lasts.of_same {o' : Office} (hitems : o'.items = o.items)
    (hworkflows : o'.workflows = o.workflows) : o.Lasts o' where
  items _ h := hitems ▸ h
  workflows := hworkflows

instance : Std.Refl Lasts := ⟨fun _ => .of_same rfl rfl⟩

instance : IsTrans Office Lasts where
  trans _ _ _ h h' := ⟨fun key hkey => h'.items key (h.items key hkey), h'.workflows.trans h.workflows⟩

/-- No write in the office takes an item away, or is one of a workflow. -/
instance : Permissive Lasts where
  changed o key f hf := by
    refine ⟨fun k h => ?_, rfl⟩
    show ((o.items.modify key f).get? k).isSome
    rw [Table.get?_modify_eq_map o.items fun i hkey => (hf i).1.trans hkey, Option.isSome_map]
    exact h
  added o item hid := by
    refine ⟨fun k h => ?_, rfl⟩
    obtain ⟨row, hrow⟩ := Option.isSome_iff_exists.mp h
    exact Option.isSome_iff_exists.mpr ⟨row, Table.get?_add hrow⟩
  wrote itemId := keeps_writeCell_of_withCell fun o columnId value => by
    rw [withCell_eq]
    exact .of_same rfl rfl
  cleared itemId := keeps_deleteCells_of_erase fun _ _ _ => .of_same rfl rfl
  noticed _ _ _ := .of_same rfl rfl
  logged _ _ := .of_same rfl rfl
  called _ _ _ := .of_same rfl rfl
  written _ _ := .of_same rfl rfl
  saved _ _ _ := .of_same rfl rfl
  rewrote _ _ _ _ := .of_same rfl rfl
  erased _ _ _ := .of_same rfl rfl
  told _ _ := .of_same rfl rfl
  ticked _ _ := .of_same rfl rfl
  configured _ _ := .of_same rfl rfl

end Office

end Signoff
