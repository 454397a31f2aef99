import Signoff.Proofs.Item.Snapshot
import Signoff.Proofs.Keyed

/-! # Changes of items that are told

    A member edits an item, changes its status or moves it, and a listener notes
    down what it is told:

    * `ItemChange.Call`: a call of this kind.
    * `Call.Fulfilled`: the item is as the call asks for.
    * `Office.Differs`: something about the item is not as before.
    * `edit_cases`, `changeStatus_cases`, `move_cases`: what a call can do.
    * `told_of_differs`: where the names in the snapshots do not meet, a call does
      what it is asked for, and is told once if the item differs.
-/

open Signoff.Task (Keeps Reads)

namespace Signoff

namespace ItemChange

/-- A call that changes an item, with its arguments. -/
inductive Call where
  | edit (name : Value) (cells : Cells)
  | changeStatus (status : Value)
  | move (board : Value)

namespace Call

/-- Performs the call. -/
def perform (listener : Listener) (itemId : Int) (actor : Option String) : Call → OfficeTask Item
  | edit name cells => ItemChange.edit listener itemId actor name cells
  | changeStatus status => ItemChange.changeStatus listener itemId actor status
  | move board => ItemChange.move listener itemId actor board

/-- The kind of the event that it tells. -/
def kind : Call → EventKind
  | edit .. => .itemUpdated
  | changeStatus _ => .statusChanged
  | move _ => .itemMoved

end Call

/-! ## Writing cells -/

/-- The last value that the cells have for a column. -/
def valueFor : Cells → Int → Option Value
  | [], _ => none
  | (column, value) :: rest, columnId =>
    (valueFor rest columnId).or (match column.key? with
      | .ok (some key) => if key = columnId then some value else none
      | _ => none)

/-- What the column keeps of the value that was asked for is there, or a value equal to the one that was
    asked for; nothing has changed if nothing was asked for. -/
def Answers (before after : Option Value) : Option Value → Prop
  | some v => ∃ w, after = some w ∧ (w = JsonColumn.keep v ∨ v.looseEq w = true)
  | none => after = before

/-- The cells of an item were written, and nothing else. -/
structure CellsWritten (itemId : Int) (cells : Cells) (o o' : Office) : Prop where
  rest : o' = { o with cells := o'.cells }
  keys : o'.cells.KeysDistinct
  apart : o'.CellsApart
  answers : ∀ k, Answers (o.value? itemId k) (o'.value? itemId k) (valueFor cells k)

variable {o o' : Office} {itemId : Int} {actor : Option String} {cells : Cells} {name : Value}
  {item answer : Item}

/-- Cells that are written one after another have the last values that they were given. -/
theorem cellsWritten_of_writeCells {u : PUnit} (hkeys : o.cells.KeysDistinct) (happart : o.CellsApart)
    (h : (writeCells itemId cells).exec o = (.ok u, o')) : CellsWritten itemId cells o o' := by
  induction cells generalizing o with
  | nil =>
    cases h
    exact ⟨rfl, hkeys, happart, fun _ => rfl⟩
  | cons cell rest ih =>
    obtain ⟨column, value⟩ := cell
    unfold writeCells at h
    rw [Task.exec_forM_cons] at h
    obtain ⟨_, o₁, hfirst, h⟩ := Task.bind_eq_ok h
    obtain ⟨key, -, -, hkey, -, -, -, rfl⟩ := Office.withCell_of_writeCell hfirst
    have hrest := ih (Office.keysDistinct_withCell hkeys) (happart.withCell ..) h
    refine ⟨?_, hrest.keys, hrest.apart, fun k => ?_⟩
    · rw [hrest.rest, Office.withCell_eq]
    · have hanswers := hrest.answers k
      rw [Office.value?_withCell hkeys] at hanswers
      unfold valueFor
      rw [hkey]
      cases hlater : valueFor rest k with
      | some v =>
        rw [hlater] at hanswers
        exact hanswers
      | none =>
        rw [hlater] at hanswers
        -- Nothing is written into the column later.
        by_cases hsame : k = key
        · subst hsame
          simp only [true_and, if_true] at hanswers
          have hover := JsonColumn.keptOver_eq_or value (o.value? itemId k)
          simp only [Option.none_or, if_true]
          exact ⟨_, hanswers, hover.imp id And.right⟩
        · have hother : ¬(itemId = itemId ∧ k = key) := fun hboth => hsame hboth.2
          rw [if_neg hother] at hanswers
          simp only [Option.none_or, if_neg (Ne.symm hsame)]
          exact hanswers

/-! ## What a call can do -/

/-- The name that an item has after a call asked for another one. -/
def NameAsked (name : Value) (old new : String) : Prop :=
  if name.isNull then new = old else TextColumn.keep 1 name = .ok (some new)

/-- The office with another row for the item. -/
structure RowChanged (item row : Item) (o o' : Office) : Prop where
  rest : o' = { o with items := o'.items }
  found : o'.items.get? item.id = some row

/-- The office with one event more that was heard. -/
def HeardOf (kind : EventKind) (itemId : Int) (o o' : Office) : Prop :=
  ∃ event : Event, o' = { o with heard := ⟨event, none⟩ :: o.heard } ∧ event.kind = kind ∧
    event.itemId = itemId

theorem rowChanged_of_changeItem {f : Item → Item} {row : Item} (hid : ∀ i, (f i).id = i.id)
    (hitem : o.items.get? item.id = some item)
    (h : (Office.changeItem item f).exec o = (.ok row, o')) : row = f item ∧ RowChanged item row o o' := by
  cases h
  refine ⟨rfl, rfl, ?_⟩
  rw [Table.get?_modify (fun i hkey => (hid i).trans hkey) hitem]
  exact congrArg some (if_pos (beq_self_eq_true _))

/-- An item that is renamed has the name that was asked for. -/
theorem rowChanged_of_renameItem {row : Item} (hitem : o.items.get? item.id = some item)
    (h : (Office.renameItem item name).exec o = (.ok row, o')) :
    ∃ n, TextColumn.keep 1 name = .ok (some n) ∧ row = { item with name := n } ∧
      RowChanged item row o o' := by
  unfold Office.renameItem at h
  obtain ⟨name?, hkept, h'⟩ := Reads.bind_eq_ok (.ofResult _) h
  rw [Task.answer_ofResult] at hkept
  clear h
  cases name? with
  | none => cases h'
  | some n =>
    exact ⟨n, hkept, rowChanged_of_changeItem (f := fun i => { i with name := n }) (fun _ => rfl) hitem h'⟩

theorem get?_of_readable (h : (readable itemId actor).answer o = .ok item) :
    o.items.get? item.id = some item ∧ item.id = itemId := by
  unfold readable at h
  rw [(Office.reads_requireItem itemId false).answer_bind] at h
  obtain ⟨found, hfound, h⟩ := Result.bind_eq_ok h
  rw [(Office.reads_demand actor _ _).answer_bind] at h
  obtain ⟨_, -, h⟩ := Result.bind_eq_ok h
  cases h
  have hid := Office.id_of_requireItem hfound
  exact ⟨hid ▸ (Office.get?_of_requireItem hfound).1, hid⟩

theorem heardOf_of_tell {event : Event} {row : Item}
    (h : (Listener.tell .recorder event >>= fun _ => current row).exec o = (.ok answer, o')) :
    HeardOf event.kind event.itemId o o' := by
  obtain ⟨_, o₁, htold, h⟩ := Task.bind_eq_ok h
  rw [(reads_current row).exec_eq] at h
  obtain rfl := (Prod.mk.inj h).2
  cases htold
  exact ⟨event, rfl, rfl, rfl⟩

/-- An edit writes cells behind the name, and is told if the snapshots differ. -/
theorem edited_cases {row : Item} {before : Snapshot}
    (h : (do
      writeCells row.id cells
      let after ← Office.snapshot row
      let changed := changedFields before after
      if changed.isEmpty then pure row
      else
        Listener.tell .recorder
          { itemId := row.id
            boardId := row.boardId
            user := actor
            kind := .itemUpdated
            before := some before
            after := some after
            changed := changed }
        current row).exec o = (.ok answer, o')) :
    ∃ o₁, (∃ u, (writeCells row.id cells).exec o = (.ok u, o₁)) ∧
      (changedFields before (o₁.snapshotOf row) = [] ∧ o' = o₁ ∨
        changedFields before (o₁.snapshotOf row) ≠ [] ∧ HeardOf .itemUpdated row.id o₁ o') := by
  obtain ⟨u, o₁, hcells, h⟩ := Task.bind_eq_ok h
  obtain ⟨after, hafter, h⟩ := (Office.reads_snapshot row).bind_eq_ok h
  obtain rfl : o₁.snapshotOf row = after := Except.ok.inj hafter
  refine ⟨o₁, ⟨u, hcells⟩, ?_⟩
  simp only at h
  split at h
  · next hsame =>
    cases h
    exact .inl ⟨List.isEmpty_iff.mp hsame, rfl⟩
  · next hother =>
    exact .inr ⟨fun hsame => hother (List.isEmpty_iff.mpr hsame), heardOf_of_tell h⟩

/-- An edit renames the item, writes its cells, and is told if the snapshots differ. -/
theorem edit_cases (h : (edit .recorder itemId actor name cells).exec o = (.ok answer, o')) :
    ∃ item n o₁ o₂, item.id = itemId ∧ o.items.get? item.id = some item ∧
      NameAsked name item.name n ∧ RowChanged item { item with name := n } o o₁ ∧
      (∃ u, (writeCells item.id cells).exec o₁ = (.ok u, o₂)) ∧
      (changedFields (o.snapshotOf item) (o₂.snapshotOf { item with name := n }) = [] ∧ o' = o₂ ∨
        changedFields (o.snapshotOf item) (o₂.snapshotOf { item with name := n }) ≠ [] ∧
          HeardOf .itemUpdated item.id o₂ o') := by
  unfold edit at h
  obtain ⟨item, hitem, h⟩ := (reads_readable itemId actor).bind_eq_ok h
  obtain ⟨hfound, hid⟩ := get?_of_readable hitem
  obtain ⟨_, -, h⟩ := (reads_checkColumns _ cells).bind_eq_ok h
  obtain ⟨before, hbefore, h⟩ := (Office.reads_snapshot item).bind_eq_ok h
  obtain rfl : o.snapshotOf item = before := Except.ok.inj hbefore
  simp only at h
  split at h
  · next hkept =>
    have hname : NameAsked name item.name item.name := by
      unfold NameAsked
      split
      · rfl
      · next hgiven =>
        -- The name that is given is the one that the item has.
        rw [Bool.not_eq_true] at hgiven
        rw [hgiven, Bool.false_or] at hkept
        rw [Value.eq_text_of_looseEq hkept]
        rfl
    obtain ⟨o₂, hcells, htold⟩ := edited_cases h
    exact ⟨item, item.name, o, o₂, hid, hfound, hname, ⟨rfl, hfound⟩, hcells, htold⟩
  · next hchanged =>
    obtain ⟨row, o₁, hrow, h⟩ := Task.bind_eq_ok h
    obtain ⟨n, hn, rfl, hrow⟩ := rowChanged_of_renameItem hfound hrow
    have hname : NameAsked name item.name n := by
      unfold NameAsked
      rw [if_neg]
      · exact hn
      · exact fun hnull => hchanged (by rw [hnull]; rfl)
    obtain ⟨o₂, hcells, htold⟩ := edited_cases h
    exact ⟨item, n, o₁, o₂, hid, hfound, hname, hrow, hcells, htold⟩

/-- The status of an item is changed and told, unless the snapshot shows that it is the same. -/
theorem changeStatus_cases {status : Value}
    (h : (changeStatus .recorder itemId actor status).exec o = (.ok answer, o')) :
    ∃ item, item.id = itemId ∧ o.items.get? item.id = some item ∧
      ((Fields.get (o.snapshotOf item) "status").looseEq status = true ∧ o' = o ∨
        (Fields.get (o.snapshotOf item) "status").looseEq status = false ∧
          ∃ status? o₁, TextColumn.keep 1 status = .ok status? ∧
            RowChanged item { item with status := status? } o o₁ ∧
            HeardOf .statusChanged item.id o₁ o') := by
  unfold changeStatus at h
  obtain ⟨item, hitem, h⟩ := (reads_readable itemId actor).bind_eq_ok h
  obtain ⟨hfound, hid⟩ := get?_of_readable hitem
  obtain ⟨before, hbefore, h⟩ := (Office.reads_snapshot item).bind_eq_ok h
  obtain rfl : o.snapshotOf item = before := Except.ok.inj hbefore
  refine ⟨item, hid, hfound, ?_⟩
  split at h
  · next hsame =>
    cases h
    exact .inl ⟨hsame, rfl⟩
  · next hother =>
    refine .inr ⟨Bool.not_eq_true _ ▸ hother, ?_⟩
    unfold Office.setStatus at h
    rw [bind_assoc] at h
    obtain ⟨status?, hkept, h⟩ := Reads.bind_eq_ok (.ofResult _) h
    rw [Task.answer_ofResult] at hkept
    obtain ⟨row, o₁, hrow, h⟩ := Task.bind_eq_ok h
    obtain ⟨rfl, hrow⟩ :=
      rowChanged_of_changeItem (f := fun i => { i with status := status? }) (fun _ => rfl) hfound hrow
    obtain ⟨after, -, h⟩ := (Office.reads_snapshot _).bind_eq_ok h
    exact ⟨status?, o₁, hkept, hrow, heardOf_of_tell h⟩

/-- An item is put on another board and told, unless it lies there. -/
theorem move_cases {board : Value} (h : (move .recorder itemId actor board).exec o = (.ok answer, o')) :
    ∃ item boardId, item.id = itemId ∧ o.items.get? item.id = some item ∧
      board.key? = .ok (some boardId) ∧
      (item.boardId = boardId ∧ o' = o ∨
        item.boardId ≠ boardId ∧ ∃ o₁, RowChanged item { item with boardId } o o₁ ∧
          HeardOf .itemMoved item.id o₁ o') := by
  unfold move at h
  obtain ⟨item, hitem, h⟩ := (reads_readable itemId actor).bind_eq_ok h
  obtain ⟨hfound, hid⟩ := get?_of_readable hitem
  obtain ⟨target, htarget, h⟩ := (Office.reads_requireBoard board).bind_eq_ok h
  obtain ⟨n, hn, hboard⟩ := Office.get?_of_requireBoard htarget
  obtain rfl : target.id = n := (Table.mem_of_get? hboard).2
  obtain ⟨_, -, h⟩ := (Office.reads_demand actor _ _).bind_eq_ok h
  refine ⟨item, target.id, hid, hfound, hn, ?_⟩
  split at h
  · next hsame =>
    cases h
    exact .inl ⟨beq_iff_eq.mp hsame, rfl⟩
  · next hother =>
    refine .inr ⟨fun hsame => hother (beq_iff_eq.mpr hsame), ?_⟩
    obtain ⟨before, -, h⟩ := (Office.reads_snapshot item).bind_eq_ok h
    obtain ⟨row, o₁, hrow, h⟩ := Task.bind_eq_ok h
    obtain ⟨rfl, hrow⟩ :=
      rowChanged_of_changeItem (f := fun i => { i with boardId := target.id }) (fun _ => rfl) hfound hrow
    obtain ⟨after, -, h⟩ := (Office.reads_snapshot _).bind_eq_ok h
    exact ⟨o₁, hrow, heardOf_of_tell h⟩

end ItemChange

/-! ## What has changed -/

namespace Office

/-- The name, the status, the board or the value in a column is another one than before. A column
    without a cell has the value null. -/
def Differs (o o' : Office) (item item' : Item) : Prop :=
  item'.name ≠ item.name ∨ item'.status ≠ item.status ∨ item'.boardId ≠ item.boardId ∨
    ∃ k, (o.valueAt item.id k).looseEq (o'.valueAt item.id k) = false

end Office

namespace ItemChange

namespace Call

/-- The item is as the call asks for, and else as it was. -/
def Fulfilled (o o' : Office) (item item' : Item) : Call → Prop
  | edit name cells => ∃ n, item' = { item with name := n } ∧ NameAsked name item.name n ∧
      ∀ k, Answers (o.value? item.id k) (o'.value? item.id k) (valueFor cells k)
  | changeStatus status => ∃ status?, TextColumn.keep 1 status = .ok status? ∧
      item' = { item with status := status? } ∧ o'.cells = o.cells
  | move board => ∃ boardId, board.key? = .ok (some boardId) ∧ item' = { item with boardId } ∧
      o'.cells = o.cells

/-- The names in the snapshots that the call compares do not meet: for an edit all of them, for a change
    of the status none is that of the status, which is a text or null. -/
def Clear (o : Office) (itemId : Int) : Call → Prop
  | edit _ _ => o.Legible itemId
  | changeStatus status => (∃ status?, status = .ofText? status?) ∧
      ∀ c ∈ o.cellsOf itemId, "status" ∉ o.namesOf c
  | move _ => True

end Call

variable {o o' : Office} {itemId : Int} {actor : Option String} {answer : Item} {call : Call}

/-- One event is heard if the item differs, and none otherwise. -/
def HeardIfDiffers (o o' : Office) (kind : EventKind) (item item' : Item) : Prop :=
  o.Differs o' item item' ∧ (∃ event : Event, o'.heard = ⟨event, none⟩ :: o.heard ∧ event.kind = kind ∧
      event.itemId = item.id) ∨
    ¬ o.Differs o' item item' ∧ o'.heard = o.heard

/-- An edit that has written its cells has kept them. -/
theorem grown_of_written {o₁ o₂ : Office} {item row : Item} {cells : Cells} (happart : o.CellsApart)
    (hrow : RowChanged item row o o₁) (hwritten : CellsWritten item.id cells o₁ o₂)
    (hlegible : o₂.Legible item.id) : o.Grown o₂ item.id where
  columns := by rw [hwritten.rest, hrow.rest]
  apart := happart
  apart' := hwritten.apart
  legible := hlegible
  kept k v hv := by
    have hanswers := hwritten.answers k
    rw [hrow.rest] at hanswers
    cases hasked : valueFor cells k with
    | some v' =>
      rw [hasked] at hanswers
      exact ⟨_, hanswers.choose_spec.1⟩
    | none =>
      rw [hasked] at hanswers
      exact ⟨v, hanswers.trans hv⟩

/-- An edit shows in the snapshots if and only if the item differs. -/
theorem differs_iff_of_grown {item item' : Item} (h : o.Grown o' item.id) (hid : item'.id = item.id)
    (hstatus : item'.status = item.status) (hboard : item'.boardId = item.boardId) :
    o.Differs o' item item' ↔ changedFields (o.snapshotOf item) (o'.snapshotOf item') ≠ [] := by
  rw [Ne, h.changedFields_eq_nil_iff hid hstatus, not_and_or, not_forall]
  simp only [Bool.not_eq_true]
  constructor
  · rintro (hname | hother | hother | hcell)
    · exact .inl hname
    · exact absurd hstatus hother
    · exact absurd hboard hother
    · exact .inr hcell
  · exact Or.imp id fun hcell => .inr (.inr hcell)

theorem told_edit (hkeyed : o.Keyed) (happart : o.CellsApart) {name : Value} {cells : Cells}
    (h : (edit .recorder itemId actor name cells).exec o = (.ok answer, o'))
    (hlegible : o'.Legible itemId) :
    ∃ item item', o.items.get? itemId = some item ∧ o'.items.get? itemId = some item' ∧
      (Call.edit name cells).Fulfilled o o' item item' ∧
      HeardIfDiffers o o' .itemUpdated item item' := by
  obtain ⟨item, n, o₁, o₂, rfl, hfound, hname, hrow, ⟨u, hcells⟩, htold⟩ := edit_cases h
  have hwritten : CellsWritten item.id cells o₁ o₂ := by
    refine cellsWritten_of_writeCells ?_ ?_ hcells
    · rw [hrow.rest]
      exact hkeyed.cells
    · rw [hrow.rest]
      exact happart
  have hfound' : o₂.items.get? item.id = some { item with name := n } := by
    rw [hwritten.rest]
    exact hrow.found
  have hanswers (k : Int) :
      Answers (o.value? item.id k) (o₂.value? item.id k) (valueFor cells k) := by
    have hk := hwritten.answers k
    rwa [hrow.rest] at hk
  have hheard : o₂.heard = o.heard := by rw [hwritten.rest, hrow.rest]
  -- The snapshots that the call compares are those of the item before and after, so they differ with it.
  have hiff (hgrown : o.Grown o₂ item.id) : o.Differs o₂ item { item with name := n } ↔
      changedFields (o.snapshotOf item) (o₂.snapshotOf { item with name := n }) ≠ [] :=
    differs_iff_of_grown hgrown rfl rfl rfl
  rcases htold with ⟨hsame, rfl⟩ | ⟨hother, event, rfl, hkind, hid⟩
  · have hgrown := grown_of_written happart hrow hwritten hlegible
    refine ⟨item, _, hfound, hfound', ⟨n, rfl, hname, hanswers⟩, .inr ⟨?_, hheard⟩⟩
    exact fun hdiffers => (hiff hgrown).mp hdiffers hsame
  · have hgrown := grown_of_written happart hrow hwritten hlegible
    refine ⟨item, _, hfound, hfound', ⟨n, rfl, hname, hanswers⟩, .inl ⟨?_, event, ?_, hkind, hid⟩⟩
    · exact (hiff hgrown).mpr hother
    · rw [← hheard]

/-- An item with the same cells differs in its row. -/
theorem not_differs_of_cells {item : Item} (hvalues : ∀ c ∈ o.cellsOf item.id, c.value.looseEq c.value = true)
    (hcells : o'.cells = o.cells) : ¬ o.Differs o' item item := by
  rintro (hname | hstatus | hboard | ⟨k, hk⟩)
  · exact hname rfl
  · exact hstatus rfl
  · exact hboard rfl
  · have hvalue : o'.valueAt item.id k = o.valueAt item.id k := by
      unfold Office.valueAt Office.value? Office.cell?
      rw [hcells]
    rw [hvalue] at hk
    cases hv : o.value? item.id k with
    | none =>
      rw [Office.valueAt, hv] at hk
      cases hk
    | some v =>
      obtain ⟨c, hc, -, rfl⟩ := Office.exists_of_value? hv
      rw [Office.valueAt_of_value? hv, hvalues c hc] at hk
      cases hk

theorem told_changeStatus {status : Value}
    (h : (changeStatus .recorder itemId actor status).exec o = (.ok answer, o'))
    (hclear : (Call.changeStatus status).Clear o' itemId)
    (hvalues : ∀ c ∈ o.cellsOf itemId, c.value.looseEq c.value = true) :
    ∃ item item', o.items.get? itemId = some item ∧ o'.items.get? itemId = some item' ∧
      (Call.changeStatus status).Fulfilled o o' item item' ∧
      HeardIfDiffers o o' .statusChanged item item' := by
  obtain ⟨item, rfl, hfound, htold⟩ := changeStatus_cases h
  obtain ⟨⟨asked, rfl⟩, hfree⟩ := hclear
  have hkept (text? : Option String) : TextColumn.keep 1 (.ofText? text?) = .ok text? := by
    cases text? <;> rfl
  have hshown (hfree : ∀ c ∈ o.cellsOf item.id, "status" ∉ o.namesOf c) :
      Fields.get (o.snapshotOf item) "status" = .ofText? item.status := by
    rw [Fields.get, Office.get?_snapshotOf_of_free hfree]
    rfl
  rcases htold with ⟨hsame, rfl⟩ | ⟨hother, status?, o₁, hstatus, hrow, event, rfl, hkind, hid⟩
  · -- The status that is asked for is the one that the item has.
    rw [hshown hfree] at hsame
    have hasked := Value.eq_of_looseEq_ofText? hsame
    refine ⟨item, item, hfound, hfound, ⟨item.status, ?_, rfl, rfl⟩, .inr ⟨?_, rfl⟩⟩
    · rw [hasked]
      exact hkept item.status
    · exact not_differs_of_cells hvalues rfl
  · obtain rfl : asked = status? := Except.ok.inj ((hkept asked).symm.trans hstatus)
    -- It is another one, or the snapshot would have shown it and the call have returned.
    have hchanged : asked ≠ item.status := by
      rintro rfl
      rw [hrow.rest] at hfree
      rw [hshown hfree, Value.looseEq_ofText?_self] at hother
      cases hother
    refine ⟨item, _, hfound, hrow.found, ⟨asked, hkept asked, rfl, ?_⟩,
      .inl ⟨.inr (.inl hchanged), event, ?_, hkind, hid⟩⟩
    · rw [hrow.rest]
    · rw [hrow.rest]

theorem told_move {board : Value} (h : (move .recorder itemId actor board).exec o = (.ok answer, o'))
    (hvalues : ∀ c ∈ o.cellsOf itemId, c.value.looseEq c.value = true) :
    ∃ item item', o.items.get? itemId = some item ∧ o'.items.get? itemId = some item' ∧
      (Call.move board).Fulfilled o o' item item' ∧ HeardIfDiffers o o' .itemMoved item item' := by
  obtain ⟨item, boardId, rfl, hfound, hboard, htold⟩ := move_cases h
  rcases htold with ⟨rfl, rfl⟩ | ⟨hother, o₁, hrow, event, rfl, hkind, hid⟩
  · refine ⟨item, item, hfound, hfound, ⟨_, hboard, rfl, rfl⟩, .inr ⟨?_, rfl⟩⟩
    exact not_differs_of_cells hvalues rfl
  · refine ⟨item, _, hfound, hrow.found, ⟨boardId, hboard, rfl, ?_⟩,
      .inl ⟨.inr (.inr (.inl (Ne.symm hother))), event, ?_, hkind, hid⟩⟩
    · rw [hrow.rest]
    · rw [hrow.rest]

/-- After any run, a call that returns has done what it was asked for, and its listener has heard of it
    once if the item differs, and else not at all. This takes it that the names in the snapshots that the
    call compares do not meet, and that every value of a cell equals itself. -/
theorem told_of_differs {s : Site} (hkeyed : s.Keyed) (happart : s.CellsApart) (ops : List Operation)
    (h : (call.perform .recorder itemId actor).exec (s.run ops).office = (.ok answer, o'))
    (hclear : call.Clear o' itemId)
    (hvalues : ∀ c ∈ (s.run ops).office.cellsOf itemId, c.value.looseEq c.value = true) :
    ∃ item item', (s.run ops).office.items.get? itemId = some item ∧
      o'.items.get? itemId = some item' ∧ call.Fulfilled (s.run ops).office o' item item' ∧
      HeardIfDiffers (s.run ops).office o' call.kind item item' := by
  cases call with
  | edit name cells =>
    exact told_edit (hkeyed.run ops).toKeyed (Site.cellsApart_run happart ops) h hclear
  | changeStatus status => exact told_changeStatus h hclear hvalues
  | move board => exact told_move h hvalues

/-- The small site with a column for the total. -/
def priced : Site := { Site.small with office.columns := ⟨[⟨1, 1, "Total", "number", 0⟩]⟩ }

/-- The item has got a total. -/
def pricing : List Operation :=
  [.office (.editItem .nobody 1 (some "A") .null [(.int 1, .int 3)])]

/-- It becomes a chair with another total. -/
def replacing : Call := .edit (.text "Chair") [(.int 1, .int 4)]

/-- The office behind it. -/
def replaced : Office := (replacing.perform .recorder 1 (some "A")).after (priced.run pricing).office

theorem cells_priced : (priced.run pricing).office.cells.rows = [⟨1, 1, 1, .int 3⟩] := by with_unfolding_all rfl

theorem cells_replaced : replaced.cells.rows = [⟨1, 1, 1, .int 4⟩] := by with_unfolding_all rfl

theorem columns_replaced : replaced.columns = priced.office.columns := by with_unfolding_all rfl

theorem told_of_differs_priced :
    ∃ item item', (priced.run pricing).office.items.get? 1 = some item ∧
      replaced.items.get? 1 = some item' ∧
      replacing.Fulfilled (priced.run pricing).office replaced item item' ∧
      HeardIfDiffers (priced.run pricing).office replaced replacing.kind item item' := by
  have hkeyed : priced.Keyed :=
    ⟨⟨List.nodup_singleton _, List.nodup_nil, List.nodup_nil, List.nodup_nil⟩, List.nodup_nil⟩
  have hanswer : (replacing.perform .recorder 1 (some "A")).answer (priced.run pricing).office =
      .ok { Item.small with name := "Chair" } := by with_unfolding_all rfl
  refine told_of_differs hkeyed List.nodup_nil pricing (Prod.ext hanswer rfl) ?_ ?_
  · -- There is one cell, and its column is not called like a field of the item.
    have honly : ∀ c ∈ replaced.cellsOf 1, c = ⟨1, 1, 1, .int 4⟩ := fun c hc =>
      List.mem_singleton.mp (cells_replaced ▸ (Office.mem_cellsOf.mp hc).1 : c ∈ [_])
    intro c hc column hfound
    rw [honly c hc, columns_replaced] at hfound
    cases hfound
    exact ⟨by decide, fun c' hc' _ => (honly c' hc').trans (honly c hc).symm⟩
  · intro c hc
    have honly := (Office.mem_cellsOf.mp hc).1
    rw [cells_priced, List.mem_singleton] at honly
    rw [honly]
    rfl

/-- A site whose item is a draft, and called done in a column for the status. -/
def mislabelled : Site where
  office :=
    { Site.small.office with
      columns := ⟨[⟨1, 1, "Status", "text", 0⟩]⟩
      items := ⟨[{ Item.small with status := some "Draft" }]⟩
      cells := ⟨[⟨1, 1, 1, .text "Done"⟩]⟩ }

theorem status_hidden : ((changeStatus .recorder 1 (some "A") (.text "Done")).exec mislabelled.office) =
    (.ok { Item.small with status := some "Draft" }, mislabelled.office) := by
  with_unfolding_all rfl

end ItemChange

end Signoff
