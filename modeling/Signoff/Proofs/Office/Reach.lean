import Signoff.Proofs.Automation.Aiming

/-! # What is within reach

    A change of an item writes the rows of this item and of new ones, and so do
    the automations that are told about it. All of these items lie on boards that
    the change or an automation names. Everything else is out of reach:

    * `Reach`: items and boards. `Reach.Fits`: in the office, the items lie on the
      boards, and the automations of the boards name no others.
    * `Reach.Leaves`: what was out of reach is as it was.
    * `Reach.Bounds`: from an office that fits, what is out of reach is left
      alone. This is checked part by part.
    * `bounds_of_effect`, `bounds_react`: actions and automations are bounded.
    * `ItemChange.bounds_*`: so are the changes of items.
-/

open Signoff.Task (Keeps Reads)

namespace Signoff

/-! ## Reach -/

/-- Items that may be written, and boards that they and new items may lie on. -/
structure Reach where
  items : Int → Prop
  boards : Int → Prop

namespace Reach

variable {c : Reach} {o o' o'' : Office}

/-- The items lie on the boards, and the automations of the boards keep to them. -/
structure Fits (c : Reach) (o : Office) : Prop where
  itemKeys : o.items.KeysDistinct
  cellKeys : o.cells.KeysDistinct
  placed : ∀ i ∈ o.items.rows, c.items i.id → c.boards i.boardId
  aimed : ∀ a ∈ o.automations.rows, a.isActive = true → c.boards a.boardId →
    ∀ b, a.Aims b → c.boards b

/-- The item may be written, or there is none under the key yet. -/
def Covers (c : Reach) (o : Office) (key : Int) : Prop := c.items key ∨ o.items.get? key = none

theorem covers_nextKey (c : Reach) (o : Office) : c.Covers o o.items.nextKey :=
  .inr o.items.get?_nextKey

theorem not_covers_of_mem (hkeys : o.items.KeysDistinct) {i : Item} (hi : i ∈ o.items.rows)
    (h : ¬ c.items i.id) : ¬ c.Covers o i.id := by
  rintro (hitem | hnone)
  · exact h hitem
  · have hsome : o.items.get? i.id = some i := hkeys.get?_of_mem hi
    rw [hnone] at hsome
    cases hsome

/-- What is out of reach is as it was, and what is within is on the boards. -/
structure Leaves (c : Reach) (o o' : Office) : Prop where
  boards : o'.boards = o.boards
  automations : o'.automations = o.automations
  workflows : o'.workflows = o.workflows
  itemKeys : o'.items.KeysDistinct
  cellKeys : o'.cells.KeysDistinct
  items (i : Item) (h : ¬ c.Covers o i.id) : i ∈ o'.items.rows ↔ i ∈ o.items.rows
  placed : ∀ i ∈ o'.items.rows, c.Covers o i.id → c.boards i.boardId
  cells (cell : Cell) (h : ¬ c.Covers o cell.itemId) : cell ∈ o'.cells.rows ↔ cell ∈ o.cells.rows

/-- From an office that fits, what is out of reach is left as it is. -/
def Bounds (c : Reach) (o o' : Office) : Prop := c.Fits o → c.Leaves o o'

theorem Leaves.fits (h : c.Leaves o o') (hfits : c.Fits o) : c.Fits o' where
  itemKeys := h.itemKeys
  cellKeys := h.cellKeys
  placed i hi hitem := h.placed i hi (.inl hitem)
  aimed := by
    rw [h.automations]
    exact hfits.aimed

/-- An item out of reach is found as before. -/
theorem Leaves.get?_eq (h : c.Leaves o o') {key : Int} (hnot : ¬ c.Covers o key) :
    o'.items.get? key = o.items.get? key := by
  cases hget : o.items.get? key with
  | none => exact absurd (.inr hget) hnot
  | some i =>
    obtain ⟨hi, hkey⟩ := Table.mem_of_get? hget
    have hid : i.id = key := hkey
    rw [← hid] at hnot ⊢
    exact h.itemKeys.get?_of_mem ((h.items i hnot).mpr hi)

/-- What is new behind a step was within reach in front of it. -/
theorem Leaves.covers (h : c.Leaves o o') {key : Int} (hcovers : c.Covers o' key) :
    c.Covers o key := by
  by_contra hnot
  rcases hcovers with hitem | hnone
  · exact hnot (.inl hitem)
  · rw [h.get?_eq hnot] at hnone
    exact hnot (.inr hnone)

theorem Fits.leaves_refl (h : c.Fits o) : c.Leaves o o where
  boards := rfl
  automations := rfl
  workflows := rfl
  itemKeys := h.itemKeys
  cellKeys := h.cellKeys
  items _ _ := Iff.rfl
  placed i hi hcovers := by
    by_contra hboard
    exact not_covers_of_mem h.itemKeys hi (fun hitem => hboard (h.placed i hi hitem)) hcovers
  cells _ _ := Iff.rfl

theorem Leaves.trans (h : c.Leaves o o') (h' : c.Leaves o' o'') : c.Leaves o o'' where
  boards := h'.boards.trans h.boards
  automations := h'.automations.trans h.automations
  workflows := h'.workflows.trans h.workflows
  itemKeys := h'.itemKeys
  cellKeys := h'.cellKeys
  items i hnot := (h'.items i fun hcovers => hnot (h.covers hcovers)).trans (h.items i hnot)
  placed i hi hcovers := by
    by_cases hcovers' : c.Covers o' i.id
    · exact h'.placed i hi hcovers'
    · exact h.placed i ((h'.items i hcovers').mp hi) hcovers
  cells cell hnot :=
    (h'.cells cell fun hcovers => hnot (h.covers hcovers)).trans (h.cells cell hnot)

instance : Std.Refl c.Bounds := ⟨fun _ hfits => hfits.leaves_refl⟩

instance : IsTrans Office c.Bounds where
  trans := by
    intro o o' o'' h h' hfits
    exact (h hfits).trans (h' ((h hfits).fits hfits))

/-! ## Single writes -/

/-- Tables that hold no rows of a workspace do not matter. -/
theorem bounds_of_same (hboards : o'.boards = o.boards) (hautomations : o'.automations = o.automations)
    (hworkflows : o'.workflows = o.workflows) (hitems : o'.items = o.items)
    (hcells : o'.cells = o.cells) : c.Bounds o o' := by
  intro hfits
  have hleaves := hfits.leaves_refl
  constructor
  · exact hboards
  · exact hautomations
  · exact hworkflows
  · exact hitems ▸ hfits.itemKeys
  · exact hcells ▸ hfits.cellKeys
  · exact fun _ _ => by rw [hitems]
  · rw [hitems]
    exact hleaves.placed
  · exact fun _ _ => by rw [hcells]

/-- An item within reach is changed, and lies on a board within reach then. -/
theorem bounds_modify {key : Int} (hitem : c.items key) {f : Item → Item}
    (hid : ∀ i, (f i).id = i.id) (hboard : ∀ i, c.boards i.boardId → c.boards (f i).boardId) :
    c.Bounds o { o with items := o.items.modify key f } := by
  intro hfits
  have hkey : ∀ i : Item, Row.key i = key → Row.key (f i) = key := fun i hi => (hid i).trans hi
  have hleaves := hfits.leaves_refl
  constructor
  · rfl
  · rfl
  · rfl
  · exact hfits.itemKeys.modify key hkey
  · exact hfits.cellKeys
  · intro i hnot
    refine Table.mem_modify_of_ne hkey fun hsame => hnot (.inl ?_)
    have hid : i.id = key := hsame
    rwa [hid]
  · intro i hi hcovers
    obtain ⟨old, hold, hchanged⟩ := List.mem_map.mp hi
    split at hchanged
    · rw [← hchanged, hid] at hcovers
      rw [← hchanged]
      exact hboard old (hleaves.placed old hold hcovers)
    · rw [← hchanged] at hcovers ⊢
      exact hleaves.placed old hold hcovers
  · exact fun _ _ => Iff.rfl

/-- A new item is put on a board within reach. -/
theorem bounds_add {item : Item} (hid : item.id = o.items.nextKey) (hboard : c.boards item.boardId) :
    c.Bounds o { o with items := o.items.add fun _ => item } := by
  intro hfits
  have hleaves := hfits.leaves_refl
  constructor
  · rfl
  · rfl
  · rfl
  · exact hfits.itemKeys.add hid
  · exact hfits.cellKeys
  · intro i hnot
    rw [Table.rows_add, List.mem_append, List.mem_singleton]
    constructor
    · rintro (hi | rfl)
      · exact hi
      · rw [hid] at hnot
        exact absurd (c.covers_nextKey o) hnot
    · exact .inl
  · intro i hi hcovers
    rw [Table.rows_add, List.mem_append, List.mem_singleton] at hi
    rcases hi with hi | rfl
    · exact hleaves.placed i hi hcovers
    · exact hboard
  · exact fun _ _ => Iff.rfl

/-- Cells of an item within reach are written, also behind a step that has brought it within reach. -/
theorem Leaves.filled {key : Int} (h : c.Leaves o o') (hcovers : c.Covers o key)
    (hfilled : Office.Filled key o' o'') : c.Leaves o o'' := by
  obtain ⟨cells, rfl, hwritten⟩ := hfilled
  obtain ⟨hkeys, hothers⟩ := hwritten h.cellKeys
  constructor
  · exact h.boards
  · exact h.automations
  · exact h.workflows
  · exact h.itemKeys
  · exact hkeys
  · exact h.items
  · exact h.placed
  · intro cell hnot
    refine (hothers cell fun hsame => ?_).trans (h.cells cell hnot)
    rw [hsame] at hnot
    exact hnot hcovers

theorem bounds_of_filled {key : Int} (hitem : c.items key) (h : Office.Filled key o o') :
    c.Bounds o o' :=
  fun hfits => hfits.leaves_refl.filled (.inl hitem) h

theorem bounds_writeCell {itemId : Int} (hitem : c.items itemId) (column value : Value) :
    Keeps c.Bounds (Office.writeCell itemId column value) := fun o =>
  bounds_of_filled hitem (Office.filled_writeCell itemId column value o)

/-! ## Automations -/

section Automations

variable {event : Event}

/-- What an action does is bounded, if its item and the board that it names are within reach. -/
theorem bounds_of_effect {kind : ActionKind} {item : Item} {config : Value} (hitem : c.items item.id)
    (haims : kind = .createItem ∨ kind = .moveToBoard → ∀ b, Action.Targets config b → c.boards b)
    (h : Action.Effect kind item config o o') : c.Bounds o o' := by
  cases h with
  | none => exact Std.Refl.refl o
  | restated status => exact bounds_modify hitem (fun _ => rfl) fun _ hboard => hboard
  | filled hfilled => exact bounds_of_filled hitem hfilled
  | noticed new _ => exact bounds_of_same rfl rfl rfl rfl rfl
  | @created copy _ hkind hboard hid hcells =>
    intro hfits
    have hadded := bounds_add hid (haims (.inl hkind) _ hboard) hfits
    exact hadded.filled (hid ▸ c.covers_nextKey o) hcells
  | @moved boardId hkind hboard =>
    exact bounds_modify hitem (fun _ => rfl) fun _ _ => haims (.inr hkind) boardId hboard
  | called replies calls => exact bounds_of_same rfl rfl rfl rfl rfl

open Automations

theorem allows_bounds (hitem : c.items event.itemId) :
    Office.Allows c.Bounds event.itemId c.boards where
  effect hsame haims heffect := bounds_of_effect (hsame ▸ hitem) haims heffect
  logged _ _ := bounds_of_same rfl rfl rfl rfl rfl
  heard _ _ := bounds_of_same rfl rfl rfl rfl rfl

/-- So are the automations that are told about an item within reach, on a board within reach: they name
    no other board. -/
theorem bounds_react (hitem : c.items event.itemId) (hboard : c.boards event.boardId)
    (today : Option Date) : Keeps c.Bounds (react event today) := by
  intro o hfits
  refine rel_react (allows_bounds hitem) (fun a ha => ?_) today hfits
  obtain ⟨hstored, hsame, hactive⟩ := mem_activeOn.mp ha
  exact hfits.aimed a hstored hactive (hsame.symm ▸ hboard)

/-- So is every listener. -/
theorem bounds_tell (hitem : c.items event.itemId) (hboard : c.boards event.boardId)
    (listener : Listener) : Keeps c.Bounds (listener.tell event) := by
  cases listener with
  | automations => exact (bounds_react hitem hboard none).discard
  | recorder => exact .modify fun o => bounds_of_same rfl rfl rfl rfl rfl
  | nobody => exact .pure _
  | failing => exact .pure _

end Automations

/-! ## Changes of items -/

section Changes

open Office ItemChange

variable {itemId : Int} {actor : Option String}

theorem bounds_changeItem {item : Item} (hitem : c.items item.id) {f : Item → Item}
    (hid : ∀ i, (f i).id = i.id) (hboard : ∀ i, c.boards i.boardId → c.boards (f i).boardId) :
    Keeps c.Bounds (changeItem item f) :=
  Keeps.bind (.modify fun _ => bounds_modify hitem hid hboard) fun _ => .pure _

/-- The row has the key of the item, and lies on the same board. -/
def Stays (item row : Item) : Prop := row.id = item.id ∧ row.boardId = item.boardId

theorem Stays.within {item row : Item} (h : Stays item row) (hitem : c.items item.id)
    (hboard : c.boards item.boardId) : c.items row.id ∧ c.boards row.boardId := by
  rw [h.1, h.2]
  exact ⟨hitem, hboard⟩

theorem stays_renameItem {item row : Item} {name : Value}
    (h : (renameItem item name).answer o = .ok row) : Stays item row := by
  unfold renameItem at h
  rw [Reads.answer_bind (.ofResult _)] at h
  obtain ⟨name?, -, h⟩ := Result.bind_eq_ok h
  rw [Reads.answer_bind (.ofResult _)] at h
  obtain ⟨name, -, h⟩ := Result.bind_eq_ok h
  cases h
  exact ⟨rfl, rfl⟩

theorem stays_setStatus {item row : Item} {status : Value}
    (h : (setStatus item status).answer o = .ok row) : Stays item row := by
  unfold setStatus at h
  rw [Reads.answer_bind (.ofResult _)] at h
  obtain ⟨status, -, h⟩ := Result.bind_eq_ok h
  cases h
  exact ⟨rfl, rfl⟩

theorem stays_archive {item row : Item} (h : (archive item).answer o = .ok row) : Stays item row := by
  cases h
  exact ⟨rfl, rfl⟩

theorem bounds_renameItem {item : Item} (hitem : c.items item.id) (name : Value) :
    Keeps c.Bounds (renameItem item name) := by
  refine (Keeps.ofResult _).bind fun name? => (Keeps.ofResult _).bind fun name => ?_
  exact bounds_changeItem hitem (fun _ => rfl) fun _ hboard => hboard

theorem bounds_setStatus {item : Item} (hitem : c.items item.id) (status : Value) :
    Keeps c.Bounds (setStatus item status) :=
  (Keeps.ofResult _).bind fun _ => bounds_changeItem hitem (fun _ => rfl) fun _ hboard => hboard

theorem bounds_archive {item : Item} (hitem : c.items item.id) : Keeps c.Bounds (archive item) :=
  Keeps.get.bind fun _ => bounds_changeItem hitem (fun _ => rfl) fun _ hboard => hboard

theorem bounds_restore {item : Item} (hitem : c.items item.id) : Keeps c.Bounds (restore item) :=
  bounds_changeItem hitem (fun _ => rfl) fun _ hboard => hboard

theorem bounds_writeCells (hitem : c.items itemId) (cells : Cells) :
    Keeps c.Bounds (writeCells itemId cells) :=
  Keeps.forM _ fun cell _ => bounds_writeCell hitem cell.1 cell.2

/-- The item that the actor may read is the live one of the key. -/
theorem of_readable {item : Item} (h : (readable itemId actor).answer o = .ok item) :
    (requireItem itemId).answer o = .ok item ∧ Access.demand o actor (.item item) .readItems = .ok () := by
  unfold readable at h
  rw [(reads_requireItem itemId false).answer_bind] at h
  obtain ⟨found, hfound, h⟩ := Result.bind_eq_ok h
  rw [(reads_demand actor _ _).answer_bind, answer_demand] at h
  obtain ⟨_, hdemand, h⟩ := Result.bind_eq_ok h
  cases h
  exact ⟨hfound, hdemand⟩

/-- Where it is within reach, its board is. -/
theorem board_of_readable (hfits : c.Fits o) {item : Item}
    (h : (readable itemId actor).answer o = .ok item) (hitem : c.items item.id) :
    c.boards item.boardId :=
  hfits.placed item (Table.mem_of_get? (get?_of_requireItem (of_readable h).1).1).1 hitem

theorem bounds_edit (h : ∀ item, (readable itemId actor).answer o = .ok item → c.items item.id)
    (listener : Listener) (name : Value) (cells : Cells) :
    c.Bounds o ((edit listener itemId actor name cells).after o) := by
  intro hfits
  refine Reads.rel_bind (R := c.Bounds) (reads_readable itemId actor) (fun item hfound => ?_) hfits
  have hitem := h item hfound
  have hboard := board_of_readable hfits hfound hitem
  -- The item may be renamed first, or stay as it is.
  have hrest (before : Snapshot) (row : Item) (hstays : Stays item row) : Keeps c.Bounds (do
      writeCells row.id cells
      let after ← Office.snapshot row
      let changed := changedFields before after
      if changed.isEmpty then pure row
      else
        listener.tell
          { itemId := row.id
            boardId := row.boardId
            user := actor
            kind := .itemUpdated
            before := some before
            after := some after
            changed := changed }
        current row) := by
    obtain ⟨hitem, hboard⟩ := hstays.within hitem hboard
    refine (bounds_writeCells hitem cells).bind fun _ => (reads_snapshot row).keeps.bind fun after => ?_
    exact .ite (.pure _) ((bounds_tell hitem hboard listener).bind fun _ => (reads_current row).keeps)
  refine ((reads_checkColumns item.boardId cells).keeps.bind fun _ => ?_ : Keeps c.Bounds _) o
  refine (reads_snapshot item).keeps.bind fun before => .ite ?_ ?_
  · exact (Keeps.pure item).bind_where (fun _ row hrow => by cases hrow; exact ⟨rfl, rfl⟩) (hrest before)
  · exact (bounds_renameItem hitem name).bind_where (fun _ row => stays_renameItem) (hrest before)

theorem bounds_changeStatus
    (h : ∀ item, (readable itemId actor).answer o = .ok item → c.items item.id)
    (listener : Listener) (status : Value) :
    c.Bounds o ((changeStatus listener itemId actor status).after o) := by
  intro hfits
  refine Reads.rel_bind (R := c.Bounds) (reads_readable itemId actor) (fun item hfound => ?_) hfits
  have hitem := h item hfound
  have hboard := board_of_readable hfits hfound hitem
  refine ((reads_snapshot item).keeps.bind fun before => .ite (.pure _) ?_ : Keeps c.Bounds _) o
  refine (bounds_setStatus hitem status).bind_where (fun _ row => stays_setStatus) fun row hstays => ?_
  obtain ⟨hitem, hboard⟩ := hstays.within hitem hboard
  refine (reads_snapshot row).keeps.bind fun after => ?_
  exact (bounds_tell hitem hboard listener).bind fun _ => (reads_current row).keeps

theorem bounds_remove (h : ∀ item, (readable itemId actor).answer o = .ok item → c.items item.id)
    (listener : Listener) : c.Bounds o ((remove listener itemId actor).after o) := by
  intro hfits
  refine Reads.rel_bind (R := c.Bounds) (reads_readable itemId actor) (fun item hfound => ?_) hfits
  have hitem := h item hfound
  have hboard := board_of_readable hfits hfound hitem
  refine ((reads_snapshot item).keeps.bind fun before => ?_ : Keeps c.Bounds _) o
  refine (bounds_archive hitem).bind_where (fun _ row => stays_archive) fun row hstays => ?_
  obtain ⟨hitem, hboard⟩ := hstays.within hitem hboard
  exact (bounds_tell hitem hboard listener).bind fun _ => (reads_current row).keeps

/-- An item is moved to a board that the actor may read. -/
theorem bounds_move (h : ∀ item, (readable itemId actor).answer o = .ok item → c.items item.id)
    {board : Value}
    (hboard : ∀ target, (requireBoard board).answer o = .ok target →
      Access.demand o actor (.board target) .readItems = .ok () → c.boards target.id)
    (listener : Listener) : c.Bounds o ((move listener itemId actor board).after o) := by
  refine (reads_readable itemId actor).rel_bind fun item hfound => ?_
  have hitem := h item hfound
  refine (reads_requireBoard board).rel_bind fun target htarget => ?_
  refine (reads_demand actor _ _).rel_bind fun _ hdemand => ?_
  have htarget := hboard target htarget ((answer_demand o actor _ _).symm.trans hdemand)
  refine (.ite (.pure _) ?_ : Keeps c.Bounds _) o
  refine (reads_snapshot item).keeps.bind fun before => ?_
  have hmoves : Keeps c.Bounds (putOnBoard item target.id) :=
    bounds_changeItem hitem (fun _ => rfl) fun _ _ => htarget
  refine hmoves.bind fun moved => (reads_snapshot moved).keeps.bind fun after => ?_
  exact (bounds_tell hitem htarget listener).bind fun _ => (reads_current moved).keeps

/-- A new item is put on a board that the actor may read. -/
theorem bounds_create (hitem : c.items o.items.nextKey) {board : Value}
    (hboard : ∀ target, (requireBoard board).answer o = .ok target →
      Access.demand o actor (.board target) .readItems = .ok () → c.boards target.id)
    (listener : Listener) (name status : Value) (cells : Cells) :
    c.Bounds o ((create listener board actor name status cells).after o) := by
  refine (reads_requireBoard board).rel_bind fun target htarget => ?_
  refine (reads_demand actor _ _).rel_bind fun _ hdemand => ?_
  have hboard := hboard target htarget ((answer_demand o actor _ _).symm.trans hdemand)
  -- Behind the new row, what follows is about an item within reach.
  have hnew (name status : Value) (creator : String) : c.Bounds o (Task.after (do
      let item ← Office.createItem target.id name status creator
      writeCells item.id cells
      let after ← Office.snapshot item
      listener.tell
        { itemId := item.id
          boardId := target.id
          user := actor
          kind := .itemCreated
          after := some after
          changed := after.filter fun field => field.1 != "id" }
      current item) o) := by
    rw [Task.after, Task.exec_bind]
    rcases createItem_cases o target.id name status creator with
      ⟨fault, hexec⟩ | ⟨item, hid, hplace, -, hexec⟩
    · rw [hexec]
      exact Std.Refl.refl o
    · rw [hexec]
      rw [← hid] at hitem
      refine IsTrans.trans _ _ _ (bounds_add hid (hplace.symm ▸ hboard)) ?_
      refine ((bounds_writeCells hitem cells).bind fun _ => ?_ : Keeps c.Bounds _) _
      refine (reads_snapshot item).keeps.bind fun after => ?_
      exact (bounds_tell hitem hboard listener).bind fun _ => (reads_current item).keeps
  simp only
  split
  · refine Reads.rel_bind (.throw _) fun _ hthrown => ?_
    cases hthrown
  · exact (reads_checkColumns target.id cells).rel_bind fun _ _ => hnew _ _ _

end Changes

end Reach

end Signoff
