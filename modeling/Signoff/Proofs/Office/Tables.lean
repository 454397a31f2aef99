import Signoff.Proofs.Office.Fixtures
import Signoff.Proofs.Task.Commuting

/-! # The tables of the office

    Calls to other systems and events that were told leave no row. What is stored
    does not depend on them, and a write that fails stores nothing:

    * `Office.tables`: the office without calls and events.
    * `Office.relayed`: the office with other calls and events.
    * `commutes_*`: reading and writing rows goes on in the same way there.
    * `atomicAt_*`: a write that fails has written nothing.
    * `Office.Spacious`: the keys of columns and of some new items can be stored.
    * `returns_writeCell`: then no cell of a new item is refused.
-/

open Signoff.Task (AtomicAt Commutes Keeps Reads ReturnsOn Same)

namespace Signoff.Office

variable {o o' : Office} {replies : List Reply} {calls : List Call} {heard : List Hearing}

/-- The office without the calls to other systems and the events that were told. -/
def tables (o : Office) : Office := { o with replies := [], calls := [], heard := [] }

/-- The office with other calls and events. -/
def relayed (replies : List Reply) (calls : List Call) (heard : List Hearing) (o : Office) : Office :=
  { o with replies := replies, calls := calls, heard := heard }

theorem tables_relayed (o : Office) : (o.relayed replies calls heard).tables = o.tables := rfl

/-- Offices with the same tables differ in calls and events only. -/
theorem eq_relayed_of_tables (h : o'.tables = o.tables) :
    o' = o.relayed o'.replies o'.calls o'.heard := by
  have hsame : o'.tables.relayed o'.replies o'.calls o'.heard =
      o.tables.relayed o'.replies o'.calls o'.heard := by rw [h]
  exact hsame

/-! ## Reading and writing elsewhere -/

section Commuting

theorem commutes_findItem (key : Int) (archived : Bool) :
    Commutes (relayed replies calls heard) (findItem key archived) := by
  apply (Commutes.ofResult _).bind
  intro _
  exact .get_of_eq (fun _ => rfl) fun _ => .pure _

theorem commutes_requireItem (key : Int) (archived : Bool) :
    Commutes (relayed replies calls heard) (requireItem key archived) := by
  apply (commutes_findItem key archived).bind
  intro found
  cases found with
  | some item => exact .pure item
  | none => exact .throw _

theorem commutes_requireBoard (key : Value) :
    Commutes (relayed replies calls heard) (requireBoard key) := by
  have hfind : Commutes (relayed replies calls heard) (findBoard key) := by
    apply (Commutes.ofResult _).bind
    intro n
    cases n with
    | some n =>
      apply (Commutes.ofResult _).bind
      intro _
      exact .get_of_eq (fun _ => rfl) fun _ => .pure _
    | none => exact .pure _
  apply hfind.bind
  intro found
  cases found with
  | some b => exact .pure b
  | none => exact .throw _

theorem commutes_columnKey (column : Value) :
    Commutes (relayed replies calls heard) (columnKey column) := by
  apply (Commutes.ofResult _).bind
  intro n
  cases n with
  | some n => exact .pure n
  | none => exact .throw _

theorem commutes_snapshot (item : Item) :
    Commutes (relayed replies calls heard) (snapshot item) :=
  .get_of_eq (fun _ => rfl) fun _ => .pure _

theorem commutes_changeItem (item : Item) (f : Item → Item) :
    Commutes (relayed replies calls heard) (changeItem item f) :=
  Commutes.bind (.modify fun _ => rfl) fun _ => .pure _

theorem commutes_setStatus (item : Item) (status : Value) :
    Commutes (relayed replies calls heard) (setStatus item status) :=
  (Commutes.ofResult _).bind fun _ => commutes_changeItem item _

theorem commutes_createItem (boardId : Int) (name status : Value) (createdBy : String) :
    Commutes (relayed replies calls heard) (createItem boardId name status createdBy) := by
  apply (Commutes.ofResult _).bind
  intro name?
  apply (Commutes.ofResult _).bind
  intro status
  apply (Commutes.ofResult _).bind
  intro name
  exact .get_set (fun _ => rfl) (fun _ => rfl) fun _ => .pure _

theorem commutes_writeCell (itemId : Int) (column value : Value) :
    Commutes (relayed replies calls heard) (writeCell itemId column value) := by
  apply (commutes_columnKey column).bind
  intro key
  apply (commutes_findItem itemId true).bind
  intro item
  apply (Commutes.ofResult _).bind
  intro _
  apply Commutes.get_bind
  intro o
  -- The column and the cell are looked up in tables that are the same.
  have hcolumn : (o.relayed replies calls heard).columns.get? key = o.columns.get? key := rfl
  have hcell : (o.relayed replies calls heard).cell? itemId key = o.cell? itemId key := rfl
  cases item with
  | none => rfl
  | some item =>
    simp only [hcolumn, hcell]
    cases o.columns.get? key with
    | none => rfl
    | some c =>
      simp only
      split
      · rfl
      · cases o.cell? itemId key with
        | some cell => rfl
        | none => rfl

theorem commutes_deleteCells (itemId : Int) (column : Value) :
    Commutes (relayed replies calls heard) (deleteCells itemId column) := by
  apply (commutes_columnKey column).bind
  intro key
  apply (Commutes.ofResult _).bind
  intro _
  apply (Commutes.ofResult _).bind
  intro _
  exact .get_set (fun _ => rfl) (fun _ => rfl) fun _ => .pure _

theorem commutes_notifyMany (users : List Value) (notice : Notice) :
    Commutes (relayed replies calls heard) (notifyMany users notice) := by
  apply (Commutes.ofResult _).bind
  intro users
  apply (Commutes.ofResult _).bind
  intro makers
  exact .get_set (fun _ => rfl) (fun _ => rfl) fun _ => .pure _

end Commuting

/-! ## Writes that fail -/

section Failing

variable {γ : Type} {g : Office → γ}

theorem atomicAt_changeItem (item : Item) (f : Item → Item) : AtomicAt g o (changeItem item f) :=
  .of_returns ⟨f item, rfl⟩

theorem atomicAt_setStatus (item : Item) (status : Value) :
    AtomicAt g o (setStatus item status) :=
  .reads_bind (.ofResult _) fun _ _ => atomicAt_changeItem item _

theorem atomicAt_createItem (boardId : Int) (name status : Value) (createdBy : String) :
    AtomicAt g o (createItem boardId name status createdBy) := by
  apply AtomicAt.reads_bind (.ofResult _)
  intro name? _
  apply AtomicAt.reads_bind (.ofResult _)
  intro status _
  apply AtomicAt.reads_bind (.ofResult _)
  intro name _
  exact .of_returns ⟨_, rfl⟩

theorem atomicAt_writeCell (itemId : Int) (column value : Value) :
    AtomicAt g o (writeCell itemId column value) := by
  apply AtomicAt.reads_bind (reads_columnKey column)
  intro key _
  apply AtomicAt.reads_bind (reads_findItem itemId true)
  intro item _
  apply AtomicAt.reads_bind (.ofResult _)
  intro _ _
  apply AtomicAt.reads_bind .get
  intro o hget
  cases item with
  | none => exact .of_keeps (.throw _)
  | some item =>
    cases o.columns.get? key with
    | none => exact .of_keeps (.throw _)
    | some c =>
      simp only
      split
      · exact .of_keeps (.throw _)
      · cases o.cell? itemId key with
        | some cell => exact .of_returns ⟨_, rfl⟩
        | none => exact .of_returns ⟨_, rfl⟩

theorem atomicAt_deleteCells (itemId : Int) (column : Value) :
    AtomicAt g o (deleteCells itemId column) := by
  apply AtomicAt.reads_bind (reads_columnKey column)
  intro key _
  apply AtomicAt.reads_bind (.ofResult _)
  intro _ _
  apply AtomicAt.reads_bind (.ofResult _)
  intro _ _
  exact .of_returns ⟨_, rfl⟩

theorem atomicAt_notifyMany (users : List Value) (notice : Notice) :
    AtomicAt g o (notifyMany users notice) := by
  apply AtomicAt.reads_bind (.ofResult _)
  intro users _
  apply AtomicAt.reads_bind (.ofResult _)
  intro makers _
  exact .of_returns ⟨_, rfl⟩

end Failing

/-! ## Cells of new items -/

/-- No two columns share a key, and the keys of columns and of `n` more items can be stored. -/
structure Spacious (o : Office) (n : Nat) : Prop where
  columnsDistinct : o.columns.KeysDistinct
  columnsStored : ∀ c ∈ o.columns.rows, checkKey c.id = .ok ()
  room : o.items.lastKey + n < TextColumn.bound

theorem Spacious.mono {m n : Nat} (h : o.Spacious n) (hle : m ≤ n) : o.Spacious m where
  columnsDistinct := h.columnsDistinct
  columnsStored := h.columnsStored
  room := by
    have hroom := h.room
    omega

/-- The item is there, and its columns can be looked up. -/
structure Writable (item : Item) (o : Office) : Prop where
  stored : checkKey item.id = .ok ()
  found : ∃ i, o.items.get? item.id = some i ∧ i.boardId = item.boardId
  columnsDistinct : o.columns.KeysDistinct
  columnsStored : ∀ c ∈ o.columns.rows, checkKey c.id = .ok ()

/-- A cell of the item is written into every column of its board. -/
theorem returns_writeCell {item : Item} {c : Column} (hwritable : Writable item o)
    (hc : c ∈ o.columns.rows) (hboard : c.boardId = item.boardId) (v : Value) :
    ∃ u, (writeCell item.id (.int c.id) v).answer o = .ok u := by
  obtain ⟨i, hfound, hsame⟩ := hwritable.found
  have hkey : (columnKey (.int c.id)).answer o = .ok c.id := rfl
  have hitem : (findItem item.id true).answer o = .ok (some i) := by
    rw [answer_findItem, hwritable.stored, hfound]
    rfl
  have hcolumn : o.columns.get? c.id = some c := hwritable.columnsDistinct.get?_of_mem hc
  have hplace : (c.boardId != i.boardId) = false := by simp [hboard, hsame]
  unfold writeCell
  rw [(reads_columnKey _).answer_bind, hkey]
  show ∃ u, Task.answer (findItem item.id true >>= _) o = Except.ok u
  rw [(reads_findItem _ _).answer_bind, hitem]
  show ∃ u, Task.answer (Task.ofResult (checkKey c.id) >>= _) o = Except.ok u
  rw [Task.Reads.answer_bind (Keeps.ofResult _), Task.answer_ofResult,
    hwritable.columnsStored c hc]
  show ∃ u, Task.answer (get >>= _) o = Except.ok u
  rw [Task.answer_get_bind]
  simp only [hcolumn, hplace]
  cases o.cell? item.id c.id with
  | some cell => exact ⟨_, rfl⟩
  | none => exact ⟨_, rfl⟩

end Signoff.Office
