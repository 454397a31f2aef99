import Signoff.Automation.Catalog
import Signoff.Item.Changes
import Signoff.Proofs.Office.Fixtures

/-! # What is told to the automations

    Events are told by operations, never by an automation:

    * `Office.Hears P`: events that satisfy `P` were told in between, and no
      others.
    * `Office.Hushed`: no approval was told in between.
    * `heard_react`: an event is told once when the automations react to it.
    * `ItemChange.keeps_*`: a change of an item is kept by whatever is kept where its
      listener is told.
    * `hushed_*`: changes of items and daily passes tell no approval.
    * `Office.Catalogued`: relations that allow automations to be written.
      `Office.Reacting`: those that allow automations to react to events.
      `Office.Permissive`: those that allow every write but that of a workflow.
-/

open Signoff.Task (Keeps Reads Returns Same)

namespace Signoff

namespace Office

/-- Events that satisfy `P` were told in between, and no others. -/
def Hears (P : Event → Prop) (o o' : Office) : Prop :=
  ∃ new, o'.heard = new ++ o.heard ∧ ∀ h ∈ new, P h.event

/-- No approval was told in between. -/
abbrev Hushed : Office → Office → Prop := Hears fun event => event.kind ≠ .approvalApproved

variable {P : Event → Prop}

instance : Std.Refl (Hears P) := ⟨fun _ => ⟨[], rfl, by simp⟩⟩

instance : IsTrans Office (Hears P) where
  trans := by
    rintro o o' o'' ⟨new, hnew, hP⟩ ⟨new', hnew', hP'⟩
    refine ⟨new' ++ new, by rw [hnew', hnew, List.append_assoc], ?_⟩
    intro h hmem
    rcases List.mem_append.mp hmem with hmem | hmem
    · exact hP' h hmem
    · exact hP h hmem

theorem hears_of_heard_eq {o o' : Office} (h : o'.heard = o.heard) : Hears P o o' :=
  ⟨[], h, by simp⟩

/-- Automations tell nothing themselves. -/
instance : Automatic (Hears P) where
  changed _ _ _ _ := hears_of_heard_eq rfl
  added _ _ _ := hears_of_heard_eq rfl
  filled _ _ := hears_of_heard_eq rfl
  noticed _ _ _ := hears_of_heard_eq rfl
  logged _ _ := hears_of_heard_eq rfl
  called _ _ _ := hears_of_heard_eq rfl

theorem heard_eq_of_fixtures {o o' : Office} (h : Same fixtures o o') : o'.heard = o.heard := by
  have hsame : o'.fixtures.heard = o.fixtures.heard := congrArg heard h
  exact hsame

/-- What keeps the fixtures tells nothing. -/
theorem hears_of_fixtures {α : Type} {t : OfficeTask α} (h : Keeps (Same fixtures) t) :
    Keeps (Hears P) t :=
  h.imp fun _ _ hsame => hears_of_heard_eq (heard_eq_of_fixtures hsame)

theorem Hears.imp {P' : Event → Prop} {o o' : Office} (h : Hears P o o') (hP : ∀ e, P e → P' e) :
    Hears P' o o' := by
  obtain ⟨new, hnew, hall⟩ := h
  exact ⟨new, hnew, fun hearing hmem => hP _ (hall hearing hmem)⟩

end Office

/-- The event tells that the approval of a key was given. -/
def Event.Approves (key : Int) (event : Event) : Prop :=
  event.kind = .approvalApproved ∧ event.approval.bind (·.approvalId) = some key

instance (key : Int) (event : Event) : Decidable (event.Approves key) :=
  inferInstanceAs (Decidable (_ ∧ _))

namespace Office

/-- What was heard of an approval being given. -/
def approvalsHeard (o : Office) (key : Int) : List Hearing :=
  o.heard.filter fun h => h.event.Approves key

/-- Where other events are told, nothing is heard of it. -/
theorem approvalsHeard_of_hears {o o' : Office} {key : Int}
    (h : Hears (fun event => ¬ event.Approves key) o o') :
    o'.approvalsHeard key = o.approvalsHeard key := by
  obtain ⟨new, hnew, hP⟩ := h
  unfold approvalsHeard
  rw [hnew, List.filter_append, List.append_left_eq_self, List.filter_eq_nil_iff]
  intro hearing hmem
  simpa using hP hearing hmem

theorem hears_of_hushed {o o' : Office} (key : Int) (h : Hushed o o') :
    Hears (fun event => ¬ event.Approves key) o o' :=
  h.imp fun _ hkind happroves => hkind happroves.1

end Office

namespace Automations

open Office

variable {P : Event → Prop}

theorem returns_runAll (event : Event) (today : Date) (automations : List Automation) :
    Returns (runAll event today automations) := by
  induction automations with
  | nil => exact .pure _
  | cons a rest ih =>
    refine (Returns.attempt _).bind fun firing => ih.bind fun others => ?_
    split
    · exact .pure _
    · exact .pure _

/-- Whatever goes wrong in an automation stays there. -/
theorem returns_fire (event : Event) (today : Date) : Returns (fire event today) := by
  refine Returns.get.bind fun o => .ite (.pure _) ((Returns.attempt _).bind fun told => ?_)
  cases told with
  | ok event => exact returns_runAll event today _
  | error fault => exact .pure _

theorem returns_react (event : Event) (today : Option Date) : Returns (react event today) := by
  refine Returns.get.bind fun o => (returns_fire event _).bind fun firings => ?_
  exact (Returns.modify _).bind fun _ => .pure _

/-- The automations hear of the event once, whatever they make of it. -/
theorem heard_react (event : Event) (today : Option Date) (o : Office) :
    ∃ firings, ((react event today).after o).heard = ⟨event, some firings⟩ :: o.heard := by
  -- The automations themselves tell nothing; the event is noted down behind them.
  have hheard : ((fire event (today.getD o.clock.date)).after o).heard = o.heard :=
    heard_eq_of_fixtures (keeps_fire event (today.getD o.clock.date) o)
  unfold react
  rw [Task.after_get_bind]
  obtain ⟨firings, hafter⟩ := (returns_fire event (today.getD o.clock.date)).after_bind
    (fun firings => do
      modify fun o => { o with heard := ⟨event, some firings⟩ :: o.heard }
      pure firings) o
  refine ⟨firings, ?_⟩
  rw [hafter, ← hheard]
  rfl

theorem hears_react {event : Event} (h : P event) (today : Option Date) :
    Keeps (Hears P) (react event today) := by
  intro o
  obtain ⟨firings, hheard⟩ := heard_react event today o
  exact ⟨[⟨event, some firings⟩], hheard, by simpa using h⟩

/-- What is kept by whatever answers a test of dates is kept by a daily pass. -/
theorem keeps_dailyPass_of_react {R : Office → Office → Prop} [Std.Refl R] [IsTrans Office R]
    (today : Option Date) (h : ∀ event : Event, event.kind = .dateCheck → Keeps R (react event today)) :
    Keeps R (dailyPass today) := by
  refine Keeps.get.bind fun o => (Keeps.ofResult _).bind fun boards => ?_
  refine Keeps.foldlM _ (fun counts boardId _ => ?_) _
  refine Keeps.get.bind fun o => (Keeps.mapM _ fun item _ => ?_).bind fun fired => .pure _
  exact Keeps.get.bind fun o => (h _ rfl).bind fun firings => .pure _

/-- A daily pass tells about dates only. -/
theorem hushed_dailyPass (today : Option Date) : Keeps Hushed (dailyPass today) :=
  keeps_dailyPass_of_react today fun _ hkind => hears_react (by simp [hkind]) today

end Automations

/-- A listener hears of the event at most. -/
theorem Listener.hears_tell {P : Event → Prop} {event : Event} (listener : Listener)
    (h : P event) : Keeps (Office.Hears P) (listener.tell event) := by
  cases listener with
  | automations => exact (Automations.hears_react h none).discard
  | recorder => exact .modify fun o => ⟨[⟨event, none⟩], rfl, by simpa using h⟩
  | nobody => exact .pure _
  | failing => exact .pure _

theorem Listener.returns_tell (listener : Listener) (event : Event) :
    Returns (listener.tell event) := by
  cases listener with
  | automations => exact (Automations.returns_react event none).discard
  | recorder => exact .modify _
  | nobody => exact .pure _
  | failing => exact .pure _

/-! ## Changes of items -/

namespace ItemChange

open Office

theorem reads_checkColumns (boardId : Int) (cells : Cells) : Reads (checkColumns boardId cells) := by
  refine Keeps.get.bind fun o => ?_
  simp only
  split
  · exact .throw _
  · exact .pure _

theorem reads_current (item : Item) : Reads (current item) := Keeps.get.bind fun _ => .pure _

theorem reads_readable (itemId : Int) (actor : Option String) : Reads (readable itemId actor) := by
  refine (reads_requireItem itemId false).bind fun item => ?_
  exact (reads_demand actor _ _).bind fun _ => .pure _

section Kept

variable {R : Office → Office → Prop} [Acting R]

theorem keeps_writeCells (itemId : Int) (cells : Cells) : Keeps R (writeCells itemId cells) :=
  Keeps.forM _ fun cell _ => keeps_writeCell itemId cell.1 cell.2

variable {listener : Listener}

/-- A new item is kept by whatever is kept where its listener is told, -/
theorem keeps_create (h : ∀ event : Event, event.kind = .itemCreated → Keeps R (listener.tell event))
    (actor : Option String) (board name status : Value) (cells : Cells) :
    Keeps R (create listener board actor name status cells) := by
  refine (reads_requireBoard board).keeps.bind fun board => ?_
  refine (reads_demand actor _ _).keeps.bind fun _ => ?_
  -- Both branches of the check of the name go on with the rest of the task.
  have hrest : Keeps R (do
      checkColumns board.id cells
      let item ← Office.createItem board.id (.text (Text.trim name.display)) status (actor.getD "")
      writeCells item.id cells
      let after ← Office.snapshot item
      listener.tell
        { itemId := item.id
          boardId := board.id
          user := actor
          kind := .itemCreated
          after := some after
          changed := after.filter fun field => field.1 != "id" }
      current item) := by
    refine (reads_checkColumns board.id cells).keeps.bind fun _ => ?_
    refine (keeps_createItem _ _ _ _).bind fun item => ?_
    refine (keeps_writeCells item.id cells).bind fun _ => ?_
    refine (reads_snapshot item).keeps.bind fun after => ?_
    exact (h _ rfl).bind fun _ => (reads_current item).keeps
  exact .ite ((Keeps.throw _).bind fun _ => hrest) hrest

/-- and so are an edit, -/
theorem keeps_edit (h : ∀ event : Event, event.kind = .itemUpdated → Keeps R (listener.tell event))
    (itemId : Int) (actor : Option String) (name : Value) (cells : Cells) :
    Keeps R (edit listener itemId actor name cells) := by
  refine (reads_readable itemId actor).keeps.bind fun item => ?_
  refine (reads_checkColumns item.boardId cells).keeps.bind fun _ => ?_
  refine (reads_snapshot item).keeps.bind fun before => ?_
  -- The item may be renamed first, or stay as it is.
  have hrest (item : Item) : Keeps R (do
      writeCells item.id cells
      let after ← Office.snapshot item
      let changed := changedFields before after
      if changed.isEmpty then pure item
      else
        listener.tell
          { itemId := item.id
            boardId := item.boardId
            user := actor
            kind := .itemUpdated
            before := some before
            after := some after
            changed := changed }
        current item) := by
    refine (keeps_writeCells item.id cells).bind fun _ => ?_
    refine (reads_snapshot item).keeps.bind fun after => .ite (.pure _) ?_
    exact (h _ rfl).bind fun _ => (reads_current item).keeps
  exact .ite ((Keeps.pure _).bind hrest) ((keeps_renameItem item name).bind hrest)

/-- a change of the status, -/
theorem keeps_changeStatus
    (h : ∀ event : Event, event.kind = .statusChanged → Keeps R (listener.tell event))
    (itemId : Int) (actor : Option String) (status : Value) :
    Keeps R (changeStatus listener itemId actor status) := by
  refine (reads_readable itemId actor).keeps.bind fun item => ?_
  refine (reads_snapshot item).keeps.bind fun before => .ite (.pure _) ?_
  refine (keeps_setStatus item status).bind fun item => ?_
  refine (reads_snapshot item).keeps.bind fun after => ?_
  exact (h _ rfl).bind fun _ => (reads_current item).keeps

/-- a removal -/
theorem keeps_remove (h : ∀ event : Event, event.kind = .itemDeleted → Keeps R (listener.tell event))
    (itemId : Int) (actor : Option String) : Keeps R (remove listener itemId actor) := by
  refine (reads_readable itemId actor).keeps.bind fun item => ?_
  refine (reads_snapshot item).keeps.bind fun before => ?_
  refine (keeps_archive item).bind fun item => ?_
  exact (h _ rfl).bind fun _ => (reads_current item).keeps

/-- and a move. -/
theorem keeps_move (h : ∀ event : Event, event.kind = .itemMoved → Keeps R (listener.tell event))
    (itemId : Int) (actor : Option String) (board : Value) :
    Keeps R (move listener itemId actor board) := by
  refine (reads_readable itemId actor).keeps.bind fun item => ?_
  refine (reads_requireBoard board).keeps.bind fun target => ?_
  refine (reads_demand actor _ _).keeps.bind fun _ => .ite (.pure _) ?_
  refine (reads_snapshot item).keeps.bind fun before => ?_
  refine (keeps_putOnBoard item _).bind fun moved => ?_
  refine (reads_snapshot moved).keeps.bind fun after => ?_
  exact (h _ rfl).bind fun _ => (reads_current moved).keeps

end Kept

variable (listener : Listener) (itemId : Int) (actor : Option String)

theorem hushed_tell {kind : EventKind} (hkind : kind ≠ .approvalApproved) :
    ∀ event : Event, event.kind = kind → Keeps Hushed (listener.tell event) :=
  fun _ hsame => listener.hears_tell (hsame ▸ hkind)

theorem hushed_create (board name status : Value) (cells : Cells) :
    Keeps Hushed (create listener board actor name status cells) :=
  keeps_create (hushed_tell listener (by decide)) actor board name status cells

theorem hushed_edit (name : Value) (cells : Cells) :
    Keeps Hushed (edit listener itemId actor name cells) :=
  keeps_edit (hushed_tell listener (by decide)) itemId actor name cells

theorem hushed_changeStatus (status : Value) :
    Keeps Hushed (changeStatus listener itemId actor status) :=
  keeps_changeStatus (hushed_tell listener (by decide)) itemId actor status

theorem hushed_remove : Keeps Hushed (remove listener itemId actor) :=
  keeps_remove (hushed_tell listener (by decide)) itemId actor

theorem hushed_move (board : Value) : Keeps Hushed (move listener itemId actor board) :=
  keeps_move (hushed_tell listener (by decide)) itemId actor board

end ItemChange

/-! ## Changes of automations -/

/-- A relation that allows automations to be made, changed and removed. -/
class Office.Catalogued (R : Office → Office → Prop) : Prop extends Std.Refl R, IsTrans Office R where
  saved (o : Office) (row : Automation) (h : row.id = o.automations.nextKey) :
    R o { o with automations := o.automations.add fun _ => row }
  rewrote (o : Office) (key : Int) (row : Automation) (h : row.id = key) :
    R o { o with automations := o.automations.modify key fun _ => row }
  erased (o : Office) (key : Int) (logs : Table ExecutionLog) :
    R o { o with automations := o.automations.erase key, logs := logs }

/-- Nothing is told of it. -/
instance {P : Event → Prop} : Office.Catalogued (Office.Hears P) where
  saved _ _ _ := Office.hears_of_heard_eq rfl
  rewrote _ _ _ _ := Office.hears_of_heard_eq rfl
  erased _ _ _ := Office.hears_of_heard_eq rfl

namespace Automations

open Office

theorem reads_permitted (key : Int) (actor : Option String) (permission : Permission) :
    Reads (permitted key actor permission) := by
  have hrequire : Reads (require key) := by
    refine (Keeps.ofResult _).bind fun _ => Keeps.get.bind fun o => ?_
    split
    · exact .pure _
    · exact .throw _
  refine hrequire.bind fun a => (Office.reads_requireBoard _).bind fun board => ?_
  exact (Office.reads_demand actor _ _).bind fun _ => .pure _

section Written

variable {R : Office → Office → Prop} [Catalogued R]

theorem keeps_create (payload : Value) (actor : Option String) : Keeps R (create payload actor) := by
  refine (Keeps.ofResult _).bind fun draft => (Office.reads_requireBoard _).keeps.bind fun board => ?_
  refine (Office.reads_demand actor _ _).keeps.bind fun _ => ?_
  exact Keeps.get_set (fun o => Catalogued.saved o _ rfl) fun _ => .pure _

theorem keeps_write {old new : Automation} (hid : new.id = old.id) : Keeps R (write old new) :=
  Keeps.get_set (fun o => Catalogued.rewrote o _ _ hid) fun _ => .pure _

theorem keeps_update (key : Int) (payload : Value) (actor : Option String) :
    Keeps R (update key payload actor) := by
  refine (reads_permitted key actor _).keeps.bind fun a => (Keeps.ofResult _).bind fun change => ?_
  exact keeps_write rfl

theorem keeps_toggle (key : Int) (actor : Option String) : Keeps R (toggle key actor) :=
  (reads_permitted key actor _).keeps.bind fun _ => keeps_write rfl

theorem keeps_delete (key : Int) (actor : Option String) : Keeps R (delete key actor) :=
  (reads_permitted key actor _).keeps.bind fun a => .modify fun o => Catalogued.erased o a.id _

end Written

end Automations

/-! ## All writes -/

namespace Office

/-- A relation that allows whatever operations on the office write. -/
class Permissive (R : Office → Office → Prop) : Prop extends Acting R, Notified R, Catalogued R where
  told (o : Office) (hearing : Hearing) : R o { o with heard := hearing :: o.heard }
  ticked (o : Office) (clock : Moment) : R o { o with clock := clock }
  configured (o : Office) (settings : Fields) : R o { o with settings := settings }

/-- A relation that allows everything that automations do, and events to be noted down. -/
class Reacting (R : Office → Office → Prop) : Prop extends Acting R where
  noted (o : Office) (hearing : Hearing) : R o { o with heard := hearing :: o.heard }

instance {R : Office → Office → Prop} [Permissive R] : Reacting R where
  noted := Permissive.told

variable {R : Office → Office → Prop} [Reacting R]

theorem permits_react (event : Event) (today : Option Date) : Keeps R (Automations.react event today) := by
  refine Keeps.get.bind fun o => (Automations.keeps_fire event _).bind fun firings => ?_
  exact Keeps.bind (.modify fun o => Reacting.noted o _) fun _ => .pure _

theorem permits_tell (listener : Listener) (event : Event) : Keeps R (listener.tell event) := by
  cases listener with
  | automations => exact (permits_react event none).discard
  | recorder => exact .modify fun o => Reacting.noted o _
  | nobody => exact .pure _
  | failing => exact .pure _

theorem permits_dailyPass (today : Option Date) : Keeps R (Automations.dailyPass today) :=
  Automations.keeps_dailyPass_of_react today fun event _ => permits_react event today

end Office

end Signoff
