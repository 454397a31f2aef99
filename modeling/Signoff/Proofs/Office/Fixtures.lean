import Signoff.Automation.Engine
import Signoff.Proofs.Item.Cells
import Mathlib.Data.List.Forall2

/-! # What automations write

    Actions write items, cells, notifications and calls, and a run of an
    automation writes its log. They never write the key or the creator of an
    item, and their notifications are all of one type:

    * `Office.Acting`: relations between states that allow just this.
      `Office.Automatic`: those that allow cells to be written in any way.
    * `Action.keeps_executeAll`: actions keep every such relation.
    * `Automations.keeps_fire`: so do the automations that answer an event.
    * `Office.fixtures`: the office without what automations write.
    * `Office.Notified`: relations that allow notifications to be written. Whatever
      sends them or marks them as read keeps every such relation.
-/

open Signoff.Task (Keeps Reads Same)

namespace Signoff

namespace Office

/-- A relation that allows everything that automations do. -/
class Acting (R : Office → Office → Prop) : Prop extends Std.Refl R, IsTrans Office R where
  changed (o : Office) (key : Int) (f : Item → Item)
    (hf : ∀ i, (f i).id = i.id ∧ (f i).createdBy = i.createdBy) :
    R o { o with items := o.items.modify key f }
  added (o : Office) (item : Item) (h : item.id = o.items.nextKey) :
    R o { o with items := o.items.add fun _ => item }
  wrote (itemId : Int) (column value : Value) : Keeps R (writeCell itemId column value)
  cleared (itemId : Int) (column : Value) : Keeps R (deleteCells itemId column)
  noticed (o : Office) (new : List Notification) (h : ∀ n ∈ new, n.type = "automation") :
    R o { o with notifications := ⟨o.notifications.rows ++ new⟩ }
  logged (o : Office) (logs : Table ExecutionLog) : R o { o with logs := logs }
  called (o : Office) (replies : List Reply) (calls : List Call) :
    R o { o with replies := replies, calls := calls }

/-- A relation that allows everything that automations write, and all cells to be written. -/
class Automatic (R : Office → Office → Prop) : Prop extends Std.Refl R, IsTrans Office R where
  changed (o : Office) (key : Int) (f : Item → Item)
    (hf : ∀ i, (f i).id = i.id ∧ (f i).createdBy = i.createdBy) :
    R o { o with items := o.items.modify key f }
  added (o : Office) (item : Item) (h : item.id = o.items.nextKey) :
    R o { o with items := o.items.add fun _ => item }
  filled (o : Office) (cells : Table Cell) : R o { o with cells := cells }
  noticed (o : Office) (new : List Notification) (h : ∀ n ∈ new, n.type = "automation") :
    R o { o with notifications := ⟨o.notifications.rows ++ new⟩ }
  logged (o : Office) (logs : Table ExecutionLog) : R o { o with logs := logs }
  called (o : Office) (replies : List Reply) (calls : List Call) :
    R o { o with replies := replies, calls := calls }

/-- The office without everything that automations write. -/
def fixtures (o : Office) : Office :=
  { o with items := {}, cells := {}, notifications := {}, logs := {}, replies := [], calls := [] }

instance : Automatic (Same fixtures) where
  changed _ _ _ _ := rfl
  added _ _ _ := rfl
  filled _ _ := rfl
  noticed _ _ _ := rfl
  logged _ _ := rfl
  called _ _ _ := rfl

/-! ## Single writes -/

/-- What allows all cells to be written allows automations to write them. -/
instance {R : Office → Office → Prop} [Automatic R] : Acting R where
  changed := Automatic.changed
  added := Automatic.added
  noticed := Automatic.noticed
  logged := Automatic.logged
  called := Automatic.called
  wrote itemId := keeps_writeCell_of_withCell fun o columnId value => by
    rw [withCell_eq]
    exact Automatic.filled o _
  cleared itemId := keeps_deleteCells_of_erase fun o _ _ => Automatic.filled o _

section Writing

variable {R : Office → Office → Prop} [Acting R]

theorem keeps_changeItem (item : Item) {f : Item → Item}
    (hf : ∀ i, (f i).id = i.id ∧ (f i).createdBy = i.createdBy) : Keeps R (changeItem item f) :=
  Keeps.bind (.modify fun o => Acting.changed o item.id f hf) fun _ => .pure _

theorem keeps_createItem (boardId : Int) (name status : Value) (createdBy : String) :
    Keeps R (createItem boardId name status createdBy) := by
  refine (Keeps.ofResult _).bind fun name? => (Keeps.ofResult _).bind fun status => ?_
  refine (Keeps.ofResult _).bind fun name => ?_
  exact Keeps.get_set (fun o => Acting.added o _ rfl) fun _ => .pure _

theorem keeps_renameItem (item : Item) (name : Value) : Keeps R (renameItem item name) := by
  refine (Keeps.ofResult _).bind fun name? => (Keeps.ofResult _).bind fun name => ?_
  exact keeps_changeItem item fun _ => ⟨rfl, rfl⟩

theorem keeps_setStatus (item : Item) (status : Value) : Keeps R (setStatus item status) :=
  (Keeps.ofResult _).bind fun _ => keeps_changeItem item fun _ => ⟨rfl, rfl⟩

theorem keeps_putOnBoard (item : Item) (boardId : Int) : Keeps R (putOnBoard item boardId) :=
  keeps_changeItem item fun _ => ⟨rfl, rfl⟩

theorem keeps_archive (item : Item) : Keeps R (archive item) :=
  Keeps.get.bind fun _ => keeps_changeItem item fun _ => ⟨rfl, rfl⟩

theorem keeps_restore (item : Item) : Keeps R (restore item) :=
  keeps_changeItem item fun _ => ⟨rfl, rfl⟩

theorem keeps_writeCell (itemId : Int) (column value : Value) :
    Keeps R (writeCell itemId column value) :=
  Acting.wrote itemId column value

theorem keeps_deleteCells (itemId : Int) (column : Value) :
    Keeps R (deleteCells itemId column) :=
  Acting.cleared itemId column

/-- What is kept of a notice has its type. -/
theorem type_of_keepNotice {notice : Notice} {user : Value} {make : Int → Moment → Notification}
    (h : keepNotice notice user = .ok make) (id : Int) (now : Moment) :
    (make id now).type = notice.type := by
  obtain ⟨user?, -, h⟩ := Result.bind_eq_ok h
  obtain ⟨title?, -, h⟩ := Result.bind_eq_ok h
  obtain ⟨message, -, h⟩ := Result.bind_eq_ok h
  obtain ⟨link, -, h⟩ := Result.bind_eq_ok h
  obtain ⟨user, -, h⟩ := Result.bind_eq_ok h
  obtain ⟨title, -, h⟩ := Result.bind_eq_ok h
  cases h
  rfl

/-- Notifications that are made one after another come behind those that are there, one for each. -/
theorem forall₂_foldl_add (makers : List (Int → Moment → Notification)) (now : Moment)
    (table : Table Notification) :
    ∃ new, makers.foldl (fun table make => table.add fun id => make id now) table =
      ⟨table.rows ++ new⟩ ∧ List.Forall₂ (fun make n => ∃ id, n = make id now) makers new := by
  induction makers generalizing table with
  | nil => exact ⟨[], by simp⟩
  | cons make rest ih =>
    obtain ⟨new, hnew, hmade⟩ := ih (table.add fun id => make id now)
    refine ⟨make table.nextKey now :: new, ?_, .cons ⟨table.nextKey, rfl⟩ hmade⟩
    rw [List.foldl_cons, hnew, Table.rows_add, List.append_assoc]
    rfl

/-- What holds of whatever is made holds of the new notifications. -/
theorem rows_foldl_add {P : Notification → Prop} {makers : List (Int → Moment → Notification)}
    {now : Moment} (hP : ∀ make ∈ makers, ∀ id, P (make id now)) (table : Table Notification) :
    ∃ new, makers.foldl (fun table make => table.add fun id => make id now) table =
      ⟨table.rows ++ new⟩ ∧ ∀ n ∈ new, P n := by
  obtain ⟨new, hnew, hmade⟩ := forall₂_foldl_add makers now table
  refine ⟨new, hnew, ?_⟩
  clear hnew
  induction hmade with
  | nil => nofun
  | cons hhead _ ih =>
    obtain ⟨id, rfl⟩ := hhead
    obtain ⟨hmake, hrest⟩ := List.forall_mem_cons.mp hP
    exact List.forall_mem_cons.mpr ⟨hmake id, ih hrest⟩

theorem keeps_notifyMany (users : List Value) {notice : Notice} (h : notice.type = "automation") :
    Keeps R (notifyMany users notice) := by
  refine (Keeps.ofResult _).bind fun users => ?_
  cases hmakers : users.mapM (keepNotice notice) with
  | error fault => exact Keeps.throw fault
  | ok makers =>
    have hmade : (Task.ofResult (.ok makers) : OfficeTask _) = pure makers := rfl
    rw [hmade, pure_bind]
    refine Keeps.get_set (fun o => ?_) fun _ => .pure _
    have htype : ∀ make ∈ makers, ∀ id, (make id o.clock).type = "automation" := by
      intro make hmake id
      obtain ⟨user, -, hkept⟩ := Result.exists_of_mapM hmakers hmake
      exact (type_of_keepNotice hkept id o.clock).trans h
    obtain ⟨new, hnew, hall⟩ :=
      rows_foldl_add (P := fun n => n.type = "automation") htype o.notifications
    rw [hnew]
    exact Acting.noticed o new hall

theorem keeps_send (call : Call) : Keeps R (send call) :=
  Keeps.get_set (fun o => Acting.called o _ _) fun _ => .ofResult _

end Writing

/-! ## Writes of notifications -/

/-- A relation that allows notifications to be written. -/
class Notified (R : Office → Office → Prop) : Prop extends Std.Refl R, IsTrans Office R where
  written (o : Office) (notifications : Table Notification) :
    R o { o with notifications := notifications }

instance : Notified (Same fixtures) where
  written _ _ := rfl

section Notifying

variable {R : Office → Office → Prop} [Notified R]

theorem notified_notify (user : Value) (notice : Notice) : Keeps R (notify user notice) := by
  refine (Keeps.ofResult _).bind fun make => ?_
  exact Keeps.get_set (fun o => Notified.written o _) fun _ => .pure _

theorem notified_notifyMany (users : List Value) (notice : Notice) :
    Keeps R (notifyMany users notice) := by
  refine (Keeps.ofResult _).bind fun users => (Keeps.ofResult _).bind fun makers => ?_
  exact Keeps.get_set (fun o => Notified.written o _) fun _ => .pure _

theorem notified_markRead (key : Int) (user : String) : Keeps R (markRead key user) := by
  refine (Keeps.ofResult _).bind fun _ => Keeps.get_bind fun o => ?_
  split
  · exact Std.Refl.refl o
  · split
    · exact Std.Refl.refl o
    · exact Notified.written o _

theorem notified_markAllRead (user : String) : Keeps R (markAllRead user) :=
  Keeps.get_set (fun o => Notified.written o _) fun _ => .pure _

end Notifying

end Office

/-! ## Actions -/

namespace Action

open Office

/-- What is kept by whatever is executed is kept by all actions together. -/
theorem keeps_executeAll_of_execute {R : Office → Office → Prop} [Std.Refl R] [IsTrans Office R]
    {event : Event} {automation : Option Int}
    (h : ∀ type config, Keeps R (execute type config event automation)) (actions : Value) :
    Keeps R (executeAll actions event automation) := by
  refine (Keeps.ofResult _).bind fun actions => Keeps.mapM _ fun action _ => ?_
  unfold executeOne
  split
  · -- A fault of the action becomes its result.
    refine (h _ _).attempt.bind fun result => ?_
    cases result with
    | ok _ => exact .pure _
    | error fault => exact .pure _
  · exact .throw _

variable {R : Office → Office → Prop} [Acting R]

theorem keeps_tellUsers (item : Item) (config : Value) (automation : Option Int)
    (users : List Value) : Keeps R (tellUsers item config automation users) := by
  refine (Keeps.ofResult _).bind fun title => (Keeps.ofResult _).bind fun message => ?_
  exact (keeps_notifyMany users rfl).discard

theorem keeps_targetBoard (config : Value) : Keeps R (targetBoard config) :=
  (Keeps.ofResult _).bind fun key => (reads_requireBoard key).keeps

theorem keeps_copyCells (item copy : Item) : Keeps R (copyCells item copy) := by
  refine Keeps.get.bind fun o => Keeps.bind (Keeps.forIn _ (fun column _ _ => ?_) _) fun _ => .pure _
  split
  · exact .pure _
  · split
    · exact .pure _
    · exact (keeps_writeCell _ _ _).bind fun _ => .pure _

theorem keeps_createItem (item : Item) (config : Value) (event : Event) :
    Keeps R (createItem item config event) := by
  refine (keeps_targetBoard config).bind fun board => ?_
  refine (Office.keeps_createItem _ _ _ _).bind fun copy => ?_
  exact .ite (keeps_copyCells item copy) (.pure _)

theorem keeps_callOut (kind : ActionKind) (item : Item) (config : Value) :
    Keeps R (callOut kind item config) := by
  unfold callOut
  refine (Keeps.ofResult _).bind fun url => Keeps.get.bind fun o => ?_
  refine (Keeps.ofResult _).bind fun more => (Keeps.ofResult _).bind fun method => ?_
  refine (Keeps.ofResult _).bind fun headers => (keeps_send _).bind fun result => ?_
  exact .ite (.throw _) (.pure _)

theorem keeps_perform (kind : ActionKind) (item : Item) (config : Value) (event : Event)
    (automation : Option Int) :
    Keeps R (perform kind item config event automation) := by
  cases kind with
  | changeStatus =>
    exact (Keeps.ofResult _).bind fun status => (keeps_setStatus item status).discard
  | updateField =>
    exact (Keeps.ofResult _).bind fun column => keeps_writeCell item.id column _
  | clearField =>
    exact (Keeps.ofResult _).bind fun column => (keeps_deleteCells item.id column).discard
  | calculateFormula =>
    -- What follows the formula is the same, whether it is a text or not.
    have hwrite (formula : String) : Keeps R (do
        let amount ← Task.ofResult (Formula.evaluate formula (← Office.snapshot item))
        Office.writeCell item.id (← Task.ofResult (ActionConfig.need config "columnId"))
          amount.toValue) := by
      refine (reads_snapshot item).keeps.bind fun snapshot => (Keeps.ofResult _).bind fun amount => ?_
      exact (Keeps.ofResult _).bind fun column => keeps_writeCell item.id column _
    refine (Keeps.ofResult _).bind fun formula => ?_
    simp only
    split
    · exact (Keeps.pure _).bind hwrite
    · exact (Keeps.throw _).bind hwrite
  | copyField =>
    refine (Keeps.ofResult _).bind fun source => (reads_snapshot item).keeps.bind fun snapshot => ?_
    split
    · exact (Keeps.ofResult _).bind fun column => keeps_writeCell item.id column _
    · exact .pure _
  | assignUser =>
    refine (Keeps.ofResult _).bind fun users => (Keeps.ofResult _).bind fun column => ?_
    exact keeps_writeCell item.id column _
  | sendNotification =>
    exact (Keeps.ofResult _).bind fun users => keeps_tellUsers item config automation _
  | notifyUsers =>
    exact (Keeps.ofResult _).bind fun users => keeps_tellUsers item config automation _
  | notifyAssignees =>
    refine Keeps.get.bind fun o => .ite (.pure _) ?_
    exact keeps_tellUsers item config automation _
  | createItem => exact keeps_createItem item config event
  | moveToBoard =>
    exact (keeps_targetBoard config).bind fun board => (keeps_putOnBoard item _).discard
  | callWebhook => exact keeps_callOut .callWebhook item config
  | apiCall => exact keeps_callOut .apiCall item config

/-- Actions write no more than automations may. -/
theorem keeps_executeAll (actions : Value) (event : Event) (automation : Option Int) :
    Keeps R (executeAll actions event automation) := by
  refine keeps_executeAll_of_execute (fun type config => ?_) actions
  refine (Keeps.ofResult _).bind fun kind => ?_
  refine (reads_requireItem event.itemId true).keeps.bind fun item => ?_
  exact keeps_perform kind item config event automation

end Action

/-! ## Automations -/

namespace Automations

open Office

variable {R : Office → Office → Prop} [Acting R]

theorem keeps_run (a : Automation) (event : Event) (today : Date) :
    Keeps R (run a event today) := by
  refine (Keeps.ofResult _).bind fun isAnswered => .ite ?_ (.pure _)
  refine (Action.keeps_executeAll _ _ _).bind fun results => Keeps.bind ?_ fun _ => .pure _
  exact (Keeps.ofResult _).bind fun _ => .modify fun o => Acting.logged o _

theorem keeps_runAll (event : Event) (today : Date) (automations : List Automation) :
    Keeps R (runAll event today automations) := by
  induction automations with
  | nil => exact .pure _
  | cons a rest ih =>
    refine (keeps_run a event today).attempt.bind fun firing => ih.bind fun others => ?_
    split
    · exact .pure _
    · exact .pure _

theorem reads_withSnapshot (event : Event) : Reads (withSnapshot event) := by
  unfold withSnapshot
  split
  · exact .pure _
  · refine (reads_findItem event.itemId true).bind fun found => ?_
    cases found with
    | some item => exact (reads_snapshot item).bind fun _ => .pure _
    | none => exact .pure _

/-- Nor do the automations that answer an event. -/
theorem keeps_fire (event : Event) (today : Date) :
    Keeps R (fire event today) := by
  refine Keeps.get.bind fun o => .ite (.pure _) ?_
  refine (reads_withSnapshot event).keeps.attempt.bind fun told => ?_
  cases told with
  | ok event => exact keeps_runAll event today _
  | error fault => exact .pure _

end Automations

end Signoff
