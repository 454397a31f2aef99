import Signoff.Proofs.Automation.Effects
import Signoff.Proofs.Automation.Saved
import Signoff.Proofs.Office.Tables
import Signoff.Proofs.Run

/-! # Actions are isolated

    An action that fails leaves all tables as it found them, and what the others
    do does not depend on it:

    * `Action.Calls`: actions that call another system. They write no row.
    * `commutes_perform`: any other action goes by the tables only.
    * `atomicAt_perform`: an action that fails has written no row.
    * `exec_executeOne`: what becomes of a single action.
    * `tables_succeeded`: leaving the failures out makes the same tables.
    * `actions_isolated`: one result for each action, and both of these.
-/

open Signoff.Task (AtomicAt Commutes Keeps Reads ReturnsOn Same)

namespace Signoff.Action

open Office ActionConfig

variable {o : Office} {replies : List Reply} {calls : List Call} {heard : List Hearing}
  {kind : ActionKind} {item : Item} {config : Value} {event : Event} {automation : Option Int}

/-- An action of the kind calls another system. -/
def Calls (kind : ActionKind) : Prop := kind = .callWebhook ∨ kind = .apiCall

instance (kind : ActionKind) : Decidable (Calls kind) := inferInstanceAs (Decidable (_ ∨ _))

/-! ## Actions go by the tables -/

section Commuting

theorem commutes_tellUsers (item : Item) (config : Value) (automation : Option Int)
    (users : List Value) :
    Commutes (relayed replies calls heard) (tellUsers item config automation users) := by
  apply (Commutes.ofResult _).bind
  intro title
  apply (Commutes.ofResult _).bind
  intro message
  exact (commutes_notifyMany users _).discard

theorem commutes_targetBoard (config : Value) :
    Commutes (relayed replies calls heard) (targetBoard config) := by
  apply (Commutes.ofResult _).bind
  intro key
  exact commutes_requireBoard key

theorem commutes_copyCells (item copy : Item) :
    Commutes (relayed replies calls heard) (copyCells item copy) := by
  apply Commutes.get_of_eq
  · intro o
    rfl
  · intro o
    apply Commutes.bind
    · apply Commutes.forIn
      intro column _ _
      split
      · exact .pure _
      · split
        · exact .pure _
        · exact (commutes_writeCell _ _ _).bind fun _ => .pure _
    · intro _
      exact .pure _

theorem commutes_createItem (item : Item) (config : Value) (event : Event) :
    Commutes (relayed replies calls heard) (createItem item config event) := by
  apply (commutes_targetBoard config).bind
  intro board
  apply (Office.commutes_createItem _ _ _ _).bind
  intro copy
  exact .ite (commutes_copyCells item copy) (.pure _)

/-- An action that calls nobody does the same wherever the tables are the same. -/
theorem commutes_perform (hkind : ¬ Calls kind) (item : Item) (config : Value) (event : Event)
    (automation : Option Int) :
    Commutes (relayed replies calls heard) (perform kind item config event automation) := by
  have hwrite (name : String) (value : Value) : Commutes (relayed replies calls heard) (do
      Office.writeCell item.id (← Task.ofResult (need config name)) value) :=
    (Commutes.ofResult _).bind fun column => commutes_writeCell item.id column value
  cases kind with
  | changeStatus => exact (Commutes.ofResult _).bind fun status => (commutes_setStatus item status).discard
  | updateField => exact hwrite "columnId" _
  | clearField =>
    exact (Commutes.ofResult _).bind fun column => (commutes_deleteCells item.id column).discard
  | calculateFormula =>
    have hcalculate (formula : String) : Commutes (relayed replies calls heard) (do
        let amount ← Task.ofResult (Formula.evaluate formula (← Office.snapshot item))
        Office.writeCell item.id (← Task.ofResult (need config "columnId")) amount.toValue) := by
      apply (commutes_snapshot item).bind
      intro snapshot
      apply (Commutes.ofResult _).bind
      intro amount
      exact hwrite "columnId" _
    apply (Commutes.ofResult _).bind
    intro formula
    simp only
    split
    · exact (Commutes.pure _).bind hcalculate
    · exact (Commutes.throw _).bind hcalculate
  | copyField =>
    apply (Commutes.ofResult _).bind
    intro source
    apply (commutes_snapshot item).bind
    intro snapshot
    split
    · exact hwrite "columnId" _
    · exact .pure _
  | assignUser =>
    apply (Commutes.ofResult _).bind
    intro users
    exact hwrite "columnId" _
  | sendNotification =>
    exact (Commutes.ofResult _).bind fun users => commutes_tellUsers item config automation _
  | notifyUsers =>
    exact (Commutes.ofResult _).bind fun users => commutes_tellUsers item config automation _
  | notifyAssignees =>
    apply Commutes.get_of_eq
    · intro o
      rfl
    · intro o
      exact .ite (.pure _) (commutes_tellUsers item config automation _)
  | createItem => exact commutes_createItem item config event
  | moveToBoard =>
    apply (commutes_targetBoard config).bind
    intro board
    exact (commutes_changeItem item _).discard
  | callWebhook => exact absurd (.inl rfl) hkind
  | apiCall => exact absurd (.inr rfl) hkind

end Commuting

/-! ## Actions that fail -/

/-- Behind a call the tables are as in front. -/
theorem tables_callOut (kind : ActionKind) (item : Item) (config : Value) :
    Keeps (Same tables) (callOut kind item config) := by
  unfold callOut
  refine (Keeps.ofResult _).bind fun url => Keeps.get.bind fun o => ?_
  refine (Keeps.ofResult _).bind fun more => (Keeps.ofResult _).bind fun method => ?_
  refine (Keeps.ofResult _).bind fun headers => Keeps.bind ?_ fun result => .ite (.throw _) (.pure _)
  exact Keeps.get_set (fun _ => rfl) fun _ => .ofResult _

theorem tables_perform_of_calls (hkind : Calls kind) (item : Item) (config : Value) (event : Event)
    (automation : Option Int) :
    Keeps (Same tables) (perform kind item config event automation) := by
  rcases hkind with rfl | rfl
  · exact tables_callOut .callWebhook item config
  · exact tables_callOut .apiCall item config

theorem atomicAt_tellUsers (item : Item) (config : Value) (automation : Option Int)
    (users : List Value) : AtomicAt tables o (tellUsers item config automation users) := by
  apply AtomicAt.reads_bind (.ofResult _)
  intro title _
  apply AtomicAt.reads_bind (.ofResult _)
  intro message _
  exact (atomicAt_notifyMany users _).discard

theorem writable_of_filled {copy : Item} {o o' : Office} (h : Filled copy.id o o')
    (hwritable : Writable copy o) : Writable copy o' := by
  obtain ⟨cells, rfl, -⟩ := h
  exact ⟨hwritable.stored, hwritable.found, hwritable.columnsDistinct, hwritable.columnsStored⟩

/-- Every cell that is copied finds its place. -/
theorem returns_copyCells (item : Item) {copy : Item} (hwritable : Writable copy o) :
    ∃ u, (copyCells item copy).answer o = .ok u := by
  -- While cells are written, the columns and the copy stay where they are.
  let I : Office → Prop := fun o' => Writable copy o' ∧ o'.columns = o.columns
  have hwrite (c : Column) (hc : c ∈ o.columnsOf copy.boardId) (v : Value) :
      ReturnsOn I (writeCell copy.id (.int c.id) v) := by
    intro o' ⟨hwritable', hcolumns⟩
    obtain ⟨hmem, hboard⟩ := List.mem_filter.mp ((List.mergeSort_perm _ _).subset hc)
    have hfilled := filled_writeCell copy.id (.int c.id) v o'
    refine ⟨returns_writeCell hwritable' (hcolumns ▸ hmem) (beq_iff_eq.mp hboard) v,
      writable_of_filled hfilled hwritable', ?_⟩
    obtain ⟨cells, hcells, -⟩ := hfilled
    rw [hcells]
    exact hcolumns
  unfold copyCells
  rw [Task.answer_get_bind]
  have hloop := fun f h => (ReturnsOn.forIn (I := I) (k := f) (o.columnsOf item.boardId) h
    PUnit.unit).bind fun _ => .pure PUnit.unit
  refine (hloop _ ?_ o ⟨hwritable, rfl⟩).1
  intro column _ _
  split
  · exact .pure _
  · split
    · exact .pure _
    · next target htarget =>
      exact (hwrite target (List.mem_of_find?_eq_some htarget) _).bind fun _ => .pure _

/-- A new item can be written to, where there is room for it. -/
theorem writable_of_created {copy : Item} (hspace : o.Spacious 1) (hid : copy.id = o.items.nextKey) :
    Writable copy { o with items := o.items.add fun _ => copy } where
  stored := by
    have hroom := hspace.room
    have hleast := Table.zero_le_lastKey o.items
    have hfits : TextColumn.fits copy.id = true := by
      unfold Table.nextKey at hid
      unfold TextColumn.fits
      unfold TextColumn.bound at hroom ⊢
      simp only [Bool.and_eq_true, decide_eq_true_eq]
      omega
    unfold checkKey
    rw [if_pos hfits]
  found := by
    have hfound : (o.items.add fun _ => copy).get? o.items.nextKey = some copy :=
      Table.get?_add_new o.items hid
    rw [← hid] at hfound
    exact ⟨copy, hfound, rfl⟩
  columnsDistinct := hspace.columnsDistinct
  columnsStored := hspace.columnsStored

theorem atomicAt_createItem (hspace : o.Spacious 1) (item : Item) (config : Value) (event : Event) :
    AtomicAt tables o (createItem item config event) := by
  unfold createItem
  apply AtomicAt.reads_bind (reads_targetBoard config)
  intro board _
  simp only
  generalize ((may config "itemName").orElse (.text ("Automated: " ++ item.name))) = name
  generalize ((may config "status").orElse (.ofText? item.status)) = status
  apply (Office.atomicAt_createItem board.id name status _).bind
  intro copy hcopy
  rcases createItem_cases o board.id name status _ with
    ⟨fault, hexec⟩ | ⟨copy', hid, -, -, hexec⟩
  · rw [Task.answer, hexec] at hcopy
    cases hcopy
  · rw [Task.answer, hexec] at hcopy
    cases hcopy
    rw [Task.after, hexec]
    -- The new item is there, so none of its cells is refused.
    split
    · exact returns_copyCells item (writable_of_created hspace hid)
    · exact ⟨(), rfl⟩

/-- An action that fails has written no row. -/
theorem atomicAt_perform (hspace : o.Spacious 1) (kind : ActionKind) (item : Item) (config : Value)
    (event : Event) (automation : Option Int) :
    AtomicAt tables o (perform kind item config event automation) := by
  have hwrite (name : String) (value : Value) : AtomicAt tables o (do
      Office.writeCell item.id (← Task.ofResult (need config name)) value) :=
    .reads_bind (.ofResult _) fun column _ => atomicAt_writeCell item.id column value
  cases kind with
  | changeStatus =>
    exact .reads_bind (.ofResult _) fun status _ => (atomicAt_setStatus item status).discard
  | updateField => exact hwrite "columnId" _
  | clearField =>
    exact .reads_bind (.ofResult _) fun column _ => (atomicAt_deleteCells item.id column).discard
  | calculateFormula =>
    have hcalculate (formula : String) : AtomicAt tables o (do
        let amount ← Task.ofResult (Formula.evaluate formula (← Office.snapshot item))
        Office.writeCell item.id (← Task.ofResult (need config "columnId")) amount.toValue) := by
      apply AtomicAt.reads_bind (reads_snapshot item)
      intro snapshot _
      apply AtomicAt.reads_bind (.ofResult _)
      intro amount _
      exact hwrite "columnId" _
    apply AtomicAt.reads_bind (.ofResult _)
    intro formula _
    simp only
    split
    · exact .reads_bind (.pure _) fun formula _ => hcalculate formula
    · exact .reads_bind (.throw _) fun formula _ => hcalculate formula
  | copyField =>
    apply AtomicAt.reads_bind (.ofResult _)
    intro source _
    apply AtomicAt.reads_bind (reads_snapshot item)
    intro snapshot _
    split
    · exact hwrite "columnId" _
    · exact .of_returns ⟨(), rfl⟩
  | assignUser =>
    apply AtomicAt.reads_bind (.ofResult _)
    intro users _
    exact hwrite "columnId" _
  | sendNotification =>
    exact .reads_bind (.ofResult _) fun users _ => atomicAt_tellUsers item config automation _
  | notifyUsers =>
    exact .reads_bind (.ofResult _) fun users _ => atomicAt_tellUsers item config automation _
  | notifyAssignees =>
    apply AtomicAt.reads_bind .get
    intro o' _
    simp only
    split
    · exact .of_returns ⟨(), rfl⟩
    · exact atomicAt_tellUsers item config automation _
  | createItem => exact atomicAt_createItem hspace item config event
  | moveToBoard =>
    apply AtomicAt.reads_bind (reads_targetBoard config)
    intro board _
    exact (atomicAt_changeItem item _).discard
  | callWebhook => exact .of_keeps (tables_callOut .callWebhook item config)
  | apiCall => exact .of_keeps (tables_callOut .apiCall item config)

theorem atomicAt_execute (hspace : o.Spacious 1) (type config : Value) (event : Event)
    (automation : Option Int) : AtomicAt tables o (execute type config event automation) := by
  apply AtomicAt.reads_bind (.ofResult _)
  intro kind _
  apply AtomicAt.reads_bind (reads_requireItem event.itemId true)
  intro item _
  exact atomicAt_perform hspace kind item config event automation

/-! ## Room for new items -/

/-- An action makes one item at most. -/
theorem spacious_of_effect {o' : Office} {n : Nat} (hspace : o.Spacious (n + 1))
    (h : Effect kind item config o o') : o'.Spacious n := by
  have hsame {o' : Office} (hcolumns : o'.columns = o.columns)
      (hitems : o'.items.lastKey ≤ o.items.lastKey + 1) : o'.Spacious n := by
    refine ⟨hcolumns ▸ hspace.columnsDistinct, hcolumns ▸ hspace.columnsStored, ?_⟩
    have hroom := hspace.room
    push_cast at hroom
    omega
  have hmodified {f : Item → Item} (hf : ∀ i, (f i).id = i.id) :
      (o.items.modify item.id f).lastKey ≤ o.items.lastKey + 1 := by
    have hid : ∀ i : Item, Row.key i = item.id → Row.key (f i) = item.id := fun i hi =>
      (hf i).trans hi
    have hkeys := Table.lastKey_congr (Table.keys_modify o.items hid)
    omega
  cases h with
  | none => exact hsame rfl (by omega)
  | restated => exact hsame rfl (hmodified fun _ => rfl)
  | filled hfilled =>
    obtain ⟨cells, rfl, -⟩ := hfilled
    exact hsame rfl (by show o.items.lastKey ≤ _; omega)
  | noticed => exact hsame rfl (by show o.items.lastKey ≤ _; omega)
  | @created copy _ _ _ hid hfilled =>
    obtain ⟨cells, rfl, -⟩ := hfilled
    have hkey := Table.nextKey_append o.items hid
    unfold Table.nextKey at hkey
    have hadded : (o.items.add fun _ => copy).lastKey = o.items.lastKey + 1 := by
      show Table.lastKey ⟨o.items.rows ++ [copy]⟩ = _
      omega
    exact hsame rfl (Int.le_of_eq hadded)
  | moved => exact hsame rfl (hmodified fun _ => rfl)
  | called => exact hsame rfl (by show o.items.lastKey ≤ _; omega)

theorem spacious_execute {n : Nat} (hspace : o.Spacious (n + 1)) (type config : Value)
    (event : Event) (automation : Option Int) :
    ((execute type config event automation).after o).Spacious n := by
  rcases effect_execute type config event automation o with hsame | ⟨kind, item, -, -, heffect⟩
  · rw [hsame]
    exact hspace.mono (Nat.le_succ n)
  · exact spacious_of_effect hspace heffect

/-! ## One action -/

/-- The text of a fault, where there is one. -/
def failureOf : Result Unit → Option String
  | .ok _ => none
  | .error fault => some fault.text

/-- A single action always gets a result, which names its type and tells whether it failed. -/
theorem exec_executeOne (event : Event) (automation : Option Int) {action : Value}
    (h : ∃ fields, action = .object fields) (o : Office) :
    (executeOne event automation action).exec o =
      (.ok ⟨typeOf action, failureOf ((executing action event automation).answer o)⟩,
        (executing action event automation).after o) := by
  obtain ⟨fields, rfl⟩ := h
  have hfields : (Value.object fields).orElse (.object []) = .object fields := by
    cases fields <;> rfl
  have hone : executeOne event automation (.object fields) = (do
      match ← Task.attempt (executing (.object fields) event automation) with
      | .ok _ => pure ⟨Fields.get fields "type", none⟩
      | .error fault => pure ⟨Fields.get fields "type", some fault.text⟩) := by
    unfold executeOne
    rw [hfields]
    rfl
  rw [hone, Task.exec_bind, Task.exec_attempt]
  unfold Task.answer Task.after
  rcases (executing (.object fields) event automation).exec o with ⟨fault | u, o'⟩
  · rfl
  · rfl

theorem executing_of_kind {action : Value} {kind : ActionKind} (h : kindOf (typeOf action) = .ok kind) :
    executing action event automation = (do
      let item ← requireItem event.itemId true
      perform kind item (configOf action) event automation) := by
  unfold executing execute
  rw [h]
  exact pure_bind kind _

theorem executing_of_unknown {action : Value} {fault : Fault}
    (h : kindOf (typeOf action) = .error fault) :
    (executing action event automation).exec o = (.error fault, o) := by
  unfold executing execute
  rw [h]
  rfl

/-- An action makes the same of tables that are the same. -/
theorem tables_executing (action : Value) {o o' : Office} (h : o'.tables = o.tables) :
    ((executing action event automation).after o').tables =
      ((executing action event automation).after o).tables := by
  cases hkind : kindOf (typeOf action) with
  | error fault =>
    rw [Task.after, Task.after, executing_of_unknown hkind, executing_of_unknown hkind]
    exact h
  | ok kind =>
    by_cases hcalls : Calls kind
    · -- A call leaves both offices as they are, whatever it is answered.
      have hkeeps : Keeps (Same tables) (executing action event automation) := by
        rw [executing_of_kind hkind]
        refine (reads_requireItem event.itemId true).keeps.bind fun item => ?_
        exact tables_perform_of_calls hcalls item _ event automation
      exact (hkeeps o').trans (h.trans (hkeeps o).symm)
    · have hcommutes : Commutes (relayed o'.replies o'.calls o'.heard)
          (executing action event automation) := by
        rw [executing_of_kind hkind]
        apply (commutes_requireItem event.itemId true).bind
        intro item
        exact commutes_perform hcalls item _ event automation
      rw [eq_relayed_of_tables h, hcommutes.after_eq, tables_relayed]

/-! ## All of them -/

/-- The actions are executed one after another, each of them gets a result, and one that fails leaves all
    tables as it found them. -/
inductive Executed (event : Event) (automation : Option Int) :
    Office → List Value → List ActionResult → Office → Prop where
  | nil (o : Office) : Executed event automation o [] [] o
  | cons {o o' o'' : Office} {action : Value} {rest : List Value} {r : ActionResult}
      {results : List ActionResult}
      (hone : (executeOne event automation action).exec o = (.ok r, o'))
      (htype : r.type = typeOf action) (hfailed : r.succeeded = false → o'.tables = o.tables)
      (hrest : Executed event automation o' rest results o'') :
      Executed event automation o (action :: rest) (r :: results) o''

/-- The actions that succeeded. -/
def succeeded (actions : List Value) (results : List ActionResult) : List Value :=
  ((actions.zip results).filter fun entry => entry.2.succeeded).map (·.1)

theorem exec_executeAll (actions : List Value) (event : Event) (automation : Option Int)
    (o : Office) :
    (executeAll (.list actions) event automation).exec o =
      (actions.mapM (executeOne event automation)).exec o := by
  cases actions <;> rfl

/-- Whatever becomes of the actions, each of them gets a result, in order. -/
theorem returns_executeAll {actions : List Value}
    (hobjects : ∀ a ∈ actions, ∃ fields, a = .object fields) (event : Event)
    (automation : Option Int) (o : Office) :
    ∃ results, (executeAll (.list actions) event automation).answer o = .ok results ∧
      results.map (·.type) = actions.map typeOf := by
  rw [Task.answer, exec_executeAll]
  induction actions generalizing o with
  | nil => exact ⟨[], rfl, rfl⟩
  | cons action rest ih =>
    have hone := exec_executeOne event automation
      (hobjects action (List.mem_cons_self ..)) o
    obtain ⟨results, hrest, htypes⟩ := ih (fun a ha => hobjects a (List.mem_cons_of_mem _ ha))
      ((executing action event automation).after o)
    refine ⟨⟨typeOf action, failureOf ((executing action event automation).answer o)⟩ :: results,
      ?_, ?_⟩
    · rw [List.mapM_cons, Task.exec_bind_ok hone, Task.exec_bind_ok (Prod.ext hrest rfl)]
      rfl
    · rw [List.map_cons, List.map_cons, htypes]

/-- By induction on the actions: none of them keeps the others from being executed. -/
theorem executed_mapM {actions : List Value} (hobjects : ∀ a ∈ actions, ∃ fields, a = .object fields)
    (hspace : o.Spacious actions.length) (event : Event) (automation : Option Int) :
    ∃ results o', (actions.mapM (executeOne event automation)).exec o = (.ok results, o') ∧
      Executed event automation o actions results o' := by
  induction actions generalizing o with
  | nil => exact ⟨[], o, rfl, .nil o⟩
  | cons action rest ih =>
    have hone := exec_executeOne event automation
      (hobjects action (List.mem_cons_self ..)) o
    have hspace' : ((executing action event automation).after o).Spacious rest.length :=
      spacious_execute hspace _ _ event automation
    obtain ⟨results, o', hexec, hexecuted⟩ :=
      ih (fun a ha => hobjects a (List.mem_cons_of_mem _ ha)) hspace'
    refine ⟨_ :: results, o', ?_, .cons hone rfl ?_ hexecuted⟩
    · rw [List.mapM_cons, Task.exec_bind_ok hone, Task.exec_bind_ok hexec]
      rfl
    · -- A result with a failure comes from a fault.
      intro hfailed
      cases hanswer : (executing action event automation).answer o with
      | ok _ =>
        rw [hanswer] at hfailed
        cases hfailed
      | error fault =>
        have hone : o.Spacious 1 := hspace.mono (Nat.succ_le_succ (Nat.zero_le _))
        exact atomicAt_execute hone _ _ event automation fault hanswer

/-- Every action gets its result. -/
theorem Executed.types {o o' : Office} {actions : List Value} {results : List ActionResult}
    (h : Executed event automation o actions results o') :
    results.map (·.type) = actions.map typeOf := by
  induction h with
  | nil => rfl
  | cons _ htype _ _ ih => rw [List.map_cons, List.map_cons, htype, ih]

/-- The actions that succeeded make the same tables by themselves: in front of each of them the tables are
    the same as among the others. -/
theorem Executed.tables_succeeded {o o' : Office} {actions : List Value}
    {results : List ActionResult} (h : Executed event automation o actions results o')
    (hobjects : ∀ a ∈ actions, ∃ fields, a = .object fields) {o₁ : Office}
    (hsame : o₁.tables = o.tables) :
    (((succeeded actions results).mapM (executeOne event automation)).after o₁).tables =
      o'.tables := by
  induction h generalizing o₁ with
  | nil o => exact hsame
  | @cons o o' o'' action rest r results hone _ hfailed _ ih =>
    have hobject := hobjects action (List.mem_cons_self ..)
    have hrest : ∀ a ∈ rest, ∃ fields, a = .object fields := fun a ha =>
      hobjects a (List.mem_cons_of_mem _ ha)
    cases hr : r.succeeded with
    | false =>
      have hskipped : succeeded (action :: rest) (r :: results) = succeeded rest results := by
        simp [succeeded, hr]
      rw [hskipped]
      exact ih hrest (hsame.trans (hfailed hr).symm)
    | true =>
      have hkept : succeeded (action :: rest) (r :: results) = action :: succeeded rest results := by
        simp [succeeded, hr]
      have hagain := exec_executeOne event automation hobject o₁
      rw [exec_executeOne event automation hobject] at hone
      obtain rfl : (executing action event automation).after o = o' := congrArg Prod.snd hone
      rw [hkept, List.mapM_cons, Task.after, Task.exec_bind_ok hagain]
      refine (Keeps.same_after_bind fun _ => .pure _).trans ?_
      exact ih hrest (tables_executing action hsame)

theorem objects_of_validated {actions : List Value} (h : ∀ a ∈ actions, Validated a) :
    ∀ a ∈ actions, ∃ fields, a = .object fields := by
  intro a ha
  obtain ⟨kind, config, rfl⟩ := (h a ha).eq_object
  exact ⟨_, rfl⟩

/-- Actions that have passed their checks are executed one after another: each gets a result, in order; one
    that fails leaves all tables as it found them; and executing only those that succeeded, whatever the
    calls are answered then, makes the same tables. -/
theorem actions_isolated {actions : List Value} (hvalid : ∀ a ∈ actions, Validated a)
    (hspace : o.Spacious actions.length) (event : Event) (automation : Option Int) :
    ∃ results, (executeAll (.list actions) event automation).answer o = .ok results ∧
      results.map (·.type) = actions.map typeOf ∧
      Executed event automation o actions results
        ((executeAll (.list actions) event automation).after o) ∧
      ∀ replies,
        ((executeAll (.list (succeeded actions results)) event automation).after
            { o with replies := replies }).tables =
          ((executeAll (.list actions) event automation).after o).tables := by
  have hobjects := objects_of_validated hvalid
  obtain ⟨results, o', hexec, hexecuted⟩ := executed_mapM hobjects hspace event automation
  have hall : (executeAll (.list actions) event automation).exec o = (.ok results, o') := by
    rw [exec_executeAll, hexec]
  refine ⟨results, ?_, hexecuted.types, ?_, fun replies => ?_⟩
  · rw [Task.answer, hall]
  · rw [Task.after, hall]
    exact hexecuted
  · have hsame : ({ o with replies := replies } : Office).tables = o.tables := rfl
    rw [Task.after, Task.after, hall, exec_executeAll]
    exact hexecuted.tables_succeeded hobjects hsame

/-- A move to a board that is not there. -/
def lostMove : Value :=
  .object [("type", .text "move_to_board"), ("config", .object [("targetBoardId", .int 7)])]

/-- A change of status. -/
def plainChange : Value :=
  .object [("type", .text "change_status"), ("config", .object [("status", .text "Done")])]

/-- On the small site a move fails and the change behind it is made, as it would be alone. -/
theorem actions_isolated_small :
    let event : Event := { itemId := 1, boardId := 1, user := some "A", kind := .itemUpdated }
    ∃ results, (executeAll (.list [lostMove, plainChange]) event none).answer Site.small.office =
        .ok results ∧
      results.map (·.succeeded) = [false, true] ∧
      ((executeAll (.list [plainChange]) event none).after Site.small.office).tables =
        ((executeAll (.list [lostMove, plainChange]) event none).after Site.small.office).tables := by
  intro event
  have hvalid : ∀ a ∈ [lostMove, plainChange], Validated a := by
    have hmove : Validated lostMove := ⟨lostMove, by with_unfolding_all rfl⟩
    have hchange : Validated plainChange := ⟨plainChange, by with_unfolding_all rfl⟩
    simp [hmove, hchange]
  have hspace : Site.small.office.Spacious 2 :=
    ⟨List.nodup_nil, by simp [Site.small], by decide +kernel⟩
  obtain ⟨results, hanswer, -, -, hsame⟩ := actions_isolated hvalid hspace event none
  have houtcome : ((executeAll (.list [lostMove, plainChange]) event none).answer
      Site.small.office).toOption.map (fun rs => rs.map (·.succeeded)) = some [false, true] := by
    decide +kernel
  rw [hanswer] at houtcome
  have hsucceeded : results.map (·.succeeded) = [false, true] := Option.some.inj houtcome
  refine ⟨results, hanswer, hsucceeded, ?_⟩
  -- Only the change is among the actions that succeeded.
  have honly : succeeded [lostMove, plainChange] results = [plainChange] := by
    obtain ⟨moved, rest, rfl, hmoved, hrest⟩ := List.map_eq_cons_iff.mp hsucceeded
    obtain ⟨changed, others, rfl, hchanged, hothers⟩ := List.map_eq_cons_iff.mp hrest
    obtain rfl := List.map_eq_nil_iff.mp hothers
    simp [succeeded, hmoved, hchanged]
  have halone := hsame []
  rw [honly] at halone
  exact halone

end Signoff.Action
