import Signoff.Proofs.Office.Fixtures

/-! # What one action does

    An action on an item writes one kind of row at most. What it does to the
    office is told once, case by case, and everything else about actions follows
    from the cases:

    * `Office.CellsWritten`: only cells of one item were written.
    * `Action.Targets`: the board that a configuration names.
    * `Action.Effect`: what an action of a kind may do to the office.
    * `effect_perform`, `effect_execute`: and does no more.
-/

open Signoff.Task (Keeps Reads Same)

namespace Signoff

namespace Office

/-! ## Cells of one item -/

/-- Only cells of the item were written: those of others are as they were. -/
def CellsWritten (itemId : Int) (t t' : Table Cell) : Prop :=
  t.KeysDistinct → t'.KeysDistinct ∧ ∀ c : Cell, c.itemId ≠ itemId → (c ∈ t'.rows ↔ c ∈ t.rows)

namespace CellsWritten

variable {itemId : Int} {t t' t'' : Table Cell}

theorem refl (t : Table Cell) : CellsWritten itemId t t := fun h => ⟨h, fun _ _ => Iff.rfl⟩

theorem trans (h : CellsWritten itemId t t') (h' : CellsWritten itemId t' t'') :
    CellsWritten itemId t t'' := by
  intro hkeys
  obtain ⟨hkeys', hothers⟩ := h hkeys
  obtain ⟨hkeys'', hothers'⟩ := h' hkeys'
  exact ⟨hkeys'', fun c hc => (hothers' c hc).trans (hothers c hc)⟩

theorem modify {cell : Cell} (hcell : cell ∈ t.rows) (hitem : cell.itemId = itemId)
    (f : Value → Value) :
    CellsWritten itemId t (t.modify cell.id fun row => { row with value := f row.value }) := by
  intro hkeys
  refine ⟨hkeys.modify cell.id fun _ hkey => hkey, fun c hc => ?_⟩
  -- With distinct keys, the row that is changed is the cell of the item.
  have hrow : ∀ row ∈ t.rows, Row.key row = cell.id → row = cell := fun row hrow hkey =>
    hkeys.eq_of_key_eq hrow hcell hkey
  constructor
  · intro hmem
    obtain ⟨row, hmem, hchanged⟩ := List.mem_map.mp hmem
    split at hchanged
    · next hkey =>
      obtain rfl := hrow row hmem (beq_iff_eq.mp hkey)
      subst hchanged
      exact absurd hitem hc
    · rwa [← hchanged]
  · intro hmem
    refine List.mem_map.mpr ⟨c, hmem, if_neg fun hkey => hc ?_⟩
    rw [hrow c hmem (beq_iff_eq.mp hkey), hitem]

theorem add (make : Int → Cell) (hkey : ∀ id, (make id).id = id)
    (hitem : ∀ id, (make id).itemId = itemId) : CellsWritten itemId t (t.add make) := by
  intro hkeys
  constructor
  · exact hkeys.add (hkey t.nextKey)
  · intro c hc
    rw [Table.rows_add, List.mem_append, List.mem_singleton]
    refine ⟨fun hmem => hmem.resolve_right fun hnew => hc ?_, .inl⟩
    rw [hnew, hitem]

theorem eraseWhere (test : Cell → Bool) (htest : ∀ c, test c = true → c.itemId = itemId) :
    CellsWritten itemId t (t.eraseWhere test) := by
  intro hkeys
  refine ⟨List.Nodup.sublist (List.filter_sublist.map _) hkeys, fun c hc => ?_⟩
  rw [Table.eraseWhere, List.mem_filter]
  refine ⟨fun h => h.1, fun hmem => ⟨hmem, ?_⟩⟩
  cases hmeant : test c with
  | false => rfl
  | true => exact absurd (htest c hmeant) hc

end CellsWritten

/-- Nothing but cells of the item were written. -/
def Filled (itemId : Int) (o o' : Office) : Prop :=
  ∃ cells, o' = { o with cells := cells } ∧ CellsWritten itemId o.cells cells

instance (itemId : Int) : Std.Refl (Filled itemId) := ⟨fun o => ⟨o.cells, rfl, .refl _⟩⟩

instance (itemId : Int) : IsTrans Office (Filled itemId) where
  trans := by
    rintro o o' o'' ⟨cells, rfl, hwritten⟩ ⟨cells', rfl, hwritten'⟩
    exact ⟨cells', rfl, hwritten.trans hwritten'⟩

theorem filled_writeCell (itemId : Int) (column value : Value) :
    Keeps (Filled itemId) (writeCell itemId column value) := by
  refine keeps_writeCell_of_withCell (fun o columnId value => ⟨_, withCell_eq .., ?_⟩) column value
  unfold withCell
  split
  · next cell hcell =>
    obtain ⟨hmem, hitem⟩ := mem_cellsOf.mp (of_cell? hcell).1
    exact .modify hmem hitem fun v => JsonColumn.write v value
  · exact .add _ (fun _ => rfl) fun _ => rfl

theorem filled_deleteCells (itemId : Int) (column : Value) :
    Keeps (Filled itemId) (deleteCells itemId column) :=
  keeps_deleteCells_of_erase (fun _ test htest => ⟨_, rfl, .eraseWhere test htest⟩) column

/-! ## New items -/

/-- A new item gets the next key, or nothing is written. -/
theorem createItem_cases (o : Office) (boardId : Int) (name status : Value) (createdBy : String) :
    (∃ fault, (createItem boardId name status createdBy).exec o = (.error fault, o)) ∨
      ∃ item : Item, item.id = o.items.nextKey ∧ item.boardId = boardId ∧
        item.createdBy = createdBy ∧
        (createItem boardId name status createdBy).exec o =
          (.ok item, { o with items := o.items.add fun _ => item }) := by
  unfold createItem
  rw [Task.exec_bind, Task.exec_ofResult]
  cases TextColumn.keep 2 name with
  | error fault => exact .inl ⟨fault, rfl⟩
  | ok name? =>
    simp only
    rw [Task.exec_bind, Task.exec_ofResult]
    cases TextColumn.keep 3 (status.orElse (.text "")) with
    | error fault => exact .inl ⟨fault, rfl⟩
    | ok status =>
      simp only
      rw [Task.exec_bind, Task.exec_ofResult]
      cases TextColumn.filled "items.name" name? with
      | error fault => exact .inl ⟨fault, rfl⟩
      | ok name => exact .inr ⟨_, rfl, rfl, rfl, rfl⟩

end Office

namespace Action

open Office ActionConfig

/-! ## Effects -/

/-- The configuration names the board as the one that the action is about. -/
def Targets (config : Value) (boardId : Int) : Prop :=
  ∃ v, need config "targetBoardId" = .ok v ∧ v.key? = .ok (some boardId)

/-- What an action of the kind may do to the office. -/
inductive Effect (kind : ActionKind) (item : Item) (config : Value) (o : Office) : Office → Prop where
  | none : Effect kind item config o o
  /-- The status of the item is changed. -/
  | restated (status : Option String) :
    Effect kind item config o
      { o with items := o.items.modify item.id fun i => { i with status } }
  /-- Cells of the item are written. -/
  | filled {o' : Office} (h : Filled item.id o o') : Effect kind item config o o'
  /-- Users are told something. -/
  | noticed (new : List Notification) (h : ∀ n ∈ new, n.type = "automation") :
    Effect kind item config o { o with notifications := ⟨o.notifications.rows ++ new⟩ }
  /-- A new item is put on the board that the configuration names. -/
  | created {copy : Item} {o' : Office} (hkind : kind = .createItem)
      (hboard : Targets config copy.boardId) (hid : copy.id = o.items.nextKey)
      (hcells : Filled copy.id { o with items := o.items.add fun _ => copy } o') :
    Effect kind item config o o'
  /-- The item is put on the board that the configuration names. -/
  | moved {boardId : Int} (hkind : kind = .moveToBoard) (hboard : Targets config boardId) :
    Effect kind item config o
      { o with items := o.items.modify item.id fun i => { i with boardId } }
  /-- Another system is called. -/
  | called (replies : List Reply) (calls : List Call) :
    Effect kind item config o { o with replies := replies, calls := calls }

variable {kind : ActionKind} {item : Item} {config : Value} {o : Office}

instance (kind : ActionKind) (item : Item) (config : Value) :
    Std.Refl (Effect kind item config) := ⟨fun _ => .none⟩

theorem effect_tellUsers (automation : Option Int) (users : List Value) (o : Office) :
    Effect kind item config o ((tellUsers item config automation users).after o) := by
  unfold tellUsers
  apply Reads.rel_bind (.ofResult _)
  intro title _
  apply Reads.rel_bind (.ofResult _)
  intro message _
  rw [Task.after_discard]
  apply Reads.rel_bind (.ofResult _)
  intro users _
  apply Reads.rel_bind (.ofResult _)
  intro makers hmakers
  rw [Task.answer_ofResult] at hmakers
  have htype : ∀ make ∈ makers, ∀ id, (make id o.clock).type = "automation" := by
    intro make hmake id
    obtain ⟨user, -, hkept⟩ := Result.exists_of_mapM hmakers hmake
    exact type_of_keepNotice hkept id o.clock
  obtain ⟨new, hnew, hall⟩ :=
    rows_foldl_add (P := fun n => n.type = "automation") htype o.notifications
  rw [Task.after_get_bind]
  have heffect : Effect kind item config o
      { o with notifications := ⟨o.notifications.rows ++ new⟩ } := .noticed new hall
  rw [← hnew] at heffect
  exact heffect

/-- The board that is looked up is the one that the configuration names. -/
theorem targets_of_targetBoard {b : Board} (h : (targetBoard config).answer o = .ok b) :
    Targets config b.id := by
  unfold targetBoard at h
  rw [Reads.answer_bind (.ofResult _), Task.answer_ofResult] at h
  obtain ⟨key, hkey, h⟩ := Result.bind_eq_ok h
  obtain ⟨n, hn, hget⟩ := get?_of_requireBoard h
  have hid : b.id = n := (Table.mem_of_get? hget).2
  exact ⟨key, hkey, hid ▸ hn⟩

theorem reads_targetBoard (config : Value) : Reads (targetBoard config) :=
  (Keeps.ofResult _).bind fun key => reads_requireBoard key

/-- Copying cells writes cells of the copy only. -/
theorem filled_copyCells (item copy : Item) : Keeps (Filled copy.id) (copyCells item copy) := by
  refine Keeps.get.bind fun o => Keeps.bind (Keeps.forIn _ (fun column _ _ => ?_) _) fun _ => .pure _
  split
  · exact .pure _
  · split
    · exact .pure _
    · exact (filled_writeCell _ _ _).bind fun _ => .pure _

theorem effect_createItem (event : Event) (o : Office) :
    Effect .createItem item config o ((createItem item config event).after o) := by
  unfold createItem
  apply (reads_targetBoard config).rel_bind
  intro board hboard
  have htarget := targets_of_targetBoard hboard
  simp only
  generalize ((may config "itemName").orElse (.text ("Automated: " ++ item.name))) = name
  generalize ((may config "status").orElse (.ofText? item.status)) = status
  rw [Task.after, Task.exec_bind]
  rcases createItem_cases o board.id name status _ with
    ⟨fault, hexec⟩ | ⟨copy, hid, hcopy, -, hexec⟩
  · rw [hexec]
    exact .none
  · rw [hexec]
    refine .created rfl (hcopy ▸ htarget) hid ?_
    -- Behind the new item there are only its cells to be written.
    have hcells : Keeps (Filled copy.id)
        (if (may config "copyCells").truthy then copyCells item copy else pure ()) :=
      .ite (filled_copyCells item copy) (.pure _)
    exact hcells _

theorem effect_callOut (out : ActionKind) (o : Office) :
    Effect kind item config o ((callOut out item config).after o) := by
  unfold callOut
  apply Reads.rel_bind (.ofResult _)
  intro url _
  apply Reads.rel_bind .get
  intro o' _
  apply Reads.rel_bind (.ofResult _)
  intro more _
  apply Reads.rel_bind (.ofResult _)
  intro method _
  apply Reads.rel_bind (.ofResult _)
  intro headers _
  have hsend (call : Call) (f : CallResult → OfficeTask Unit) (hf : ∀ r, Reads (f r)) :
      Effect kind item config o ((send call >>= f).after o) := by
    have hafter : (send call >>= f).after o = (send call).after o :=
      Keeps.same_after_bind hf
    rw [hafter]
    unfold send
    rw [Task.after_get_bind]
    have hresult (r : Result CallResult) (o' : Office) :
        (Task.ofResult r : OfficeTask CallResult).after o' = o' := by
      rw [Task.after, Task.exec_ofResult]
    show Effect kind item config o ((Task.ofResult _ : OfficeTask CallResult).after _)
    rw [hresult]
    exact .called _ _
  exact hsend _ _ fun r => .ite (.throw _) (.pure _)

/-- Performing an action has an effect of its kind. -/
theorem effect_perform (kind : ActionKind) (item : Item) (config : Value) (event : Event)
    (automation : Option Int) (o : Office) :
    Effect kind item config o ((perform kind item config event automation).after o) := by
  have hwrite (column value : Value) :
      Effect kind item config o ((writeCell item.id column value).after o) :=
    .filled (filled_writeCell item.id column value o)
  cases kind with
  | changeStatus =>
    apply Reads.rel_bind (.ofResult _)
    intro status _
    rw [Task.after_discard]
    apply Reads.rel_bind (.ofResult _)
    intro status _
    exact .restated status
  | updateField =>
    apply Reads.rel_bind (.ofResult _)
    intro column _
    exact hwrite column _
  | clearField =>
    apply Reads.rel_bind (.ofResult _)
    intro column _
    rw [Task.after_discard]
    exact .filled (filled_deleteCells item.id column o)
  | calculateFormula =>
    -- What follows the formula is the same, whether it is a text or not.
    have hcalculate (formula : String) : Effect .calculateFormula item config o (Task.after (do
        let amount ← Task.ofResult (Formula.evaluate formula (← Office.snapshot item))
        Office.writeCell item.id (← Task.ofResult (ActionConfig.need config "columnId"))
          amount.toValue) o) := by
      apply (reads_snapshot item).rel_bind
      intro snapshot _
      apply Reads.rel_bind (.ofResult _)
      intro amount _
      apply Reads.rel_bind (.ofResult _)
      intro column _
      exact hwrite column _
    apply Reads.rel_bind (.ofResult _)
    intro formula _
    simp only
    split
    · rw [pure_bind]
      exact hcalculate _
    · apply Reads.rel_bind (.throw _)
      intro _ hthrown
      cases hthrown
  | copyField =>
    apply Reads.rel_bind (.ofResult _)
    intro source _
    apply (reads_snapshot item).rel_bind
    intro snapshot _
    split
    · apply Reads.rel_bind (.ofResult _)
      intro column _
      exact hwrite column _
    · exact .none
  | assignUser =>
    apply Reads.rel_bind (.ofResult _)
    intro users _
    apply Reads.rel_bind (.ofResult _)
    intro column _
    exact hwrite column _
  | sendNotification =>
    apply Reads.rel_bind (.ofResult _)
    intro users _
    exact effect_tellUsers automation _ o
  | notifyUsers =>
    apply Reads.rel_bind (.ofResult _)
    intro users _
    exact effect_tellUsers automation _ o
  | notifyAssignees =>
    apply Reads.rel_bind .get
    intro o' _
    simp only
    split
    · exact .none
    · exact effect_tellUsers automation _ o
  | createItem => exact effect_createItem event o
  | moveToBoard =>
    apply (reads_targetBoard config).rel_bind
    intro board hboard
    rw [Task.after_discard]
    exact .moved rfl (targets_of_targetBoard hboard)
  | callWebhook => exact effect_callOut .callWebhook o
  | apiCall => exact effect_callOut .apiCall o

/-! ## Executing -/

/-- What an action has under `type`. -/
def typeOf : Value → Value
  | .object fields => Fields.get fields "type"
  | _ => .null

/-- What an action has under `config`, or an empty configuration. -/
def configOf : Value → Value
  | .object fields => (Fields.get fields "config").orElse (.object [])
  | _ => .object []

/-- Executing an action that is an object. -/
def executing (action : Value) (event : Event) (automation : Option Int) : OfficeTask Unit :=
  execute (typeOf action) (configOf action) event automation

/-- Executing an action has an effect of its kind on the item of the event, or none. -/
theorem effect_execute (type config : Value) (event : Event) (automation : Option Int)
    (o : Office) :
    (execute type config event automation).after o = o ∨
      ∃ kind item, kindOf type = .ok kind ∧
        (requireItem event.itemId true).answer o = .ok item ∧
        Effect kind item config o ((execute type config event automation).after o) := by
  unfold execute Task.after
  rw [Reads.exec_bind (.ofResult _), Task.answer_ofResult]
  cases hkind : kindOf type with
  | error fault => exact .inl rfl
  | ok kind =>
    simp only
    rw [(reads_requireItem event.itemId true).exec_bind]
    cases hitem : (requireItem event.itemId true).answer o with
    | error fault => exact .inl rfl
    | ok item => exact .inr ⟨kind, item, rfl, rfl, effect_perform kind item config event automation o⟩

variable {R : Office → Office → Prop} [Std.Refl R] [IsTrans Office R]

/-- Something without a type is not executed. -/
theorem reads_execute_null (config : Value) (event : Event) (automation : Option Int) :
    Reads (execute .null config event automation) := fun _ => rfl

/-- What is kept by executing each of the actions is kept by all actions together. -/
theorem keeps_executeAll_of_executing {event : Event} {automation : Option Int} {actions : Value}
    (h : ∀ list, actions.items = .ok list → ∀ action ∈ list,
      Keeps R (executing action event automation)) :
    Keeps R (executeAll actions event automation) := by
  have hone {action : Value} (haction : Keeps R (executing action event automation)) :
      Keeps R (executeOne event automation action) := by
    unfold executeOne Value.orElse
    split
    · next fields hfields =>
      have hexecute : Keeps R (execute (Fields.get fields "type")
          (Value.orElse (Fields.get fields "config") (.object [])) event automation) := by
        split at hfields
        · rw [hfields] at haction
          exact haction
        · -- Something empty counts as an object without fields.
          cases hfields
          exact (reads_execute_null _ event automation).keeps
      refine hexecute.attempt.bind fun result => ?_
      cases result with
      | ok _ => exact .pure _
      | error fault => exact .pure _
    · exact .throw _
  intro o
  apply Reads.rel_bind (.ofResult _)
  intro list hlist
  rw [Task.answer_ofResult] at hlist
  split at hlist
  · exact Keeps.mapM list (fun action haction => hone (h list hlist action haction)) o
  · cases hlist
    exact Std.Refl.refl o

/-- What every effect keeps is kept by all actions together. -/
theorem keeps_of_effect
    (h : ∀ {kind item config o o'}, Effect kind item config o o' → R o o') (actions : Value)
    (event : Event) (automation : Option Int) :
    Keeps R (executeAll actions event automation) := by
  refine keeps_executeAll_of_execute (fun type config o => ?_) actions
  rcases effect_execute type config event automation o with hsame | ⟨kind, item, -, -, heffect⟩
  · rw [hsame]
    exact Std.Refl.refl o
  · exact h heffect

/-- Actions write no log. -/
theorem logs_executeAll (actions : Value) (event : Event) (automation : Option Int) :
    Keeps (Same Office.logs) (executeAll actions event automation) := by
  refine keeps_of_effect (fun heffect => ?_) actions event automation
  cases heffect with
  | filled h =>
    obtain ⟨cells, rfl, -⟩ := h
    rfl
  | created _ _ _ h =>
    obtain ⟨cells, rfl, -⟩ := h
    rfl
  | _ => rfl

end Action

end Signoff
