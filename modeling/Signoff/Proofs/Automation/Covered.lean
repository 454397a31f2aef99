import Signoff.Proofs.Automation.Resaved
import Signoff.Proofs.Task.Faults

/-! # What is checked when an automation is saved

    The checks of a payload see to it that an automation can be run:

    * `Fault.Covered`: the fault is none that the checks are to keep away, neither an
      unknown type nor a missing field of an action.
    * `Action.covered_perform`: an action whose configuration is filled meets no others.
    * `Action.covered_executing`: so does every action that was read.
    * `Action.covered_executeAll`: and so it is with each of several, one after the other.
    * `Trigger.matchesEvent_of_read`: a trigger that was read is of a known kind.
    * `Condition.Recognised`: every node of a condition is of a known type.
    * `Automation.Saved.covered`: all of this holds for a saved automation.
-/

open Signoff.Task (Faults)

namespace Signoff

/-- The fault has nothing to do with the type of an action, nor with the fields of its configuration. -/
def Fault.Covered : Fault → Prop
  | .noField _ => False
  | .rejected message _ => ∀ type, message ≠ "Unknown action type: " ++ type
  | _ => True

/-- The result tells of executing the action in some office, and if that failed, then with such a fault. -/
def ActionResult.Covers (event : Event) (automation : Option Int) (action : Value) (r : ActionResult) :
    Prop :=
  ∃ o, r = ⟨Action.typeOf action,
      Action.failureOf ((Action.executing action event automation).answer o)⟩ ∧
    ∀ fault, (Action.executing action event automation).answer o = .error fault → fault.Covered

/-! ## Columns, keys and formulas -/

theorem TextColumn.covered_keep (place : Nat) (v : Value) : (keep place v).Faults Fault.Covered := by
  unfold keep
  split
  · exact .ok _
  · exact .ok _
  · exact .ite (.ok _) (.error trivial)
  · exact .ok _
  · exact .ok _
  · exact .error trivial

theorem TextColumn.covered_filled (name : String) (kept : Option String) :
    (filled name kept).Faults Fault.Covered := by
  cases kept with
  | some s => exact .ok s
  | none => exact .error trivial

theorem covered_checkKey (n : Int) : (checkKey n).Faults Fault.Covered :=
  .ite (.ok _) (.error trivial)

namespace Value

theorem covered_key? (v : Value) : v.key?.Faults Fault.Covered := by
  unfold key?
  split
  · exact .ok _
  · exact .ok _
  · split
    · exact .ok _
    · exact .ite (.ok _) (.error trivial)
  · exact .ok _
  · exact .ok _

theorem covered_items (v : Value) : v.items.Faults Fault.Covered := by
  unfold items
  split
  · exact .ok _
  · exact .ok _
  · exact .ok _
  · exact .error trivial

theorem covered_number? (v : Value) : v.number?.Faults Fault.Covered := by
  intro fault h
  obtain ⟨-, rfl⟩ := number?_eq_error_iff.mp h
  exact trivial

end Value

namespace Formula

theorem covered_refusal (formula reason : String) (details : Fields) :
    (refusal formula reason details).Covered := by
  intro type h
  -- The two messages differ in their first character.
  have hfirst := congrArg (fun s => s.toList.head?) h
  simp [String.toList_append] at hfirst

theorem covered_pieceText (formula : String) (snapshot : Fields) (piece : Piece) :
    (pieceText formula snapshot piece).Faults Fault.Covered := by
  cases piece with
  | plain c => exact .ok _
  | field name =>
    refine .ite (.ok _) (Result.Faults.bind ?_ fun number => ?_)
    · exact Value.covered_number? _
    · cases number with
      | some x => exact .ok _
      | none => exact .error (covered_refusal _ _ _)

theorem covered_evaluate (formula : String) (snapshot : Fields) :
    (evaluate formula snapshot).Faults Fault.Covered := by
  refine Result.Faults.bind ?_ fun text => ?_
  · exact (Result.Faults.mapM (covered_pieceText formula snapshot) _).bind fun texts => .ok _
  · split
    · exact .error trivial
    · split
      · exact .error (covered_refusal _ _ _)
      · split
        · exact .ok _
        · next failure _ =>
          cases failure with
          | divisionByZero => exact .error (covered_refusal _ _ _)
          | unsupported element => exact .error (covered_refusal _ _ _)
          | tooLarge message => exact .error trivial
          | tooDeep => exact .error trivial

end Formula

/-! ## Configurations -/

namespace ActionConfig

/-- The configuration has the field. -/
def Has (config : Fields) (name : String) : Prop := ∃ v, Fields.get? config name = some v

theorem covered_need {config : Fields} {name : String} (h : Has config name) :
    (need (.object config) name).Faults Fault.Covered := by
  obtain ⟨v, hv⟩ := h
  unfold need
  simp only [hv]
  exact .ok v

theorem covered_pair (position : Nat) (v : Value) : (pair position v).Faults Fault.Covered := by
  unfold pair
  simp only
  split
  case h_4 => exact Result.Faults.error trivial
  -- Lists, texts and objects give their parts, which have to be two.
  all_goals
    refine (Value.covered_items _).bind fun parts => ?_
    split
    · exact .ok _
    · exact .error trivial
    · exact .error trivial

theorem covered_pairs (position : Nat) (vs : List Value) :
    (pairs position vs).Faults Fault.Covered := by
  induction vs generalizing position with
  | nil => exact .ok _
  | cons v rest ih =>
    exact (covered_pair position v).bind fun entry => (ih (position + 1)).bind fun others => .ok _

theorem covered_entries (v : Value) : (entries v).Faults Fault.Covered := by
  unfold entries
  split
  · exact .ok _
  · exact (Value.covered_items _).bind fun vs => covered_pairs 0 vs

theorem covered_headers (v : Value) : (headers v).Faults Fault.Covered := by
  unfold headers
  split
  · exact .ok _
  · exact .ite (.error trivial) (.ok _)

theorem covered_method (v : Value) : (method v).Faults Fault.Covered := by
  unfold method
  split
  · exact .ok _
  · exact .ite (.error trivial) (.ok _)

end ActionConfig

/-! ## The office -/

namespace Office

theorem covered_findItem (key : Int) (archived : Bool) : Faults Fault.Covered (findItem key archived) :=
  (Faults.ofResult (covered_checkKey key)).bind fun _ => Faults.get.bind fun _ => .pure _

theorem covered_requireItem (key : Int) (archived : Bool) :
    Faults Fault.Covered (requireItem key archived) := by
  refine (covered_findItem key archived).bind fun item => ?_
  cases item with
  | some item => exact .pure item
  | none => exact .throw trivial

theorem covered_requireBoard (key : Value) : Faults Fault.Covered (requireBoard key) := by
  have hfind : Faults Fault.Covered (findBoard key) := by
    refine (Faults.ofResult key.covered_key?).bind fun n => ?_
    cases n with
    | some n => exact (Faults.ofResult (covered_checkKey n)).bind fun _ => Faults.get.bind fun _ => .pure _
    | none => exact .pure _
  refine hfind.bind fun board => ?_
  cases board with
  | some board => exact .pure board
  | none => exact .throw trivial

theorem covered_columnKey (column : Value) : Faults Fault.Covered (columnKey column) := by
  refine (Faults.ofResult column.covered_key?).bind fun n => ?_
  cases n with
  | some n => exact .pure n
  | none => exact .throw trivial

theorem covered_changeItem (item : Item) (f : Item → Item) : Faults Fault.Covered (changeItem item f) :=
  (Faults.modify _).bind fun _ => .pure _

theorem covered_setStatus (item : Item) (status : Value) : Faults Fault.Covered (setStatus item status) :=
  (Faults.ofResult (TextColumn.covered_keep _ _)).bind fun _ => covered_changeItem item _

theorem covered_createItem (boardId : Int) (name status : Value) (createdBy : String) :
    Faults Fault.Covered (createItem boardId name status createdBy) := by
  refine (Faults.ofResult (TextColumn.covered_keep _ _)).bind fun name? => ?_
  refine (Faults.ofResult (TextColumn.covered_keep _ _)).bind fun status => ?_
  refine (Faults.ofResult (TextColumn.covered_filled _ _)).bind fun name => ?_
  exact Faults.get.bind fun o => (Faults.set _).bind fun _ => .pure _

theorem covered_writeCell (itemId : Int) (column value : Value) :
    Faults Fault.Covered (writeCell itemId column value) := by
  refine (covered_columnKey column).bind fun key => (covered_findItem itemId true).bind fun item => ?_
  refine (Faults.ofResult (covered_checkKey key)).bind fun _ => Faults.get.bind fun o => ?_
  split
  · exact .throw trivial
  · exact .throw trivial
  · refine .ite (.throw trivial) ?_
    split
    · exact .set _
    · exact .set _

theorem covered_deleteCells (itemId : Int) (column : Value) :
    Faults Fault.Covered (deleteCells itemId column) := by
  refine (covered_columnKey column).bind fun key => ?_
  refine (Faults.ofResult (covered_checkKey key)).bind fun _ => ?_
  refine (Faults.ofResult (covered_checkKey itemId)).bind fun _ => ?_
  exact Faults.get.bind fun o => (Faults.set _).bind fun _ => .pure _

theorem covered_distinctUsers (seen users : List Value) :
    (distinctUsers seen users).Faults Fault.Covered := by
  induction users generalizing seen with
  | nil => exact .ok _
  | cons v rest ih => exact .ite (ih _) (.ite (.error trivial) (.ite (ih _) (ih _)))

theorem covered_keepNotice (notice : Notice) (user : Value) :
    (keepNotice notice user).Faults Fault.Covered := by
  refine (TextColumn.covered_keep _ _).bind fun user? => ?_
  refine (TextColumn.covered_keep _ _).bind fun title? => ?_
  refine (TextColumn.covered_keep _ _).bind fun message => ?_
  refine (TextColumn.covered_keep _ _).bind fun link => ?_
  refine (TextColumn.covered_filled _ _).bind fun user => ?_
  exact (TextColumn.covered_filled _ _).bind fun title => .ok _

theorem covered_notifyMany (users : List Value) (notice : Notice) :
    Faults Fault.Covered (notifyMany users notice) := by
  refine (Faults.ofResult (covered_distinctUsers _ _)).bind fun users => ?_
  refine (Faults.ofResult (.mapM (covered_keepNotice notice) _)).bind fun makers => ?_
  exact Faults.get.bind fun o => (Faults.set _).bind fun _ => .pure _

theorem covered_send (call : Call) : Faults Fault.Covered (send call) := by
  have hresult (reply : Reply) : (call.result reply).Faults Fault.Covered := by
    cases reply with
    | crashed message => exact .error trivial
    | _ => exact .ok _
  exact Faults.get.bind fun o => (Faults.set _).bind fun _ => .ofResult (hresult _)

end Office

/-! ## Actions -/

namespace Action

open Office ActionConfig

variable {config : Fields}

/-- The fields without which an action of the kind cannot be performed. -/
def neededNames : ActionKind → List String
  | .changeStatus => ["status"]
  | .updateField => ["columnId"]
  | .clearField => ["columnId"]
  | .calculateFormula => ["formula", "columnId"]
  | .copyField => ["sourceColumnId", "columnId"]
  | .assignUser => ["userIds", "columnId"]
  | .sendNotification | .notifyUsers => ["userIds", "title", "message"]
  | .notifyAssignees => ["title", "message"]
  | .createItem => ["targetBoardId"]
  | .moveToBoard => ["targetBoardId"]
  | .callWebhook => ["webhookUrl"]
  | .apiCall => ["apiUrl"]

/-- The configuration has all of these. -/
def Filled (kind : ActionKind) (config : Fields) : Prop := ∀ name ∈ neededNames kind, Has config name

theorem covered_tellUsers (item : Item) (automation : Option Int) (users : List Value)
    (htitle : Has config "title") (hmessage : Has config "message") :
    Faults Fault.Covered (tellUsers item (.object config) automation users) := by
  refine (Faults.ofResult (covered_need htitle)).bind fun title => ?_
  refine (Faults.ofResult (covered_need hmessage)).bind fun message => ?_
  exact (covered_notifyMany users _).discard

theorem covered_targetBoard (h : Has config "targetBoardId") :
    Faults Fault.Covered (targetBoard (.object config)) :=
  (Faults.ofResult (covered_need h)).bind fun key => covered_requireBoard key

theorem covered_copyCells (item copy : Item) : Faults Fault.Covered (copyCells item copy) := by
  refine Faults.get.bind fun o => Faults.bind (.forIn _ (fun column _ _ => ?_) _) fun _ => .pure _
  split
  · exact .pure _
  · split
    · exact .pure _
    · exact (covered_writeCell _ _ _).bind fun _ => .pure _

theorem covered_callOut (kind : ActionKind) (item : Item) (h : Has config (callKeys kind).1.wire) :
    Faults Fault.Covered (callOut kind item (.object config)) := by
  unfold callOut
  refine (Faults.ofResult (covered_need h)).bind fun url => Faults.get.bind fun o => ?_
  refine (Faults.ofResult (.ite (covered_entries _) (.ok _))).bind fun more => ?_
  refine (Faults.ofResult (covered_method _)).bind fun method => ?_
  refine (Faults.ofResult (covered_headers _)).bind fun headers => ?_
  exact (covered_send _).bind fun result => .ite (.throw trivial) (.pure _)

/-- An action whose configuration is filled meets no faults but those that are covered. -/
theorem covered_perform {kind : ActionKind} (item : Item) (h : Filled kind config) (event : Event)
    (automation : Option Int) :
    Faults Fault.Covered (perform kind item (.object config) event automation) := by
  cases kind with
  | changeStatus =>
    refine (Faults.ofResult (covered_need (h _ (by decide)))).bind fun status => ?_
    exact (covered_setStatus item status).discard
  | updateField =>
    refine (Faults.ofResult (covered_need (h _ (by decide)))).bind fun column => ?_
    exact covered_writeCell item.id column _
  | clearField =>
    refine (Faults.ofResult (covered_need (h _ (by decide)))).bind fun column => ?_
    exact (covered_deleteCells item.id column).discard
  | calculateFormula =>
    have hwrite (formula : String) : Faults Fault.Covered (do
        let amount ← Task.ofResult (Formula.evaluate formula (← Office.snapshot item))
        Office.writeCell item.id (← Task.ofResult (need (.object config) "columnId"))
          amount.toValue) := by
      refine Faults.bind (Faults.get.bind fun _ => .pure _) fun snapshot => ?_
      refine (Faults.ofResult (Formula.covered_evaluate _ _)).bind fun amount => ?_
      refine (Faults.ofResult (covered_need (h _ (by decide)))).bind fun column => ?_
      exact covered_writeCell item.id column _
    refine (Faults.ofResult (covered_need (h _ (by decide)))).bind fun formula => ?_
    simp only
    split
    · exact (Faults.pure _).bind hwrite
    · exact (Faults.throw trivial).bind hwrite
  | copyField =>
    refine (Faults.ofResult (covered_need (h _ (by decide)))).bind fun source => ?_
    refine Faults.bind (Faults.get.bind fun _ => .pure _) fun snapshot => ?_
    split
    · refine (Faults.ofResult (covered_need (h _ (by decide)))).bind fun column => ?_
      exact covered_writeCell item.id column _
    · exact .pure _
  | assignUser =>
    refine (Faults.ofResult (covered_need (h _ (by decide)))).bind fun users => ?_
    refine (Faults.ofResult (covered_need (h _ (by decide)))).bind fun column => ?_
    exact covered_writeCell item.id column _
  | sendNotification | notifyUsers =>
    refine (Faults.ofResult (covered_need (h _ (by decide)))).bind fun users => ?_
    exact covered_tellUsers item automation _ (h _ (by decide)) (h _ (by decide))
  | notifyAssignees =>
    refine Faults.get.bind fun o => .ite (.pure _) ?_
    exact covered_tellUsers item automation _ (h _ (by decide)) (h _ (by decide))
  | createItem =>
    refine (covered_targetBoard (h _ (by decide))).bind fun board => ?_
    refine (Office.covered_createItem _ _ _ _).bind fun copy => ?_
    exact .ite (covered_copyCells item copy) (.pure _)
  | moveToBoard =>
    refine (covered_targetBoard (h _ (by decide))).bind fun board => ?_
    exact (covered_changeItem item _).discard
  | callWebhook => exact covered_callOut .callWebhook item (h _ (by decide))
  | apiCall => exact covered_callOut .apiCall item (h _ (by decide))

/-- What a part of a configuration has written is in the whole. -/
theorem subset_of_joined {parts : List (Checked Fields)} {part : Checked Fields} {out : Fields}
    (h : joined parts = .sound out) (hpart : part ∈ parts) :
    ∃ written, part = .sound written ∧ written ⊆ out := by
  induction parts generalizing out with
  | nil => cases hpart
  | cons first rest ih =>
    obtain ⟨_, others, happend, hrest, rfl⟩ := Checked.seq_eq_sound h
    obtain ⟨written, hfirst, rfl⟩ := Checked.map_eq_sound happend
    rcases List.mem_cons.mp hpart with rfl | hpart
    · exact ⟨written, hfirst, List.subset_append_left _ _⟩
    · obtain ⟨written', hwritten', hsubset⟩ := ih hrest hpart
      exact ⟨written', hwritten', List.subset_append_of_subset_right _ hsubset⟩

/-- So a field that has to be there is there. -/
theorem has_of_joined {α : Type} {parts : List (Checked Fields)} {fields out : Fields} {key : Key}
    {check : Value → Checked α} {write : α → Value} (h : joined parts = .sound out)
    (hpart : field fields key check write ∈ parts) : Has out key.wire := by
  obtain ⟨written, hwritten, hsubset⟩ := subset_of_joined h hpart
  obtain ⟨x, -, rfl⟩ := Checked.map_eq_sound hwritten
  have hmem : (key.wire, write x) ∈ out := hsubset (List.mem_singleton_self _)
  cases hfound : Fields.get? out key.wire with
  | some v => exact ⟨v, hfound⟩
  | none =>
    have hnone := List.lookup_eq_none_iff.mp hfound _ hmem
    simp at hnone

/-- A configuration that was read is filled. -/
theorem filled_of_readConfig {kind : ActionKind} {written : Fields}
    (h : readConfig kind written = .sound config) : Filled kind config := by
  have hjoined := Checked.seqLeft_eq_sound h
  unfold Filled
  cases kind with
  | changeStatus | updateField | clearField | moveToBoard | createItem | callWebhook | apiCall =>
    exact List.forall_mem_singleton.mpr (has_of_joined hjoined (List.mem_cons_self ..))
  | calculateFormula | copyField =>
    refine List.forall_mem_cons.mpr ⟨?_, List.forall_mem_singleton.mpr ?_⟩
    · exact has_of_joined hjoined (List.mem_cons_of_mem _ (List.mem_cons_self ..))
    · exact has_of_joined hjoined (List.mem_cons_self ..)
  | assignUser =>
    refine List.forall_mem_cons.mpr ⟨?_, List.forall_mem_singleton.mpr ?_⟩
    · exact has_of_joined hjoined (List.mem_cons_of_mem _ (List.mem_cons_self ..))
    · exact has_of_joined hjoined (List.mem_cons_self ..)
  | sendNotification | notifyUsers =>
    refine List.forall_mem_cons.mpr ⟨?_, List.forall_mem_cons.mpr ⟨?_, List.forall_mem_singleton.mpr ?_⟩⟩
    · exact has_of_joined hjoined (List.mem_cons_self ..)
    · exact has_of_joined hjoined (List.mem_cons_of_mem _ (List.mem_cons_self ..))
    · exact has_of_joined hjoined (List.mem_cons_of_mem _ (List.mem_cons_of_mem _ (List.mem_cons_self ..)))
  | notifyAssignees =>
    refine List.forall_mem_cons.mpr ⟨?_, List.forall_mem_singleton.mpr ?_⟩
    · exact has_of_joined hjoined (List.mem_cons_self ..)
    · exact has_of_joined hjoined (List.mem_cons_of_mem _ (List.mem_cons_self ..))

/-- The kind of an action that was read is known, and executing it meets no faults but those that are
    covered. -/
theorem covered_executing {action : Value} (h : Validated action) :
    (∃ kind, kindOf (typeOf action) = .ok kind) ∧
      ∀ event automation, Faults Fault.Covered (executing action event automation) := by
  obtain ⟨written, hread⟩ := h
  obtain ⟨kind, config, -, hconfig, rfl⟩ := read_cases hread
  have hkind : kindOf (typeOf (.object [("type", .text kind.word), ("config", .object config)])) =
      .ok kind := by
    cases kind <;> rfl
  have hobject : configOf (.object [("type", .text kind.word), ("config", .object config)]) =
      .object config := by
    cases config <;> rfl
  refine ⟨⟨kind, hkind⟩, fun event automation => ?_⟩
  rw [executing_of_kind hkind, hobject]
  refine (covered_requireItem event.itemId true).bind fun item => ?_
  exact covered_perform item (filled_of_readConfig hconfig) event automation

/-- By induction on the actions: each of those that were read gets a result of its own, and none fails for
    another reason, whatever the others have done to the office. -/
theorem covered_executeAll {actions : List Value} (h : ∀ action ∈ actions, Validated action)
    (event : Event) (automation : Option Int) (o : Office) :
    ∃ results, (executeAll (.list actions) event automation).answer o = .ok results ∧
      List.Forall₂ (ActionResult.Covers event automation) actions results := by
  rw [Task.answer, exec_executeAll]
  induction actions generalizing o with
  | nil => exact ⟨[], rfl, .nil⟩
  | cons action rest ih =>
    have haction := h action (List.mem_cons_self ..)
    obtain ⟨kind, config, hobject⟩ := haction.eq_object
    have hone := exec_executeOne event automation ⟨_, hobject⟩ o
    obtain ⟨results, hrest, hcovered⟩ := ih (fun a ha => h a (List.mem_cons_of_mem _ ha))
      ((executing action event automation).after o)
    have hfirst : ActionResult.Covers event automation action
        ⟨typeOf action, failureOf ((executing action event automation).answer o)⟩ :=
      ⟨o, rfl, (covered_executing haction).2 event automation o⟩
    refine ⟨_ :: results, ?_, .cons hfirst hcovered⟩
    rw [List.mapM_cons, Task.exec_bind_ok hone, Task.exec_bind_ok (Prod.ext hrest rfl)]
    rfl

end Action

/-! ## Triggers -/

/-- A trigger of a known kind matches as this kind does with its details. -/
theorem Trigger.matchesEvent_object {fields details : Fields} {word : String} {kind : TriggerKind}
    (htype : Fields.get fields "type" = .text word) (hkind : TriggerKind.ofWord? word = some kind)
    (hdetails : (Fields.get fields "config").orElse (.object []) = .object details) (event : Event)
    (today : Date) :
    matchesEvent (.object fields) event today = matchesKind kind details event today := by
  have htruthy : (Value.object fields).truthy = true := by
    cases fields with
    | nil => cases htype
    | cons _ _ => rfl
  unfold matchesEvent Value.field
  simp only [htruthy, htype, hkind, hdetails, Result.ok_bind, Bool.not_true, Bool.false_eq_true, if_false]

/-- A trigger that was read is of a known kind, and matches as this kind does with its details. -/
theorem Trigger.matchesEvent_of_read {written trigger : Value} (h : read written = .sound trigger) :
    ∃ word kind, Action.typeOf trigger = .text word ∧ TriggerKind.ofWord? word = some kind ∧
      ∀ event today,
        matchesEvent trigger event today = matchesKind kind trigger.config event today := by
  obtain ⟨word, config, hword, -, hsettle⟩ := read_cases h
  obtain rfl := eq_of_settle hsettle
  have hknown : ∀ w ∈ TriggerKind.words, (TriggerKind.ofWord? w).isSome = true := by decide
  obtain ⟨kind, hkind⟩ := Option.isSome_iff_exists.mp (hknown word hword)
  refine ⟨word, kind, rfl, hkind, fun event today => ?_⟩
  cases config with
  | none => exact matchesEvent_object rfl hkind rfl event today
  | some c =>
    have hget : Fields.get (("type", .text word) :: optionalField "config" TriggerConfig.toValue (some c))
        "config" = .object (Schema.written c.entries) := c.toValue_eq
    have hconfig : (Value.object (("type", .text word) ::
        optionalField "config" TriggerConfig.toValue (some c))).config = Schema.written c.entries := by
      simp only [Value.config, hget]
    rw [hconfig]
    refine matchesEvent_object rfl hkind ?_ event today
    rw [hget]
    cases Schema.written c.entries <;> rfl

/-! ## Conditions -/

namespace Condition

mutual

/-- Every node of the condition is of a known type and well-formed, and every test has a field. -/
def Recognised : Condition → Prop
  | .absent => True
  | .malformed => False
  | .all parts => AllRecognised parts
  | .any parts => AllRecognised parts
  | .unlistable _ => False
  | .leaf test field _ => test ≠ .unknown ∧ field.truthy = true

/-- So is every node of each of them. -/
def AllRecognised : List Condition → Prop
  | [] => True
  | c :: rest => Recognised c ∧ AllRecognised rest

end

end Condition

namespace ConditionForm

mutual

/-- A settled form has known types only. -/
theorem Settled.recognised : ∀ {form : ConditionForm}, form.Settled → form.condition.Recognised
  | .node .all _ _ parts, ⟨_, hparts⟩ => PartsSettled.recognised hparts
  | .node .any _ _ parts, ⟨_, hparts⟩ => PartsSettled.recognised hparts
  | .node (.test t) field _ _, ⟨⟨hknown, hfield⟩, _⟩ => by
    refine ⟨hknown, ?_⟩
    cases field with
    | none => cases hfield
    | some name => exact hfield

theorem PartsSettled.recognised : ∀ {parts : Option (List ConditionForm)}, PartsSettled parts →
    Condition.AllRecognised (partsConditions parts)
  | none, _ => trivial
  | some _, h => AllSettled.recognised h

theorem AllSettled.recognised : ∀ {forms : List ConditionForm}, AllSettled forms →
    Condition.AllRecognised (conditions forms)
  | [], _ => trivial
  | _ :: _, ⟨hform, hrest⟩ => ⟨hform.recognised, AllSettled.recognised hrest⟩

end

end ConditionForm

theorem AutomationConditions.Tree.recognised {v : Value} (h : Tree v) :
    (Condition.ofValue v).Recognised := by
  cases h with
  | none => trivial
  | node hread _ =>
    rw [ConditionForm.ofValue_of_read hread]
    exact (ConditionForm.settled_of_read hread).recognised

/-! ## Automations -/

/-- The automation can be run: the kinds of its actions are known, and none of them is ever executed with a
    field missing; its trigger is of a known kind, and so are all nodes of its conditions. -/
structure Automation.Covered (a : Automation) : Prop where
  actions : ∃ actions, a.actions = .list actions ∧ ∀ action ∈ actions,
    (∃ kind, Action.kindOf (Action.typeOf action) = .ok kind) ∧
      ∀ event automation, Faults Fault.Covered (Action.executing action event automation)
  results : ∀ event automation o, ∃ actions results, a.actions = .list actions ∧
    (Action.executeAll a.actions event automation).answer o = .ok results ∧
      List.Forall₂ (ActionResult.Covers event automation) actions results
  trigger : ∃ word kind, Action.typeOf a.trigger = .text word ∧ TriggerKind.ofWord? word = some kind ∧
    ∀ event today,
      Trigger.matchesEvent a.trigger event today = Trigger.matchesKind kind a.trigger.config event today
  conditions : (Condition.ofValue a.conditions).Recognised ∧ ∀ snapshot,
    Condition.conditionsHold a.conditions snapshot = (Condition.ofValue a.conditions).holds snapshot

/-- Whatever passes the checks when it is saved can be run. -/
theorem Automation.Saved.covered {a : Automation} (h : a.Saved) : a.Covered := by
  obtain ⟨⟨written, htrigger⟩, htree⟩ := h.kept
  obtain ⟨actions, hactions, -, hvalidated⟩ := h.listed
  refine ⟨⟨actions, hactions, fun action haction => ?_⟩, fun event automation o => ?_,
    Trigger.matchesEvent_of_read htrigger, htree.recognised, htree.conditionsHold⟩
  · exact Action.covered_executing (hvalidated action haction)
  · obtain ⟨results, hanswer, hcovers⟩ :=
      Action.covered_executeAll hvalidated event automation o
    exact ⟨actions, results, hactions, hactions ▸ hanswer, hcovers⟩

theorem Automations.covered_noting : noting.Covered :=
  saved_noting.covered

end Signoff
