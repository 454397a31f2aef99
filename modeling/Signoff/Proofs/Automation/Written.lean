import Signoff.Proofs.Automation.Saved
import Signoff.Proofs.Automation.Tree

/-! # Triggers and actions that are read back

    A checked trigger and a checked action are kept as objects, which pass their
    checks again:

    * `Action.Rereads`: a part of a configuration gets back what it has written.
    * `Action.PartsReadBack`: every part of a reader does so, each under its own key.
    * `Action.read_of_validated`: an action is read back as it is kept, unless it
      writes a field without a value.
    * `Trigger.read_of_read`: so is a trigger, unless its value was lost.
-/

namespace Signoff

/-- The configuration of a written trigger or action. -/
def Value.config (v : Value) : Fields :=
  match v with
  | .object fields =>
    match Fields.get fields "config" with
    | .object config => config
    | _ => []
  | _ => []

/-! ## Actions -/

theorem ActionKind.oneOf_word (kind : ActionKind) :
    Schema.oneOf table (.text kind.word) = .sound kind := by
  cases kind <;> rfl

theorem ActionKind.word_of_lookup {word : String} {kind : ActionKind} (h : table.lookup word = some kind) :
    word = kind.word := by
  have htable : ∀ entry ∈ table, entry.1 = entry.2.word := by decide
  obtain ⟨before, behind, hsplit, -⟩ := List.lookup_eq_some_iff.mp h
  exact htable (word, kind) (by simp [hsplit])

namespace Action

variable {α : Type} {key : Key}

/-- Where the key has the value, the part writes it there again. -/
def Rereads (key : Key) (v? : Option Value) (part : Fields → Checked Fields) : Prop :=
  ∀ fields, (key.find? fields = v?.map fun v => (key.wire, v)) →
    part fields = .sound (optionalField key.wire id v?)

/-- What the part has written under the key, it reads back. -/
def ReadsBack (key : Key) (part : Fields → Checked Fields) : Prop :=
  ∀ fields out, part fields = .sound out →
    ∃ v?, Rereads key v? part ∧ out = optionalField key.wire id v?

theorem readsBack_field {check : Value → Checked α} {write : α → Value}
    (h : Schema.Stable check write) : ReadsBack key fun fields => field fields key check write := by
  intro fields out hread
  obtain ⟨x, hx, rfl⟩ := Checked.map_eq_sound hread
  obtain ⟨v, hv⟩ := Schema.required_eq_sound hx
  obtain ⟨y, hy, hsame⟩ := h v x hv
  refine ⟨some (write x), fun fields' hfound => ?_, rfl⟩
  show (fun x => [(key.wire, write x)]) <$> Schema.required fields' key check = _
  rw [Schema.required, hfound]
  show (fun x => [(key.wire, write x)]) <$> (check (write x)).below key.wire = _
  rw [hy]
  exact congrArg (fun v => Checked.sound [(key.wire, v)]) hsame

theorem readsBack_defaulted {absent : α} {check : Value → Checked α} {write : α → Value}
    (h : Schema.Stable check write) (habsent : ∃ v, check v = .sound absent) :
    ReadsBack key fun fields => defaulted fields key absent check write := by
  intro fields out hread
  obtain ⟨x, hx, rfl⟩ := Checked.map_eq_sound hread
  have hpassed : ∃ v, check v = .sound x := by
    rcases Schema.optional_eq_sound hx with rfl | hpassed
    · exact habsent
    · exact hpassed
  obtain ⟨v, hv⟩ := hpassed
  obtain ⟨y, hy, hsame⟩ := h v x hv
  refine ⟨some (write x), fun fields' hfound => ?_, rfl⟩
  show (fun x => [(key.wire, write x)]) <$> Schema.optional fields' key absent check = _
  rw [Schema.optional, hfound]
  show (fun x => [(key.wire, write x)]) <$> (check (write x)).below key.wire = _
  rw [hy]
  exact congrArg (fun v => Checked.sound [(key.wire, v)]) hsame

theorem readsBack_possible {check : Value → Checked α} {write : α → Value}
    (h : Schema.Stable check write) (hwritten : ∀ x, (write x).isNull = false) :
    ReadsBack key fun fields => possible fields key check write := by
  intro fields out hread
  obtain ⟨x?, hx, rfl⟩ := Checked.map_eq_sound hread
  have hpassed : x? = none ∨ ∃ v x, x? = some x ∧ check v = .sound x := by
    rcases Schema.optional_eq_sound hx with rfl | ⟨v, hv⟩
    · exact .inl rfl
    · exact (Schema.nullable_eq_sound hv).imp_right fun ⟨x, hsome, hx⟩ => ⟨v, x, hsome, hx⟩
  rcases hpassed with rfl | ⟨v, x, rfl, hv⟩
  · refine ⟨none, fun fields' hfound => ?_, rfl⟩
    show optionalField key.wire write <$> Schema.optional fields' key none (Schema.nullable check) = _
    rw [Schema.optional, hfound]
    rfl
  · obtain ⟨y, hy, hsame⟩ := h v x hv
    refine ⟨some (write x), fun fields' hfound => ?_, rfl⟩
    have hnullable : Schema.nullable check (write x) = .sound (some y) := by
      unfold Schema.nullable
      split
      · next hnull =>
        have hwritten := hwritten x
        rw [hnull] at hwritten
        cases hwritten
      · rw [hy]
        rfl
    show optionalField key.wire write <$> Schema.optional fields' key none (Schema.nullable check) = _
    rw [Schema.optional, hfound]
    show optionalField key.wire write <$> (Schema.nullable check (write x)).below key.wire = _
    rw [hnullable]
    exact congrArg (fun v => Checked.sound [(key.wire, v)]) hsame

/-- The parts write these entries again, each where its key has them. -/
inductive PartsReread : List (Key × Option Value) → (Fields → List (Checked Fields)) → Prop where
  | nil : PartsReread [] fun _ => []
  | cons {key : Key} {v? : Option Value} {entries : List (Key × Option Value)}
      {part : Fields → Checked Fields} {parts : Fields → List (Checked Fields)}
      (hpart : Rereads key v? part) (hparts : PartsReread entries parts) :
      PartsReread ((key, v?) :: entries) fun fields => part fields :: parts fields

/-- The parts read back what they have written, each under its key. -/
inductive PartsReadBack : List Key → (Fields → List (Checked Fields)) → Prop where
  | nil : PartsReadBack [] fun _ => []
  | cons {key : Key} {keys : List Key} {part : Fields → Checked Fields}
      {parts : Fields → List (Checked Fields)} (hpart : ReadsBack key part)
      (hparts : PartsReadBack keys parts) :
      PartsReadBack (key :: keys) fun fields => part fields :: parts fields

section Parts

variable {keys : List Key} {parts : Fields → List (Checked Fields)}
  {entries : List (Key × Option Value)} {fields out : Fields}

theorem PartsReadBack.exists_written (h : PartsReadBack keys parts) (hread : joined (parts fields) = .sound out) :
    ∃ entries, entries.map Prod.fst = keys ∧ PartsReread entries parts ∧ out = Schema.written entries := by
  induction h generalizing out with
  | nil =>
    cases hread
    exact ⟨[], rfl, .nil, rfl⟩
  | @cons key keys part parts hpart _ ih =>
    obtain ⟨_, rest, happend, hrest, rfl⟩ := Checked.seq_eq_sound hread
    obtain ⟨first, hfirst, rfl⟩ := Checked.map_eq_sound happend
    obtain ⟨v?, hreread, rfl⟩ := hpart fields first hfirst
    obtain ⟨entries, rfl, hparts, rfl⟩ := ih hrest
    exact ⟨(key, v?) :: entries, rfl, .cons hreread hparts, rfl⟩

theorem PartsReread.joined (h : PartsReread entries parts)
    (hfound : ∀ entry ∈ entries, entry.1.find? fields = entry.2.map fun v => (entry.1.wire, v)) :
    Action.joined (parts fields) = .sound (Schema.written entries) := by
  induction h with
  | nil => rfl
  | cons hpart _ ih =>
    have hfirst := hpart fields (hfound _ (List.mem_cons_self ..))
    have hrest := ih fun entry hentry => hfound entry (List.mem_cons_of_mem _ hentry)
    rw [Action.joined, hfirst, hrest]
    rfl

/-- The keys of a configuration differ in their spellings. -/
theorem apart_configKeys (kind : ActionKind) : Schema.Apart (configKeys kind) := by
  cases kind <;> decide

theorem readConfig_written {kind : ActionKind} (hkeys : entries.map Prod.fst = configKeys kind)
    (h : PartsReread entries (configParts kind)) :
    readConfig kind (Schema.written entries) = .sound (Schema.written entries) := by
  have hapart : Schema.Apart (entries.map Prod.fst) := hkeys ▸ apart_configKeys kind
  have hjoined := h.joined fun entry hentry => Schema.find?_written hapart hentry
  rw [readConfig, hjoined, ← hkeys, Schema.noOthers_written hapart]
  rfl

end Parts

theorem stable_methods : Schema.Stable (Schema.oneOf methods) .text := by
  have hlookup : ∀ entry ∈ methods, methods.lookup (id entry.2) = some entry.2 := by decide
  exact Schema.stable_oneOf hlookup

theorem partsReadBack_notice : PartsReadBack [.word "title", .word "message", .word "link"] notice :=
  .cons (readsBack_field Schema.stable_filledText) <|
    .cons (readsBack_field Schema.stable_filledText) <|
      .cons (readsBack_possible Schema.stable_text fun _ => rfl) .nil

/-- The parts of a configuration read back what they have written, unless a value may get lost. -/
theorem partsReadBack {kind : ActionKind} (h : kind ≠ .updateField) :
    PartsReadBack (configKeys kind) (configParts kind) := by
  cases kind with
  | updateField => exact absurd rfl h
  | changeStatus => exact .cons (readsBack_field Schema.stable_filledText) .nil
  | clearField => exact .cons (readsBack_field Schema.stable_columnName) .nil
  | calculateFormula =>
    exact .cons (readsBack_field Schema.stable_columnName) <|
      .cons (readsBack_field Schema.stable_filledText) .nil
  | copyField =>
    exact .cons (readsBack_field Schema.stable_columnName) <|
      .cons (readsBack_field Schema.stable_columnName) .nil
  | assignUser =>
    exact .cons (readsBack_field Schema.stable_columnName) <|
      .cons (readsBack_field Schema.stable_textsOrOne) .nil
  | sendNotification | notifyUsers =>
    exact .cons (readsBack_field Schema.stable_textsOrOne_filled) partsReadBack_notice
  | notifyAssignees => exact partsReadBack_notice
  | createItem =>
    exact .cons (readsBack_field Schema.stable_int) <|
      .cons (readsBack_possible Schema.stable_text fun _ => rfl) <|
        .cons (readsBack_possible Schema.stable_text fun _ => rfl) <|
          .cons (readsBack_defaulted Schema.stable_bool ⟨.bool false, rfl⟩) .nil
  | moveToBoard => exact .cons (readsBack_field Schema.stable_int) .nil
  | callWebhook | apiCall =>
    exact .cons (readsBack_field Schema.stable_webAddress) <|
      .cons (readsBack_defaulted stable_methods ⟨.text "POST", Schema.oneOf_of_lookup (by decide)⟩) <|
        .cons (readsBack_defaulted Schema.stable_textMapping ⟨.object [], rfl⟩) <|
          .cons (readsBack_possible Schema.stable_mapping fun _ => rfl) .nil

/-- So do those of an action that writes a field, if they have kept the value. -/
theorem partsReread_updateField {fields out : Fields}
    (h : joined (configParts .updateField fields) = .sound out)
    (hvalue : (Fields.get out "value").isNull = false) :
    ∃ entries, entries.map Prod.fst = configKeys .updateField ∧
      PartsReread entries (configParts .updateField) ∧ out = Schema.written entries := by
  obtain ⟨_, rest, happend, hrest, rfl⟩ := Checked.seq_eq_sound h
  obtain ⟨first, hfirst, rfl⟩ := Checked.map_eq_sound happend
  obtain ⟨column?, hcolumn, rfl⟩ := readsBack_field Schema.stable_columnName fields first hfirst
  obtain ⟨_, _, happend, hnil, rfl⟩ := Checked.seq_eq_sound hrest
  cases hnil
  obtain ⟨second, hsecond, rfl⟩ := Checked.map_eq_sound happend
  obtain ⟨v, -, rfl⟩ := Checked.map_eq_sound hsecond
  cases hnull : v.isNull with
  | true =>
    -- Nothing was written, so that the value is missing.
    rw [hnull] at hvalue
    cases column? <;> cases hvalue
  | false =>
    rw [hnull] at hvalue
    have hkept : v.finite.isNull = false := by
      cases column? <;> exact hvalue
    refine ⟨[(columnKey, column?), (.word "value", some v.finite)], rfl,
      .cons hcolumn (.cons (fun fields' hfound => ?_) .nil), rfl⟩
    rw [Schema.required, hfound]
    show Checked.sound (if v.finite.isNull then [] else [("value", v.finite.finite)]) = _
    rw [hkept, v.finite_finite]
    rfl

/-- If the action writes a field, it has a value for it. -/
def HoldsValue (action : Value) : Prop :=
  typeOf action = .text ActionKind.updateField.word →
    (Fields.get action.config "value").isNull = false

/-- The action writes a field and has no value for it. -/
def Valueless (action : Value) : Prop :=
  typeOf action = .text ActionKind.updateField.word ∧
    Fields.get? action.config "value" = none

/-- The configuration that was read is read back as it is kept. -/
theorem readConfig_readConfig {kind : ActionKind} {config checked : Fields}
    (h : readConfig kind config = .sound checked)
    (hvalue : kind = .updateField → (Fields.get checked "value").isNull = false) :
    readConfig kind checked = .sound checked := by
  have hjoined := Checked.seqLeft_eq_sound h
  have hentries : ∃ entries, entries.map Prod.fst = configKeys kind ∧
      PartsReread entries (configParts kind) ∧ checked = Schema.written entries := by
    by_cases hkind : kind = .updateField
    · subst hkind
      exact partsReread_updateField hjoined (hvalue rfl)
    · exact (partsReadBack hkind).exists_written hjoined
  obtain ⟨entries, hkeys, hparts, rfl⟩ := hentries
  exact readConfig_written hkeys hparts

/-- An action that was read has a kind, and a configuration of this kind. -/
theorem read_cases {written action : Value} (h : read written = .sound action) :
    ∃ kind checked, typeOf written = .text kind.word ∧
      readConfig kind written.config = .sound checked ∧
      action = .object [("type", .text kind.word), ("config", .object checked)] := by
  obtain ⟨⟨kind, config⟩, h_object, h_config⟩ := Checked.andThen_eq_sound h
  obtain ⟨checked, hchecked, rfl⟩ := Checked.map_eq_sound h_config
  cases written with
  | object fields =>
    obtain ⟨_, found, h_type, hconfig, h_eq⟩ := Checked.seq_eq_sound (Checked.seqLeft_eq_sound h_object)
    obtain ⟨type, htype, rfl⟩ := Checked.map_eq_sound h_type
    obtain ⟨rfl, rfl⟩ := Prod.mk.inj h_eq
    obtain ⟨_, hfound, honeOf⟩ := Schema.required_word_eq_sound htype
    obtain ⟨word, rfl, hword⟩ := Schema.lookup_of_oneOf honeOf
    have hconfig : (Value.object fields).config = found := by
      unfold Value.config Fields.get
      rcases Schema.optional_word_eq_sound hconfig with ⟨hnone, rfl⟩ | ⟨v, hsome, hv⟩
      · simp only [hnone, Option.getD_none]
      · simp only [hsome, Option.getD_some]
        cases v with
        | object config =>
          cases hv
          rfl
        | _ => cases hv
    refine ⟨type, checked, ?_, hconfig ▸ hchecked, rfl⟩
    show Fields.get fields "type" = _
    rw [Fields.get, hfound, ActionKind.word_of_lookup hword]
    rfl
  | _ => cases h_object

/-- An action is read back as it is kept. -/
theorem read_of_validated {action : Value} (h : Validated action) (hvalue : HoldsValue action) :
    read action = .sound action := by
  obtain ⟨written, hread⟩ := h
  obtain ⟨kind, checked, -, hchecked, rfl⟩ := read_cases hread
  have hback : readConfig kind checked = .sound checked := by
    refine readConfig_readConfig hchecked fun hkind => ?_
    subst hkind
    exact hvalue rfl
  show Checked.andThen (Prod.mk <$> (Schema.oneOf ActionKind.table (.text kind.word)).below "type"
    <*> .sound checked <* .sound ()) _ = _
  rw [kind.oneOf_word]
  show (fun checked => Value.object [("type", .text kind.word), ("config", .object checked)])
    <$> readConfig kind checked = _
  rw [hback]
  rfl

/-- An action that writes a field and has no value for it is refused. -/
theorem ne_sound_of_valueless {written action : Value} (h : Valueless written) :
    read written ≠ .sound action := by
  obtain ⟨htype, hvalue⟩ := h
  intro hread
  obtain ⟨kind, checked, hkind, hchecked, -⟩ := read_cases hread
  have hword : kind.word = ActionKind.updateField.word :=
    Value.text.inj (hkind.symm.trans htype)
  have hkind : kind = .updateField := by
    have hlookup (k : ActionKind) : ActionKind.table.lookup k.word = some k := by cases k <;> rfl
    exact Option.some.inj ((hlookup kind).symm.trans (hword ▸ hlookup .updateField))
  subst hkind
  obtain ⟨_, _, -, hrest, -⟩ := Checked.seq_eq_sound (Checked.seqLeft_eq_sound hchecked)
  obtain ⟨_, _, happend, -, -⟩ := Checked.seq_eq_sound hrest
  obtain ⟨_, hpart, -⟩ := Checked.map_eq_sound happend
  obtain ⟨_, hrequired, -⟩ := Checked.map_eq_sound hpart
  obtain ⟨v, hfound, -⟩ := Schema.required_word_eq_sound hrequired
  rw [hvalue] at hfound
  cases hfound

/-- All actions of an automation are read back. -/
theorem filledList_of_allValidated {actions : List Value} (h : AllValidated actions)
    (hvalues : ∀ action ∈ actions, HoldsValue action) :
    Schema.filledList read (.list actions) = .sound actions := by
  have hlist : Schema.list read (.list (actions.map id)) = .sound (actions.map id) :=
    Schema.list_map fun action haction => read_of_validated (h.2 action haction) (hvalues action haction)
  rw [List.map_id] at hlist
  rw [Schema.filledList, hlist]
  cases actions with
  | nil => exact absurd rfl h.1
  | cons action rest => rfl

end Action

/-! ## Triggers -/

namespace TriggerConfig

variable {c : TriggerConfig}

/-- The days in front are not negative, if they are given. -/
def Admitted (c : TriggerConfig) : Prop := ∀ n, c.daysBefore = some n → 0 ≤ n

/-- The details as they are read back, with null in place of doubles that are not finite. -/
def kept (c : TriggerConfig) : TriggerConfig := { c with value := c.value.finite }

/-- The values of the fields, as they are written. -/
def entries (c : TriggerConfig) : List (Key × Option Value) :=
  [(⟨"columnId", "column_id"⟩, c.column.map .text),
    (.word "operator", c.comparison.map fun o => .text o.word),
    (.word "value", if c.value.isNull then none else some c.value.finite),
    (⟨"daysBefore", "days_before"⟩, c.daysBefore.map .int),
    (⟨"startDate", "start_date"⟩, c.start.map .text),
    (⟨"endDate", "end_date"⟩, c.stop.map .text),
    (.word "level", c.level.map Level.toValue)]

theorem optionalField_map {α : Type} (name : String) (write : α → Value) (x? : Option α) :
    optionalField name id (x?.map write) = optionalField name write x? := by
  cases x? <;> rfl

theorem toValue_eq (c : TriggerConfig) : c.toValue = .object (Schema.written c.entries) := by
  unfold toValue entries
  simp only [Schema.written, optionalField_map, List.append_nil, List.append_assoc]
  cases c.value.isNull <;> rfl

theorem apart_keys : Schema.Apart keys := by decide

theorem admitted_of_read {v : Value} (h : read v = .sound c) : c.Admitted := by
  obtain ⟨fields, h_level⟩ := Schema.object_eq_sound h
  obtain ⟨_, level, h_stop, -, h_eq⟩ := Checked.seq_eq_sound h_level
  obtain ⟨_, stop, h_start, -, rfl⟩ := Checked.seq_eq_sound h_stop
  obtain ⟨_, start, h_days, -, rfl⟩ := Checked.seq_eq_sound h_start
  obtain ⟨_, days, h_value, hdays, rfl⟩ := Checked.seq_eq_sound h_days
  obtain ⟨_, value, h_comparison, -, rfl⟩ := Checked.seq_eq_sound h_value
  obtain ⟨_, comparison, h_column, -, rfl⟩ := Checked.seq_eq_sound h_comparison
  obtain ⟨column, -, rfl⟩ := Checked.map_eq_sound h_column
  subst h_eq
  intro n hn
  obtain rfl : days = some n := hn
  rcases Schema.optional_eq_sound hdays with hnone | ⟨v, hv⟩
  · cases hnone
  · rcases Schema.nullable_eq_sound hv with hnone | ⟨m, hsome, hm⟩
    · cases hnone
    · cases hsome
      exact Schema.intFrom_eq_sound hm

/-- The details are read back from the form in which they are written. -/
theorem read_toValue (h : c.Admitted) : read c.toValue = .sound c.kept := by
  have hapart : Schema.Apart (c.entries.map Prod.fst) := apart_keys
  have hmem {entry : Key × Option Value} (i : Nat) (hentry : c.entries[i]? = some entry) :
      entry ∈ c.entries := List.mem_of_getElem? hentry
  have hcolumn : Schema.optional (Schema.written c.entries) ⟨"columnId", "column_id"⟩ none
      (Schema.nullable Schema.columnName) = .sound c.column :=
    Schema.optional_nullable_written hapart (hmem 0 rfl) fun _ _ => rfl
  have hcomparison : Schema.optional (Schema.written c.entries) (.word "operator") none
      (Schema.nullable (Schema.oneOf Comparison.table)) = .sound c.comparison :=
    Schema.optional_nullable_written hapart (hmem 1 rfl) fun o _ => by cases o <;> rfl
  have hvalue : Schema.optional (Schema.written c.entries) (.word "value") .null Schema.any =
      .sound c.value.finite := by
    rw [Schema.optional_written hapart (hmem 2 rfl)]
    cases hnull : c.value.isNull with
    | true => exact congrArg Checked.sound (c.value.finite_of_isNull hnull).symm
    | false => rfl
  have hdays : Schema.optional (Schema.written c.entries) ⟨"daysBefore", "days_before"⟩ none
      (Schema.nullable (Schema.intFrom 0)) = .sound c.daysBefore := by
    refine Schema.optional_nullable_written hapart (hmem 3 rfl) fun n hn => ?_
    show some <$> Checked.ensure n (0 ≤ n) _ = _
    rw [Checked.ensure, if_pos (decide_eq_true (h n hn))]
    rfl
  have hstart : Schema.optional (Schema.written c.entries) ⟨"startDate", "start_date"⟩ none
      (Schema.nullable Schema.text) = .sound c.start :=
    Schema.optional_nullable_written hapart (hmem 4 rfl) fun _ _ => rfl
  have hstop : Schema.optional (Schema.written c.entries) ⟨"endDate", "end_date"⟩ none
      (Schema.nullable Schema.text) = .sound c.stop :=
    Schema.optional_nullable_written hapart (hmem 5 rfl) fun _ _ => rfl
  have hlevel : Schema.optional (Schema.written c.entries) (.word "level") none
      (Schema.nullable (Schema.oneOf Level.table)) = .sound c.level :=
    Schema.optional_nullable_written hapart (hmem 6 rfl) fun l _ => by cases l <;> rfl
  rw [toValue_eq, read]
  unfold Schema.object
  simp only
  rw [hcolumn, hcomparison, hvalue, hdays, hstart, hstop, hlevel]
  exact congrArg (Checked.sound c.kept <* ·) (Schema.noOthers_written hapart)

/-- Under `value` stands the value, unless it is null. -/
theorem get?_value (c : TriggerConfig) :
    Fields.get? (Schema.written c.entries) "value" =
      if c.value.isNull then none else some c.value.finite := by
  have hmem : (Key.word "value", if c.value.isNull then none else some c.value.finite) ∈ c.entries :=
    List.mem_cons_of_mem _ (List.mem_cons_of_mem _ (List.mem_cons_self ..))
  have hapart : Schema.Apart (c.entries.map Prod.fst) := apart_keys
  have hfound := Schema.find?_written hapart hmem
  rw [Key.find?_word] at hfound
  cases hnull : c.value.isNull with
  | true => simpa [hnull] using hfound
  | false => simpa [hnull, Key.word] using hfound

end TriggerConfig

namespace Trigger

/-- The value of the trigger is not null, if there is one. -/
def HoldsValue (trigger : Value) : Prop := Fields.get? trigger.config "value" ≠ some .null

/-- A trigger that was read has a known type, and details that settle with it. -/
theorem read_cases {written trigger : Value} (h : read written = .sound trigger) :
    ∃ word config, word ∈ TriggerKind.words ∧ (∀ c, config = some c → c.Admitted) ∧
      settle word config = .sound trigger := by
  obtain ⟨⟨word, config⟩, h_object, hsettle⟩ := Checked.andThen_eq_sound h
  obtain ⟨fields, h_config⟩ := Schema.object_eq_sound h_object
  obtain ⟨_, found, h_type, hconfig, h_eq⟩ := Checked.seq_eq_sound h_config
  obtain ⟨type, htype, rfl⟩ := Checked.map_eq_sound h_type
  obtain ⟨rfl, rfl⟩ := Prod.mk.inj h_eq
  refine ⟨type, found, ?_, fun c hc => ?_, hsettle⟩
  · obtain ⟨_, hword⟩ := Schema.required_eq_sound htype
    obtain ⟨_, hmem⟩ := Schema.oneOf_eq_sound hword
    obtain ⟨w, hw, hsame⟩ := List.mem_map.mp hmem
    exact (Prod.mk.inj hsame).2 ▸ hw
  · rcases Schema.optional_eq_sound hconfig with hnone | ⟨v, hv⟩
    · rw [hc] at hnone
      cases hnone
    · rcases Schema.nullable_eq_sound hv with hnone | ⟨x, hsome, hx⟩
      · rw [hc] at hnone
        cases hnone
      · rw [hc] at hsome
        cases hsome
        exact TriggerConfig.admitted_of_read hx

/-- What has settled is the type with the details. -/
theorem eq_of_settle {word : String} {config : Option TriggerConfig} {trigger : Value}
    (h : settle word config = .sound trigger) :
    trigger = .object (("type", .text word) :: optionalField "config" TriggerConfig.toValue config) := by
  unfold settle at h
  simp only at h
  split at h
  · cases h
  · split at h
    · cases h
    · split at h
      · cases h
      · cases h
        rfl

/-- Details that have kept their value settle as before. -/
theorem settle_kept {word : String} {c : TriggerConfig}
    (hvalue : c.value.isNull = false → c.value.finite.isNull = false) :
    settle word (some c.kept) = settle word (some c) := by
  have hsame : c.kept.value.isNull = c.value.isNull := by
    cases hnull : c.value.isNull with
    | true =>
      show c.value.finite.isNull = true
      rw [c.value.finite_of_isNull hnull]
      rfl
    | false => exact hvalue hnull
  have hwritten : c.kept.toValue = c.toValue := by
    unfold TriggerConfig.toValue
    rw [hsame]
    show Value.object (_ ++ _ ++ (if _ then [] else [("value", c.value.finite.finite)]) ++ _ ++ _ ++ _ ++ _) = _
    rw [c.value.finite_finite]
    rfl
  unfold settle
  simp only [Option.getD_some, hsame, optionalField, hwritten]
  rfl

/-- A trigger is read back as it is kept, unless its value was lost. -/
theorem read_of_read {written trigger : Value} (h : read written = .sound trigger)
    (hvalue : HoldsValue trigger) : read trigger = .sound trigger := by
  obtain ⟨word, config, hword, hadmitted, hsettle⟩ := read_cases h
  have honeOf : Schema.oneOf (TriggerKind.words.map fun w => (w, w)) (.text word) = .sound word := by
    have hwords : ∀ w ∈ TriggerKind.words,
        (TriggerKind.words.map fun w => (w, w)).lookup w = some w := by decide
    exact Schema.oneOf_of_lookup (hwords word hword)
  obtain rfl := eq_of_settle hsettle
  cases config with
  | none =>
    show Checked.andThen (Prod.mk <$> (Schema.oneOf _ (.text word)).below "type" <*> .sound none
      <* .sound ()) _ = _
    rw [honeOf]
    exact hsettle
  | some c =>
    have hkept : c.value.isNull = false → c.value.finite.isNull = false := by
      intro hnull
      have hconfig : (Value.object [("type", .text word), ("config", c.toValue)]).config =
          Schema.written c.entries := by
        rw [c.toValue_eq]
        rfl
      have hfound : Fields.get? (Schema.written c.entries) "value" ≠ some .null := hconfig ▸ hvalue
      rw [c.get?_value, hnull] at hfound
      cases hfinite : c.value.finite with
      | null => exact absurd (by rw [hfinite]; rfl) hfound
      | _ => rfl
    show Checked.andThen (Prod.mk <$> (Schema.oneOf _ (.text word)).below "type"
      <*> (Schema.nullable TriggerConfig.read c.toValue).below "config" <* .sound ()) _ = _
    have hread : Schema.nullable TriggerConfig.read c.toValue = .sound (some c.kept) := by
      show some <$> TriggerConfig.read c.toValue = _
      rw [TriggerConfig.read_toValue (hadmitted c rfl)]
      rfl
    rw [honeOf, hread]
    exact (settle_kept hkept).trans hsettle

end Trigger
end Signoff
