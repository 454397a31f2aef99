import Signoff.Proofs.Workflow.Sound

/-! # Workflows that are written and read back

    A stored workflow was read from a payload once, and is written in a fixed
    form. This form passes all checks again:

    * `ConditionForm.Settled`, `LevelConfig.Admitted`, `Rule.Admitted`: what has passed the
      checks. What is read has passed them (`settled_of_read`, `admitted_of_read`).
    * `read_toValue`: what has passed them is read back from the form in which it
      is written. Only doubles that are not finite become null on the way.
    * `Rule.Admitted.acts`: a rule that has passed them names what it works with.
    * `StoredWorkflow.Written`: the levels and the rules of the row were written so.
    * `StoredWorkflow.Written.ofPayload`: such a row can be read.
-/

namespace Signoff

/-! ## Scalars and lists -/

namespace Schema

variable {α β : Type}

/-- What a table of words gives is in the table. -/
theorem oneOf_eq_sound {table : List (String × α)} {v : Value} {x : α}
    (h : oneOf table v = .sound x) : ∃ word, (word, x) ∈ table := by
  unfold oneOf at h
  simp only at h
  split at h
  · split at h
    · next s _ y hy =>
      cases h
      obtain ⟨before, behind, htable, -⟩ := List.lookup_eq_some_iff.mp hy
      exact ⟨s, by simp [htable]⟩
    · cases h
  · cases h

theorem positiveFloat_eq_sound {v : Value} {x : Float} (h : positiveFloat v = .sound x) :
    (!(x ≤ 0.0 : Bool)) = true := by
  obtain ⟨y, -, hy⟩ := Checked.andThen_eq_sound h
  obtain ⟨rfl, hpositive⟩ := Checked.ensure_eq_sound hy
  exact hpositive

theorem filledText_eq_sound {v : Value} {s : String} (h : filledText v = .sound s) :
    0 < s.length := by
  obtain ⟨t, -, ht⟩ := Checked.andThen_eq_sound h
  obtain ⟨rfl, hfilled⟩ := Checked.ensure_eq_sound ht
  exact of_decide_eq_true hfilled

theorem boundedText_eq_sound {most : Nat} {v : Value} {s : String}
    (h : boundedText most v = .sound s) : 0 < s.length ∧ s.length ≤ most := by
  obtain ⟨t, ht, hbounded⟩ := Checked.andThen_eq_sound h
  obtain ⟨rfl, hle⟩ := Checked.ensure_eq_sound hbounded
  exact ⟨filledText_eq_sound ht, of_decide_eq_true hle⟩

theorem boundedText_text {most : Nat} {s : String} (hfilled : 0 < s.length)
    (hle : s.length ≤ most) : boundedText most (.text s) = .sound s := by
  have htext : filledText (.text s) = .sound s := by
    show Checked.ensure s (0 < s.length) _ = _
    rw [Checked.ensure, if_pos (decide_eq_true hfilled)]
  rw [boundedText, htext]
  show Checked.ensure s (s.length ≤ most) _ = _
  rw [Checked.ensure, if_pos (decide_eq_true hle)]

/-- A list is read back if every item of it is. -/
theorem itemsFrom_map {check : Value → Checked α} {write : β → Value} {kept : β → α} {xs : List β}
    (h : ∀ x ∈ xs, check (write x) = .sound (kept x)) (n : Nat) :
    itemsFrom check n (xs.map write) = .sound (xs.map kept) := by
  induction xs generalizing n with
  | nil => rfl
  | cons x rest ih =>
    rw [List.map_cons, itemsFrom, h x (List.mem_cons_self ..),
      ih (fun y hy => h y (List.mem_cons_of_mem _ hy))]
    rfl

theorem list_map {check : Value → Checked α} {write : β → Value} {kept : β → α} {xs : List β}
    (h : ∀ x ∈ xs, check (write x) = .sound (kept x)) :
    list check (.list (xs.map write)) = .sound (xs.map kept) :=
  itemsFrom_map h 0

theorem list_ofTexts (texts : List String) : list text (.ofTexts texts) = .sound texts := by
  have h : list text (.list (texts.map .text)) = .sound (texts.map id) := list_map fun _ _ => rfl
  rwa [List.map_id] at h

end Schema

/-! ## Conditions -/

namespace ConditionType

theorem oneOf_word {type : ConditionType} (h : type ≠ .test .unknown) :
    Schema.oneOf table (.text type.word) = .sound type := by
  cases type with
  | all => rfl
  | any => rfl
  | test t =>
    cases t with
    | unknown => exact absurd rfl h
    | _ => rfl

theorem ne_unknown_of_oneOf {v : Value} {type : ConditionType}
    (h : Schema.oneOf table v = .sound type) : type ≠ .test .unknown := by
  obtain ⟨word, hmem⟩ := Schema.oneOf_eq_sound h
  have htable : ∀ entry ∈ table, entry.2 ≠ .test .unknown := by decide
  exact htable _ hmem

end ConditionType

theorem Value.finite_of_isNull {v : Value} (h : v.isNull = true) : v.finite = .null := by
  cases v with
  | null => rfl
  | _ => cases h

namespace ConditionForm

/-- The test is a known one and has a field; a junction has parts. -/
def IsWhole (type : ConditionType) (field : Option String) (parts : Option (List ConditionForm)) :
    Prop :=
  match type with
  | .test t => t ≠ .unknown ∧ field.any (!·.isEmpty) = true
  | _ => parts.isSome = true

mutual

/-- Every node of the form is whole. -/
def Settled : ConditionForm → Prop
  | .node type field _ parts => IsWhole type field parts ∧ PartsSettled parts

/-- Every node of the parts is whole. -/
def PartsSettled : Option (List ConditionForm) → Prop
  | none => True
  | some parts => AllSettled parts

/-- Every node of each form is whole. -/
def AllSettled : List ConditionForm → Prop
  | [] => True
  | form :: rest => Settled form ∧ AllSettled rest

end

mutual

/-- The form as it is read back, with null in place of doubles that are not finite. -/
def kept : ConditionForm → ConditionForm
  | .node type field value parts => .node type field value.finite (partsKept parts)

/-- The parts as they are read back. -/
def partsKept : Option (List ConditionForm) → Option (List ConditionForm)
  | none => none
  | some parts => some (allKept parts)

/-- Each form as it is read back. -/
def allKept : List ConditionForm → List ConditionForm
  | [] => []
  | form :: rest => kept form :: allKept rest

end

mutual

/-- The types stay what they are. -/
theorem usesExtended_kept : ∀ form : ConditionForm, form.kept.usesExtended = form.usesExtended
  | .node type _ _ parts => by
    rw [kept, usesExtended, usesExtended, partsUseExtended_kept parts]

theorem partsUseExtended_kept :
    ∀ parts : Option (List ConditionForm), partsUseExtended (partsKept parts) = partsUseExtended parts
  | none => rfl
  | some parts => someUsesExtended_kept parts

theorem someUsesExtended_kept :
    ∀ parts : List ConditionForm, someUsesExtended (allKept parts) = someUsesExtended parts
  | [] => rfl
  | form :: rest => by
    rw [allKept, someUsesExtended, someUsesExtended, usesExtended_kept form,
      someUsesExtended_kept rest]

end

section Node

variable {type : ConditionType} {field : Option String} {value : Value}
  {parts : Option (List ConditionForm)}

theorem IsWhole.ne_unknown (h : IsWhole type field parts) : type ≠ .test .unknown := by
  cases type with
  | test t => exact fun hunknown => h.1 (ConditionType.test.inj hunknown)
  | _ => exact fun hunknown => by cases hunknown

theorem IsWhole.partsKept (h : IsWhole type field parts) : IsWhole type field (partsKept parts) := by
  cases type with
  | test t => exact h
  | _ => cases parts <;> exact h

theorem IsWhole.settle (h : IsWhole type field parts) :
    settle (.node type field value parts) = .sound (.node type field value parts) := by
  cases type with
  | test t => simp only [ConditionForm.settle, h.2, ↓reduceIte]
  | all | any =>
    cases parts with
    | some parts => rfl
    | none => cases h

/-- What settles is whole. A junction without parts gets none of them. -/
theorem settled_of_settle {form : ConditionForm} (htype : type ≠ .test .unknown)
    (hparts : PartsSettled parts) (h : settle (.node type field value parts) = .sound form) :
    form.Settled := by
  cases type with
  | test t =>
    simp only [settle] at h
    split at h
    · next hfield =>
      cases h
      exact ⟨⟨fun hunknown => htype (by rw [hunknown]), hfield⟩, hparts⟩
    · cases h
  | all | any =>
    cases h
    cases parts with
    | none => exact ⟨rfl, trivial⟩
    | some parts => exact ⟨rfl, hparts⟩

/-- The fields under which a node is written. -/
def writtenFields (type : ConditionType) (field : Option String) (value : Value)
    (parts : Option (List ConditionForm)) : Fields :=
  ("type", .text type.word) :: (optionalField "field" .text field
    ++ ((if value.isNull then [] else [("value", value.finite)]) ++ partsField parts))

theorem toValue_node :
    (node type field value parts).toValue = .object (writtenFields type field value parts) := by
  cases field <;> rfl

theorem required_type (h : type ≠ .test .unknown) :
    Schema.required (writtenFields type field value parts) (.word "type")
      (Schema.oneOf ConditionType.table) = .sound type := by
  show (Schema.oneOf ConditionType.table (.text type.word)).below "type" = _
  rw [ConditionType.oneOf_word h]
  rfl

theorem optional_field :
    Schema.optional (writtenFields type field value parts) (.word "field") none
      (Schema.nullable Schema.text) = .sound field := by
  unfold writtenFields
  cases field <;> cases value.isNull <;> cases parts <;> rfl

theorem optional_value :
    Schema.optional (writtenFields type field value parts) (.word "value") .null Schema.any =
      .sound value.finite := by
  unfold writtenFields
  cases hnull : value.isNull with
  | true =>
    rw [value.finite_of_isNull hnull]
    cases field <;> cases parts <;> rfl
  | false => cases field <;> rfl

theorem readParts_written :
    readParts (writtenFields type field value parts) = readParts (partsField parts) := by
  unfold writtenFields
  cases field <;> cases value.isNull <;> rfl

theorem noOthers_written :
    Schema.noOthers (writtenFields type field value parts) keys = .sound () := by
  unfold writtenFields
  cases field <;> cases value.isNull <;> cases parts <;> rfl

end Node

mutual

/-- A settled form is read back from the form in which it is written. -/
theorem read_toValue : ∀ form : ConditionForm, form.Settled → read form.toValue = .sound form.kept
  | .node type field value parts, ⟨hwhole, hparts⟩ => by
    rw [toValue_node, read, required_type hwhole.ne_unknown, optional_field, optional_value,
      readParts_written, readParts_partsField parts hparts, noOthers_written]
    exact hwhole.partsKept.settle

theorem readParts_partsField : ∀ parts : Option (List ConditionForm), PartsSettled parts →
    readParts (partsField parts) = .sound (partsKept parts)
  | none, _ => rfl
  | some parts, h => by
    show (some <$> readFrom 0 (toValues parts) : Checked _) = _
    rw [readFrom_toValues parts 0 h]
    rfl

theorem readFrom_toValues : ∀ (parts : List ConditionForm) (n : Nat), AllSettled parts →
    readFrom n (toValues parts) = .sound (allKept parts)
  | [], _, _ => rfl
  | form :: rest, n, ⟨hform, hrest⟩ => by
    rw [toValues, readFrom, read_toValue form hform, readFrom_toValues rest (n + 1) hrest]
    rfl

end

mutual

/-- What is read is settled. -/
theorem settled_of_read : ∀ {v : Value} {form : ConditionForm}, read v = .sound form → form.Settled
  | .object fields, form, h => by
    rw [read] at h
    obtain ⟨node, hnode, hsettle⟩ := Checked.andThen_eq_sound h
    obtain ⟨_, parts, h_value, hparts, h_eq⟩ :=
      Checked.seq_eq_sound (Checked.seqLeft_eq_sound hnode)
    obtain ⟨_, value, h_field, -, rfl⟩ := Checked.seq_eq_sound h_value
    obtain ⟨_, field, h_type, -, rfl⟩ := Checked.seq_eq_sound h_field
    obtain ⟨type, htype, rfl⟩ := Checked.map_eq_sound h_type
    subst h_eq
    obtain ⟨word, hword⟩ := Schema.required_eq_sound htype
    exact settled_of_settle (ConditionType.ne_unknown_of_oneOf hword)
      (partsSettled_of_readParts (Checked.below_eq_sound hparts)) hsettle
  | .null, _, h | .bool _, _, h | .int _, _, h | .float _, _, h | .text _, _, h | .list _, _, h => by
    cases h

theorem partsSettled_of_readParts : ∀ {fields : List (String × Value)}
    {parts : Option (List ConditionForm)}, readParts fields = .sound parts → PartsSettled parts
  | [], _, h => by
    cases h
    trivial
  | (name, v) :: rest, parts, h => by
    rw [readParts] at h
    split at h
    · exact partsSettled_of_readPartsValue h
    · exact partsSettled_of_readParts h

theorem partsSettled_of_readPartsValue : ∀ {v : Value} {parts : Option (List ConditionForm)},
    readPartsValue v = .sound parts → PartsSettled parts
  | .null, _, h => by
    cases h
    trivial
  | .list vs, _, h => by
    rw [readPartsValue] at h
    obtain ⟨parts, hparts, rfl⟩ := Checked.map_eq_sound h
    exact allSettled_of_readFrom hparts
  | .bool _, _, h | .int _, _, h | .float _, _, h | .text _, _, h | .object _, _, h => by cases h

theorem allSettled_of_readFrom : ∀ {vs : List Value} {n : Nat} {parts : List ConditionForm},
    readFrom n vs = .sound parts → AllSettled parts
  | [], _, _, h => by
    cases h
    trivial
  | v :: rest, n, _, h => by
    rw [readFrom] at h
    obtain ⟨_, parts, hfirst, hrest, rfl⟩ := Checked.seq_eq_sound h
    obtain ⟨form, hform, rfl⟩ := Checked.map_eq_sound hfirst
    exact ⟨settled_of_read (Checked.below_eq_sound hform), allSettled_of_readFrom hrest⟩

end

end ConditionForm

/-! ## Levels -/

namespace LevelConfig

/-- The level asks for one approval at least, and for more than no hours, if it says how many. -/
structure Admitted (c : LevelConfig) : Prop where
  needed : c.Sound
  timed : ∀ hours, c.timeoutHours = some hours → (!(hours ≤ 0.0 : Bool)) = true

theorem admitted_of_read {v : Value} {c : LevelConfig} (h : read v = .sound c) : c.Admitted where
  needed := sound_of_read h
  timed := by
    obtain ⟨fields, -, htimeout⟩ := fields_of_read h
    intro hours hhours
    rcases Schema.optional_eq_sound htimeout with hnone | ⟨v, hv⟩
    · rw [hnone] at hhours
      cases hhours
    · rcases Schema.nullable_eq_sound hv with hnone | ⟨x, hsome, hx⟩
      · rw [hnone] at hhours
        cases hhours
      · rw [hsome] at hhours
        cases hhours
        exact Schema.positiveFloat_eq_sound hx

section Fields

variable (c : LevelConfig)

/-- The fields under which a level is written. -/
def writtenFields : Fields :=
  [("level", c.level.toValue), ("name", .text c.name), ("approvers", .ofTexts c.approvers),
    ("isOptional", .bool c.isOptional), ("isParallel", .bool c.isParallel)]
    ++ optionalField "requiredApprovals" .int c.requiredApprovals
    ++ optionalField "timeoutHours" .float c.timeoutHours
    ++ optionalField "escalationUserId" .text c.escalationUser

theorem required_level :
    Schema.required c.writtenFields (.word "level") (Schema.oneOf Level.table) = .sound c.level := by
  show (Schema.oneOf Level.table c.level.toValue).below "level" = _
  cases c.level <;> rfl

theorem optional_approvers :
    Schema.optional c.writtenFields (.word "approvers") [] (Schema.list Schema.text) =
      .sound c.approvers := by
  show (Schema.list Schema.text (.ofTexts c.approvers)).below "approvers" = _
  rw [Schema.list_ofTexts]
  rfl

theorem optional_requiredApprovals (h : c.Sound) :
    Schema.optional c.writtenFields ⟨"requiredApprovals", "required_approvals"⟩ none
      (Schema.nullable (Schema.intFrom 1)) = .sound c.requiredApprovals := by
  unfold writtenFields
  cases hneeded : c.requiredApprovals with
  | none => cases c.timeoutHours <;> cases c.escalationUser <;> rfl
  | some n =>
    show (some <$> Checked.ensure n (1 ≤ n) _ : Checked _).below _ = _
    rw [Checked.ensure, if_pos (decide_eq_true (h n hneeded))]
    rfl

theorem optional_timeoutHours (h : c.Admitted) :
    Schema.optional c.writtenFields ⟨"timeoutHours", "timeout_hours"⟩ none
      (Schema.nullable Schema.positiveFloat) = .sound c.timeoutHours := by
  unfold writtenFields
  cases hhours : c.timeoutHours with
  | none => cases c.requiredApprovals <;> cases c.escalationUser <;> rfl
  | some x =>
    have hread : Schema.positiveFloat (.float x) = .sound x := by
      show Checked.ensure x _ _ = _
      rw [Checked.ensure, if_pos (h.timed x hhours)]
    have hfound : Schema.optional (optionalField "timeoutHours" .float (some x))
        ⟨"timeoutHours", "timeout_hours"⟩ none (Schema.nullable Schema.positiveFloat) =
          .sound (some x) := by
      show (some <$> Schema.positiveFloat (.float x) : Checked _).below _ = _
      rw [hread]
      rfl
    cases c.requiredApprovals <;> exact hfound

theorem optional_escalationUser :
    Schema.optional c.writtenFields ⟨"escalationUserId", "escalation_user_id"⟩ none
      (Schema.nullable Schema.text) = .sound c.escalationUser := by
  unfold writtenFields
  cases c.requiredApprovals <;> cases c.timeoutHours <;> cases c.escalationUser <;> rfl

theorem noOthers_written : Schema.noOthers c.writtenFields keys = .sound () := by
  unfold writtenFields
  cases c.requiredApprovals <;> cases c.timeoutHours <;> cases c.escalationUser <;> rfl

end Fields

/-- A level is read back from the form in which it is written. -/
theorem read_toValue {c : LevelConfig} (h : c.Admitted) : read c.toValue = .sound c := by
  show Schema.object _ _ _ (.object c.writtenFields) = _
  unfold Schema.object
  simp only
  rw [c.required_level, c.optional_approvers, c.optional_requiredApprovals h.needed,
    c.optional_timeoutHours h, c.optional_escalationUser, c.noOthers_written]
  rfl

end LevelConfig

/-! ## Rules -/

namespace Routing

theorem oneOf_word (r : Routing) : Schema.oneOf table (.text r.word) = .sound r := by
  cases r <;> rfl

end Routing

namespace RuleTopic

theorem oneOf_word (t : RuleTopic) : Schema.oneOf table (.text t.word) = .sound t := by
  cases t <;> rfl

end RuleTopic

theorem Level.oneOf_toValue (l : Level) : Schema.oneOf table l.toValue = .sound l := by
  cases l <;> rfl

namespace RuleAction

variable {a b : RuleAction}

theorem eq_of_settle (h : settle a = .sound b) : a = b := by
  unfold settle at h
  split at h
  · cases h
  · split at h
    · cases h
    · split at h
      · cases h
      · cases h
        rfl

/-- An action that was read has what it works with. -/
theorem settle_of_read {v : Value} (h : read v = .sound a) : settle a = .sound a := by
  obtain ⟨b, -, hsettle⟩ := Checked.andThen_eq_sound h
  obtain rfl := eq_of_settle hsettle
  exact hsettle

section Fields

variable (a)

/-- The fields under which an action is written. -/
def writtenFields : Fields :=
  [("type", .text a.routing.word)] ++ optionalField "level" Level.toValue a.level
    ++ optionalField "skipToLevel" Level.toValue a.skipTo
    ++ optionalField "approverIds" .ofTexts a.approvers

theorem required_type :
    Schema.required a.writtenFields (.word "type") (Schema.oneOf Routing.table) =
      .sound a.routing := by
  show (Schema.oneOf Routing.table (.text a.routing.word)).below "type" = _
  rw [a.routing.oneOf_word]
  rfl

theorem optional_level :
    Schema.optional a.writtenFields (.word "level") none
      (Schema.nullable (Schema.oneOf Level.table)) = .sound a.level := by
  unfold writtenFields
  cases a.level with
  | none => cases a.skipTo <;> cases a.approvers <;> rfl
  | some l =>
    show (some <$> Schema.oneOf Level.table l.toValue : Checked _).below _ = _
    rw [l.oneOf_toValue]
    rfl

theorem optional_skipTo :
    Schema.optional a.writtenFields ⟨"skipToLevel", "skip_to_level"⟩ none
      (Schema.nullable (Schema.oneOf Level.table)) = .sound a.skipTo := by
  unfold writtenFields
  cases a.skipTo with
  | none => cases a.level <;> cases a.approvers <;> rfl
  | some l =>
    have hfound : Schema.optional (optionalField "skipToLevel" Level.toValue (some l))
        ⟨"skipToLevel", "skip_to_level"⟩ none (Schema.nullable (Schema.oneOf Level.table)) =
          .sound (some l) := by
      show (some <$> Schema.oneOf Level.table l.toValue : Checked _).below _ = _
      rw [l.oneOf_toValue]
      rfl
    cases a.level <;> exact hfound

theorem optional_approvers :
    Schema.optional a.writtenFields ⟨"approverIds", "approver_ids"⟩ none
      (Schema.nullable (Schema.list Schema.text)) = .sound a.approvers := by
  unfold writtenFields
  cases a.approvers with
  | none => cases a.level <;> cases a.skipTo <;> rfl
  | some users =>
    have hfound : Schema.optional (optionalField "approverIds" .ofTexts (some users))
        ⟨"approverIds", "approver_ids"⟩ none (Schema.nullable (Schema.list Schema.text)) =
          .sound (some users) := by
      show (some <$> Schema.list Schema.text (.ofTexts users) : Checked _).below _ = _
      rw [Schema.list_ofTexts]
      rfl
    cases a.level <;> cases a.skipTo <;> exact hfound

theorem noOthers_written : Schema.noOthers a.writtenFields keys = .sound () := by
  unfold writtenFields
  cases a.level <;> cases a.skipTo <;> cases a.approvers <;> rfl

end Fields

/-- An action with what it works with is read back from the form in which it is written. -/
theorem read_toValue (h : settle a = .sound a) : read a.toValue = .sound a := by
  show Checked.andThen (Schema.object _ _ _ (.object a.writtenFields)) settle = _
  unfold Schema.object
  simp only
  rw [a.required_type, a.optional_level, a.optional_skipTo, a.optional_approvers, a.noOthers_written]
  exact h

end RuleAction

namespace Rule

/-- The condition and the action of the rule have passed their checks. -/
structure Admitted (r : Rule) : Prop where
  condition : r.condition.Settled
  plain : r.condition.usesExtended = false
  action : r.action.settle = .sound r.action

/-- The rule as it is read back. -/
def kept (r : Rule) : Rule := { r with condition := r.condition.kept }

theorem admitted_of_read {v : Value} {r : Rule} (h : read v = .sound r) : r.Admitted := by
  obtain ⟨rule, hrule, hsettle⟩ := Checked.andThen_eq_sound h
  obtain ⟨fields, h_enabled⟩ := Schema.object_eq_sound hrule
  obtain ⟨_, enabled, h_priority, -, h_eq⟩ := Checked.seq_eq_sound h_enabled
  obtain ⟨_, priority, h_action, -, rfl⟩ := Checked.seq_eq_sound h_priority
  obtain ⟨_, action, h_condition, haction, rfl⟩ := Checked.seq_eq_sound h_action
  obtain ⟨_, condition, h_topic, hcondition, rfl⟩ := Checked.seq_eq_sound h_condition
  obtain ⟨_, topic, h_name, -, rfl⟩ := Checked.seq_eq_sound h_topic
  obtain ⟨_, name, h_id, -, rfl⟩ := Checked.seq_eq_sound h_name
  obtain ⟨id, -, rfl⟩ := Checked.map_eq_sound h_id
  subst h_eq
  obtain ⟨_, hread⟩ := Schema.required_eq_sound hcondition
  obtain ⟨_, hread'⟩ := Schema.required_eq_sound haction
  unfold settle at hsettle
  split at hsettle
  · cases hsettle
  · next hplain =>
    cases hsettle
    exact ⟨ConditionForm.settled_of_read hread, Bool.eq_false_iff.mpr hplain,
      RuleAction.settle_of_read hread'⟩

/-- The action of a rule that has passed its checks acts: it names the level, the target or the approvers
    that its routing works with. -/
theorem Admitted.acts {r : Rule} (h : r.Admitted) :
    match r.action.routing with
    | .requireLevel => ∃ l : Level, ∀ k, r.requires k = true ↔ k = l
    | .skipLevel => ∃ target : Level, ∀ l, r.skips l = true ↔ l.index < target.index
    | .autoApprove => r.approves = true
    | .assignApprover => ∃ l : Level, r.assigns l ≠ [] ∧ ∀ k, k ≠ l → r.assigns k = [] := by
  have haction := h.action
  unfold RuleAction.settle at haction
  cases hrouting : r.action.routing with
  | requireLevel =>
    cases hlevel : r.action.level with
    | none =>
      rw [hrouting, hlevel] at haction
      cases haction
    | some l =>
      refine ⟨l, fun k => ?_⟩
      simp only [requires, hrouting, hlevel, beq_self_eq_true, Bool.true_and, beq_iff_eq, Option.some_inj]
      exact eq_comm
  | skipLevel =>
    cases htarget : r.action.skipTo with
    | none =>
      rw [hrouting, htarget] at haction
      cases haction
    | some target =>
      refine ⟨target, fun l => ?_⟩
      unfold Rule.skips
      rw [hrouting, htarget]
      exact decide_eq_true_iff
  | autoApprove => simp [approves, hrouting]
  | assignApprover =>
    cases hlevel : r.action.level with
    | none =>
      rw [hrouting, hlevel] at haction
      cases haction
    | some l =>
      have hfilled : r.action.approvers.getD [] ≠ [] := by
        intro hnone
        rw [hrouting, hlevel, hnone] at haction
        cases haction
      refine ⟨l, by simpa [assigns, hrouting, hlevel] using hfilled, fun k hk => ?_⟩
      simp [assigns, hrouting, hlevel, Ne.symm hk]

/-- A rule is read back from the form in which it is written. -/
theorem read_toValue {r : Rule} (h : r.Admitted) : read r.toValue = .sound r.kept := by
  have hcondition : (ConditionForm.read r.condition.toValue).below "condition" =
      .sound r.condition.kept := by
    rw [ConditionForm.read_toValue r.condition h.condition]
    rfl
  have haction : (RuleAction.read r.action.toValue).below "action" = .sound r.action := by
    rw [RuleAction.read_toValue h.action]
    rfl
  have htopic : (Schema.oneOf RuleTopic.table (.text r.topic.word)).below "type" =
      .sound r.topic := by
    rw [r.topic.oneOf_word]
    rfl
  have hsettle : settle r.kept = .sound r.kept := by
    have hplain : r.kept.condition.usesExtended = false :=
      (ConditionForm.usesExtended_kept r.condition).trans h.plain
    rw [settle, hplain]
    rfl
  show Checked.andThen (Rule.mk <$> (.sound r.id) <*> (.sound r.name)
    <*> (Schema.oneOf RuleTopic.table (.text r.topic.word)).below "type"
    <*> (ConditionForm.read r.condition.toValue).below "condition"
    <*> (RuleAction.read r.action.toValue).below "action"
    <*> (.sound r.priority) <*> (.sound r.enabled) <* (.sound ())) settle = _
  rw [hcondition, haction, htopic]
  exact hsettle

end Rule

/-! ## Workflows -/

namespace Workflow

/-- The levels have passed their checks: there are some, each of them once, and in their order. -/
structure LevelsAdmitted (levels : List LevelConfig) : Prop where
  filled : levels ≠ []
  nodup : (levels.map (·.level)).Nodup
  sorted : levels.Pairwise fun a b => a.level.index ≤ b.level.index
  each : ∀ c ∈ levels, c.Admitted

/-- The workflow has passed all checks. -/
structure Admitted (w : Workflow) : Prop where
  named : 0 < w.name.length ∧ w.name.length ≤ 200
  levels : LevelsAdmitted w.levels
  rules : ∀ r ∈ w.rules, r.Admitted

theorem admitted_of_read {v : Value} {w : Workflow} (h : read v = .sound w) : w.Admitted := by
  obtain ⟨fields, levels, hname, hlevels, hrules, hnodup, hsorted⟩ := fields_of_read h
  obtain ⟨_, hname⟩ := Schema.required_eq_sound hname
  obtain ⟨_, hlevels⟩ := Schema.required_eq_sound hlevels
  have hperm : w.levels.Perm levels := hsorted ▸ List.mergeSort_perm _ _
  refine ⟨Schema.boundedText_eq_sound hname, ⟨?_, ?_, ?_, ?_⟩, ?_⟩
  · intro hnil
    rw [hnil] at hperm
    exact Schema.ne_nil_of_filledList hlevels hperm.nil_eq.symm
  · exact (hperm.map _).nodup_iff.mpr hnodup
  · have hpairs : (levels.mergeSort fun a b => a.level.index ≤ b.level.index).Pairwise
        fun a b => decide (a.level.index ≤ b.level.index) = true := by
      refine List.pairwise_mergeSort (fun a b c hab hbc => ?_) (fun a b => ?_) levels
      · exact decide_eq_true (Nat.le_trans (of_decide_eq_true hab) (of_decide_eq_true hbc))
      · rw [Bool.or_eq_true, decide_eq_true_eq, decide_eq_true_eq]
        exact Nat.le_total _ _
    rw [hsorted]
    exact hpairs.imp of_decide_eq_true
  · intro c hc
    obtain ⟨_, hread⟩ := Schema.filledList_eq_sound hlevels c (hperm.mem_iff.mp hc)
    exact LevelConfig.admitted_of_read hread
  · intro r hr
    rcases Schema.optional_eq_sound hrules with hnone | ⟨_, hlist⟩
    · rw [hnone] at hr
      cases hr
    · obtain ⟨_, hread⟩ := Schema.list_eq_sound hlist r hr
      exact Rule.admitted_of_read hread

theorem admitted_of_payload {payload : Value} {w : Workflow} (h : ofPayload payload = .ok w) :
    w.Admitted :=
  admitted_of_read (Schema.payload_eq_ok h)

/-- Levels that have passed their checks are read back, -/
theorem filledList_levels {levels : List LevelConfig} (h : LevelsAdmitted levels) :
    Schema.filledList LevelConfig.read (.list (levels.map LevelConfig.toValue)) =
      .sound levels := by
  have hlist : Schema.list LevelConfig.read (.list (levels.map LevelConfig.toValue)) =
      .sound (levels.map id) := Schema.list_map fun c hc => LevelConfig.read_toValue (h.each c hc)
  rw [List.map_id] at hlist
  rw [Schema.filledList, hlist]
  cases levels with
  | nil => exact absurd rfl h.filled
  | cons c rest => rfl

/-- and settle as they are. -/
theorem settle_of_levels {w : Workflow} (h : LevelsAdmitted w.levels) : settle w = .sound w := by
  have hsorted : (w.levels.mergeSort fun a b => a.level.index ≤ b.level.index) = w.levels :=
    List.mergeSort_of_pairwise (h.sorted.imp decide_eq_true)
  unfold settle
  rw [if_pos h.nodup, hsorted]

end Workflow

/-! ## Rows -/

/-- The row was written: its levels and its rules have passed their checks. -/
structure StoredWorkflow.Written (row : StoredWorkflow) : Prop where
  named : 0 < row.name.length ∧ row.name.length ≤ 200
  levels : ∃ levels, Workflow.LevelsAdmitted levels ∧
    row.levels = .list (levels.map LevelConfig.toValue)
  rules : ∃ rules : List Rule, (∀ r ∈ rules, r.Admitted) ∧ row.rules = .list (rules.map Rule.toValue)

/-- A row that was written is read back. -/
theorem Workflow.ofPayload_payloadOf {row : StoredWorkflow} {levels : List LevelConfig}
    {rules : List Rule} (hnamed : 0 < row.name.length ∧ row.name.length ≤ 200)
    (hlevels : LevelsAdmitted levels) (hrules : ∀ r ∈ rules, r.Admitted)
    (hlevelsValue : row.levels = .list (levels.map LevelConfig.toValue))
    (hrulesValue : row.rules = .list (rules.map Rule.toValue)) :
    ofPayload (Site.payloadOf row) =
      .ok ⟨row.name, row.description.getD "", levels, rules.map Rule.kept⟩ := by
  have hread_name : (Schema.boundedText 200 (.text row.name)).below "name" = .sound row.name := by
    rw [Schema.boundedText_text hnamed.1 hnamed.2]
    rfl
  have hread_levels : (Schema.filledList LevelConfig.read (row.levels.orElse (.list []))).below "levels" =
      .sound levels := by
    have htruthy : row.levels.orElse (.list []) = .list (levels.map LevelConfig.toValue) := by
      rw [hlevelsValue]
      cases levels with
      | nil => rfl
      | cons c rest => rfl
    rw [htruthy, filledList_levels hlevels]
    rfl
  have hread_rules : (Schema.list Rule.read (row.rules.orElse (.list []))).below "rules" =
      .sound (rules.map Rule.kept) := by
    have htruthy : row.rules.orElse (.list []) = .list (rules.map Rule.toValue) := by
      rw [hrulesValue]
      cases rules with
      | nil => rfl
      | cons r rest => rfl
    rw [htruthy, Schema.list_map fun r hr => Rule.read_toValue (hrules r hr)]
    rfl
  show Checked.toResult "Invalid workflow configuration" (Checked.andThen (Workflow.mk
    <$> (Schema.boundedText 200 (.text row.name)).below "name"
    <*> (.sound (row.description.getD ""))
    <*> (Schema.filledList LevelConfig.read (row.levels.orElse (.list []))).below "levels"
    <*> (Schema.list Rule.read (row.rules.orElse (.list []))).below "rules"
    <* (.sound ())) settle) = _
  rw [hread_name, hread_levels, hread_rules]
  exact congrArg (Checked.toResult _) (settle_of_levels hlevels)

/-- So a row that was written can be read. -/
theorem StoredWorkflow.Written.ofPayload {row : StoredWorkflow} (h : row.Written) :
    ∃ w, Workflow.ofPayload (Site.payloadOf row) = .ok w := by
  obtain ⟨levels, hlevels, hlevelsValue⟩ := h.levels
  obtain ⟨rules, hrules, hrulesValue⟩ := h.rules
  exact ⟨_, Workflow.ofPayload_payloadOf h.named hlevels hrules hlevelsValue hrulesValue⟩

end Signoff
