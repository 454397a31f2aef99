import Signoff.Automation.Schema
import Signoff.Proofs.Schema.Written

/-! # Conditions of automations that were saved

    The conditions of an automation are kept as a tree, also when they were
    written as a block:

    * `ConditionForm.read_cases`: what an object was read from as a condition.
    * `ConditionForm.ofValue_of_read`: a tree that was read says what its form says.
    * `ConditionForm.kept_of_finite`: the form is read back as it is, if all doubles
      are finite.
    * `AutomationConditions.Tree`: no conditions, or a tree that cannot be taken for a
      block. What is read is one (`tree_of_read`).
    * `Tree.conditionsHold`: so it holds where the tree does.
    * `Tree.readField`: it is read again, and says the same.
-/

namespace Signoff

/-! ## Forms -/

namespace ConditionType

theorem word_of_lookup {word : String} {type : ConditionType} (h : table.lookup word = some type) :
    word = type.word ∧ type ≠ .test .unknown := by
  have htable : ∀ entry ∈ table, entry.1 = entry.2.word ∧ entry.2 ≠ .test .unknown := by decide
  obtain ⟨before, behind, hsplit, -⟩ := List.lookup_eq_some_iff.mp h
  exact htable (word, type) (by simp [hsplit])

end ConditionType

namespace ConditionForm

variable {fields : Fields} {form : ConditionForm}

/-- A condition that was read has its type, its field and its value from fields of their own, and has no
    other field than its parts. -/
theorem read_cases (h : read (.object fields) = .sound form) :
    ∃ (type : ConditionType) (field : Option String) (parts : Option (List ConditionForm)),
      Fields.get fields "type" = .text type.word ∧ type ≠ .test .unknown ∧
      Fields.get fields "field" = .ofText? field ∧ readParts fields = .sound parts ∧
      (∀ entry ∈ fields, ∃ key ∈ keys, entry.1 = key.wire) ∧
      settle (.node type field (Fields.get fields "value") parts) = .sound form := by
  rw [read] at h
  obtain ⟨node, hnode, hsettle⟩ := Checked.andThen_eq_sound h
  have hothers := Checked.passed_of_seqLeft hnode
  obtain ⟨_, parts, h_value, hparts, h_eq⟩ := Checked.seq_eq_sound (Checked.seqLeft_eq_sound hnode)
  obtain ⟨_, value, h_field, hvalue, rfl⟩ := Checked.seq_eq_sound h_value
  obtain ⟨_, field, h_type, hfield, rfl⟩ := Checked.seq_eq_sound h_field
  obtain ⟨type, htype, rfl⟩ := Checked.map_eq_sound h_type
  obtain ⟨_, htext, htype⟩ := Schema.required_word_eq_sound htype
  obtain ⟨word, rfl, hword⟩ := Schema.lookup_of_oneOf htype
  obtain ⟨rfl, hknown⟩ := ConditionType.word_of_lookup hword
  refine ⟨type, field, parts, ?_, hknown, ?_, Checked.below_eq_sound hparts, fun entry hentry => ?_, ?_⟩
  · rw [Fields.get, htext]
    rfl
  · rcases Schema.optional_word_eq_sound hfield with ⟨hnone, rfl⟩ | ⟨v, hsome, hv⟩
    · rw [Fields.get, hnone]
      rfl
    · rw [Fields.get, hsome]
      exact Schema.nullable_text_eq_sound hv
  · obtain ⟨key, hkey, hname⟩ := Schema.noOthers_eq_sound hothers hentry
    have hwords : ∀ key ∈ keys, key.plain = key.wire := by decide
    exact ⟨key, hkey, hname.elim id fun hplain => hplain.trans (hwords key hkey)⟩
  · have hvalue : value = Fields.get fields "value" := by
      rcases Schema.optional_word_eq_sound hvalue with ⟨hnone, rfl⟩ | ⟨v, hsome, hv⟩
      · rw [Fields.get, hnone]
        rfl
      · cases hv
        rw [Fields.get, hsome]
        rfl
    rw [← hvalue, h_eq]
    exact hsettle

/-- A condition that was read names no test under another name. -/
theorem isBlockLeaf_of_read {v : Value} (h : read v = .sound form) :
    Condition.isBlockLeaf v = false := by
  cases v with
  | object fields =>
    obtain ⟨_, _, _, -, -, -, -, hnames, -⟩ := read_cases h
    refine List.any_eq_false.mpr fun entry hentry => ?_
    obtain ⟨key, hkey, hname⟩ := hnames entry hentry
    have hkeys : ∀ key ∈ keys, (key.wire == "operator") = false := by decide
    rw [hname, hkeys key hkey]
    exact Bool.false_ne_true
  | _ => rfl

/-- The parts were read from a list, or there are none. -/
theorem readParts_cases {parts : Option (List ConditionForm)} (h : readParts fields = .sound parts) :
    (parts = none ∧ Fields.get fields "conditions" = .null) ∨
      ∃ vs forms, parts = some forms ∧ Fields.get fields "conditions" = .list vs ∧
        readFrom 0 vs = .sound forms := by
  induction fields with
  | nil =>
    cases h
    exact .inl ⟨rfl, rfl⟩
  | cons entry rest ih =>
    obtain ⟨name, v⟩ := entry
    rw [readParts] at h
    unfold Fields.get Fields.get? at ih ⊢
    rw [List.lookup_cons]
    split at h
    · next hname =>
      rw [hname, beq_self_eq_true]
      cases v with
      | null =>
        cases h
        exact .inl ⟨rfl, rfl⟩
      | list vs =>
        obtain ⟨forms, hforms, rfl⟩ := Checked.map_eq_sound h
        exact .inr ⟨vs, forms, rfl, rfl, hforms⟩
      | _ => cases h
    · next hother =>
      rw [beq_false_of_ne (Ne.symm hother)]
      exact ih h

/-- No part that was read is a leaf of a block. -/
theorem any_isBlockLeaf_of_readFrom {vs : List Value} {n : Nat} {forms : List ConditionForm}
    (h : readFrom n vs = .sound forms) : vs.any Condition.isBlockLeaf = false := by
  induction vs generalizing n forms with
  | nil => rfl
  | cons v rest ih =>
    obtain ⟨_, _, hfirst, hrest, -⟩ := Checked.seq_eq_sound h
    obtain ⟨form, hform, -⟩ := Checked.map_eq_sound hfirst
    rw [List.any_cons, isBlockLeaf_of_read (Checked.below_eq_sound hform), ih hrest]
    rfl

/-! ### What a form says -/

theorem ofNode_word {type : ConditionType} (h : type ≠ .test .unknown) (field : Option String)
    (value : Value) (parts : Option (List ConditionForm)) :
    Condition.ofNode (.text type.word) (.ofText? field) value (.ok (partsConditions parts)) =
      (node type field value parts).condition := by
  cases type with
  | all | any => rfl
  | test t =>
    cases t with
    | unknown => exact absurd rfl h
    | _ => rfl

/-- Settling changes nothing of what is said. -/
theorem condition_of_settle {node : ConditionForm} (h : settle node = .sound form) :
    form.condition = node.condition := by
  obtain ⟨type, field, value, parts⟩ := node
  cases type with
  | test t =>
    rw [settle] at h
    split at h
    · cases h
      rfl
    · cases h
  | all | any =>
    cases h
    cases parts <;> rfl

mutual

/-- A tree that was read says what its form says. -/
theorem ofValue_of_read : ∀ {v : Value} {form : ConditionForm}, read v = .sound form →
    Condition.ofValue v = form.condition
  | .object fields, form, h => by
    obtain ⟨type, field, parts, htype, hknown, hfield, hparts, -, hsettle⟩ := read_cases h
    rw [Condition.ofValue, htype, hfield, ofParts_of_readParts hparts, ofNode_word hknown,
      condition_of_settle hsettle]
  | .null, _, h | .bool _, _, h | .int _, _, h | .float _, _, h | .text _, _, h | .list _, _, h => by
    cases h

theorem ofParts_of_readParts : ∀ {fields : List (String × Value)}
    {parts : Option (List ConditionForm)}, readParts fields = .sound parts →
    Condition.ofParts fields = .ok (partsConditions parts)
  | [], _, h => by
    cases h
    rfl
  | (name, v) :: rest, parts, h => by
    rw [readParts] at h
    rw [Condition.ofParts]
    split at h
    · next hname =>
      rw [if_pos hname]
      exact ofPartsValue_of_readPartsValue h
    · next hother =>
      rw [if_neg hother]
      exact ofParts_of_readParts h

theorem ofPartsValue_of_readPartsValue : ∀ {v : Value} {parts : Option (List ConditionForm)},
    readPartsValue v = .sound parts → Condition.ofPartsValue v = .ok (partsConditions parts)
  | .null, _, h => by
    cases h
    rfl
  | .list vs, _, h => by
    rw [readPartsValue] at h
    obtain ⟨forms, hforms, rfl⟩ := Checked.map_eq_sound h
    rw [Condition.ofPartsValue, ofValues_of_readFrom hforms]
    rfl
  | .bool _, _, h | .int _, _, h | .float _, _, h | .text _, _, h | .object _, _, h => by cases h

theorem ofValues_of_readFrom : ∀ {vs : List Value} {n : Nat} {forms : List ConditionForm},
    readFrom n vs = .sound forms → Condition.ofValues vs = conditions forms
  | [], _, _, h => by
    cases h
    rfl
  | v :: rest, n, _, h => by
    rw [readFrom] at h
    obtain ⟨_, forms, hfirst, hrest, rfl⟩ := Checked.seq_eq_sound h
    obtain ⟨form, hform, rfl⟩ := Checked.map_eq_sound hfirst
    rw [Condition.ofValues, ofValue_of_read (Checked.below_eq_sound hform), ofValues_of_readFrom hrest]
    rfl

end

/-! ### Doubles that are not finite -/

theorem finite_get {fields : Fields} (h : Value.finiteFields fields = fields) (name : String) :
    (Fields.get fields name).finite = Fields.get fields name := by
  unfold Fields.get Fields.get?
  induction fields with
  | nil => rfl
  | cons entry rest ih =>
    obtain ⟨n, v⟩ := entry
    obtain ⟨hfirst, hrest⟩ := List.cons.inj h
    rw [List.lookup_cons]
    by_cases hname : name = n
    · rw [hname, beq_self_eq_true]
      exact (Prod.mk.inj hfirst).2
    · rw [beq_false_of_ne hname]
      exact ih hrest

mutual

/-- A form without such doubles stays what it is when it is written and read back. -/
theorem kept_of_finite : ∀ {v : Value} {form : ConditionForm}, read v = .sound form → v.finite = v →
    form.kept = form
  | .object fields, form, h, hfinite => by
    have hfields : Value.finiteFields fields = fields := Value.object.inj hfinite
    obtain ⟨type, field, parts, -, -, -, hparts, -, hsettle⟩ := read_cases h
    have hkept := partsKept_of_finite hparts hfields
    have hvalue := finite_get hfields "value"
    cases type with
    | test t =>
      rw [settle] at hsettle
      split at hsettle
      · cases hsettle
        rw [kept, hvalue, hkept]
      · cases hsettle
    | all | any =>
      cases hsettle
      rw [kept, hvalue]
      cases parts with
      | none => rfl
      | some forms => exact congrArg (node _ _ _) hkept
  | .null, _, h, _ | .bool _, _, h, _ | .int _, _, h, _ | .float _, _, h, _ | .text _, _, h, _
  | .list _, _, h, _ => by cases h

theorem partsKept_of_finite : ∀ {fields : List (String × Value)}
    {parts : Option (List ConditionForm)}, readParts fields = .sound parts →
    Value.finiteFields fields = fields → partsKept parts = parts
  | [], _, h, _ => by
    cases h
    rfl
  | (name, v) :: rest, parts, h, hfinite => by
    obtain ⟨hfirst, hrest⟩ := List.cons.inj hfinite
    rw [readParts] at h
    split at h
    · exact partsKept_of_finite_value h (Prod.mk.inj hfirst).2
    · exact partsKept_of_finite h hrest

theorem partsKept_of_finite_value : ∀ {v : Value} {parts : Option (List ConditionForm)},
    readPartsValue v = .sound parts → v.finite = v → partsKept parts = parts
  | .null, _, h, _ => by
    cases h
    rfl
  | .list vs, _, h, hfinite => by
    rw [readPartsValue] at h
    obtain ⟨forms, hforms, rfl⟩ := Checked.map_eq_sound h
    rw [partsKept, allKept_of_finite hforms (Value.list.inj hfinite)]
  | .bool _, _, h, _ | .int _, _, h, _ | .float _, _, h, _ | .text _, _, h, _
  | .object _, _, h, _ => by cases h

theorem allKept_of_finite : ∀ {vs : List Value} {n : Nat} {forms : List ConditionForm},
    readFrom n vs = .sound forms → Value.finiteItems vs = vs → allKept forms = forms
  | [], _, _, h, _ => by
    cases h
    rfl
  | v :: rest, n, _, h, hfinite => by
    obtain ⟨hfirst, hrest⟩ := List.cons.inj hfinite
    rw [readFrom] at h
    obtain ⟨_, forms, hread, hforms, rfl⟩ := Checked.seq_eq_sound h
    obtain ⟨form, hform, rfl⟩ := Checked.map_eq_sound hread
    rw [allKept, kept_of_finite (Checked.below_eq_sound hform) hfirst, allKept_of_finite hforms hrest]

end

/-! ### Junctions without parts -/

/-- Is the form a junction without parts? -/
def isHollow : ConditionForm → Bool
  | .node (.test _) _ _ _ => false
  | .node _ _ _ parts => (parts.getD []).isEmpty

theorem isHollow_kept (form : ConditionForm) : form.kept.isHollow = form.isHollow := by
  obtain ⟨type, field, value, parts⟩ := form
  cases type with
  | test t => rfl
  | all | any =>
    cases parts with
    | none => rfl
    | some forms => cases forms <;> rfl

/-- Such a junction is taken for a block, and no other condition that was read is. -/
theorem isBlock_of_read (h : read (.object fields) = .sound form) :
    AutomationConditions.isBlock fields = .ok form.isHollow := by
  obtain ⟨type, field, parts, htype, hknown, -, hparts, -, hsettle⟩ := read_cases h
  have hleaves : AutomationConditions.isBlock.leavesDecide fields = .ok (parts.getD []).isEmpty := by
    unfold AutomationConditions.isBlock.leavesDecide
    rcases readParts_cases hparts with ⟨rfl, hnone⟩ | ⟨vs, forms, rfl, hlist, hforms⟩
    · rw [hnone]
      rfl
    · rw [hlist]
      cases vs with
      | nil =>
        cases hforms
        rfl
      | cons v rest =>
        obtain ⟨_, _, hread, -, rfl⟩ := Checked.seq_eq_sound hforms
        obtain ⟨first, hfirst, rfl⟩ := Checked.map_eq_sound hread
        have hleaf := isBlockLeaf_of_read (Checked.below_eq_sound hfirst)
        show Except.ok (Condition.isBlockLeaf v && _) = _
        rw [hleaf]
        rfl
  unfold AutomationConditions.isBlock
  rw [htype]
  cases type with
  | all | any =>
    cases hsettle
    exact hleaves
  | test t =>
    rw [settle] at hsettle
    split at hsettle
    · cases hsettle
      cases t with
      | unknown => exact absurd rfl hknown
      | _ => rfl
    · cases hsettle

/-- A tree that was read is not taken for a block when it is looked at. -/
theorem conditionsHold_of_read {v : Value} (h : read v = .sound form) (snapshot : Snapshot) :
    Condition.conditionsHold v snapshot = (Condition.ofValue v).holds snapshot := by
  cases v with
  | object fields =>
    obtain ⟨type, field, parts, htype, -, -, hparts, -, -⟩ := read_cases h
    have htruthy : (Value.object fields).truthy = true := by
      cases fields with
      | nil => cases htype
      | cons _ _ => rfl
    have hleaves : (Value.object fields).field "conditions" = .ok (Fields.get fields "conditions") := rfl
    unfold Condition.conditionsHold
    rw [htruthy, hleaves]
    rcases readParts_cases hparts with ⟨-, hnone⟩ | ⟨vs, forms, -, hlist, hforms⟩
    · rw [hnone]
      rfl
    · rw [hlist]
      cases vs with
      | nil => rfl
      | cons v rest =>
        show (if (v :: rest).any Condition.isBlockLeaf then _ else _) = _
        rw [any_isBlockLeaf_of_readFrom hforms]
        rfl
  | _ => cases h

end ConditionForm

/-! ## Blocks -/

namespace BlockLeaf

/-- The leaf has the name of a field. -/
def Named (leaf : BlockLeaf) : Prop := 0 < leaf.field.length

/-- The leaf as a form. -/
def toForm (leaf : BlockLeaf) : ConditionForm :=
  .node (.test (.ofWord leaf.comparison.word)) (some leaf.field) leaf.value none

theorem named_of_read {v : Value} {leaf : BlockLeaf} (h : read v = .sound leaf) : leaf.Named := by
  obtain ⟨fields, hfields⟩ := Schema.object_eq_sound h
  obtain ⟨_, value, h_comparison, -, h_eq⟩ := Checked.seq_eq_sound hfields
  obtain ⟨_, comparison, h_field, -, rfl⟩ := Checked.seq_eq_sound h_comparison
  obtain ⟨field, hfield, rfl⟩ := Checked.map_eq_sound h_field
  subst h_eq
  obtain ⟨_, hfilled⟩ := Schema.required_eq_sound hfield
  exact Schema.filledText_eq_sound hfilled

/-- As a test of a tree it is read. -/
theorem read_toValue {leaf : BlockLeaf} (h : leaf.Named) :
    ConditionForm.read leaf.toValue = .sound leaf.toForm := by
  have hfilled : (some leaf.field).any (!·.isEmpty) = true := by
    rw [Option.any_some, Bool.not_eq_true', String.isEmpty_eq_false_iff]
    intro hempty
    rw [Named, hempty] at h
    exact absurd h (by decide)
  unfold toValue
  rw [ConditionForm.read]
  obtain ⟨field, comparison, value⟩ := leaf
  cases comparison <;>
  · show ConditionForm.settle (.node (.test _) (some field) value none) = _
    rw [ConditionForm.settle, if_pos hfilled]
    rfl

theorem readFrom_toValue {leaves : List BlockLeaf} (h : ∀ leaf ∈ leaves, leaf.Named) (n : Nat) :
    ConditionForm.readFrom n (leaves.map toValue) = .sound (leaves.map toForm) := by
  induction leaves generalizing n with
  | nil => rfl
  | cons leaf rest ih =>
    rw [List.map_cons, ConditionForm.readFrom, read_toValue (h leaf (List.mem_cons_self ..)),
      ih fun other hother => h other (List.mem_cons_of_mem _ hother)]
    rfl

/-- So is a junction of such tests. -/
theorem read_junction {leaves : List BlockLeaf} (h : ∀ leaf ∈ leaves, leaf.Named)
    {type : ConditionType} {word : String} (htype : type = .all ∨ type = .any)
    (hword : type.word = word) :
    ConditionForm.read (.object [("type", .text word), ("conditions", .list (leaves.map toValue))]) =
      .sound (.node type none .null (some (leaves.map toForm))) := by
  rw [ConditionForm.read]
  show Checked.andThen (ConditionForm.node
    <$> (Schema.oneOf ConditionType.table (.text word)).below "type" <*> .sound none
    <*> .sound .null
    <*> (some <$> ConditionForm.readFrom 0 (leaves.map toValue)).below "conditions"
    <* .sound ()) ConditionForm.settle = _
  rw [readFrom_toValue h 0, ← hword]
  rcases htype with rfl | rfl <;> rfl

end BlockLeaf

/-! ## Conditions as they are kept -/

namespace AutomationConditions

/-- No conditions, or a tree that is not taken for a block. -/
inductive Tree : Value → Prop where
  | none : Tree .null
  | node {fields : Fields} {form : ConditionForm}
      (hread : ConditionForm.read (.object fields) = .sound form) (hfilled : form.isHollow = false) :
      Tree (.object fields)

/-- The form of a tree is written as a tree. -/
theorem tree_toValue {form : ConditionForm} (hsettled : form.Settled)
    (hfilled : form.isHollow = false) : Tree form.toValue := by
  obtain ⟨type, field, value, parts⟩ := form
  have hread := ConditionForm.read_toValue _ hsettled
  exact .node hread ((ConditionForm.isHollow_kept _).trans hfilled)

/-- A block is kept as a tree. -/
theorem tree_of_readBlock {v kept : Value} (h : readBlock v = .sound kept) : Tree kept := by
  obtain ⟨⟨word, leaves⟩, hblock, rfl⟩ := Checked.map_eq_sound h
  obtain ⟨fields, hfields⟩ := Schema.object_eq_sound hblock
  obtain ⟨_, found, h_word, hleaves, h_eq⟩ := Checked.seq_eq_sound hfields
  obtain ⟨junction, hjunction, rfl⟩ := Checked.map_eq_sound h_word
  obtain ⟨rfl, rfl⟩ := Prod.mk.inj h_eq
  have hnamed : ∀ leaf ∈ found, leaf.Named := by
    intro leaf hleaf
    rcases Schema.optional_eq_sound hleaves with rfl | ⟨_, hlist⟩
    · cases hleaf
    · obtain ⟨_, hread⟩ := Schema.list_eq_sound hlist leaf hleaf
      exact BlockLeaf.named_of_read hread
  cases found with
  | nil => exact .none
  | cons leaf rest =>
    obtain ⟨_, hword⟩ := Schema.required_eq_sound hjunction
    obtain ⟨word, hmem⟩ := Schema.oneOf_eq_sound hword
    simp only [List.mem_cons, Prod.mk.injEq, List.not_mem_nil, or_false] at hmem
    rcases hmem with ⟨-, rfl⟩ | ⟨-, rfl⟩
    · exact .node (BlockLeaf.read_junction hnamed (.inl rfl) rfl) rfl
    · exact .node (BlockLeaf.read_junction hnamed (.inr rfl) rfl) rfl

/-- What is read is kept as a tree. -/
theorem tree_of_read {v kept : Value} (h : read v = .sound kept) : Tree kept := by
  unfold read at h
  split at h
  · next fields =>
    split at h
    · cases h
    · exact tree_of_readBlock h
    · next hblock =>
      obtain ⟨form, hform, rfl⟩ := Checked.map_eq_sound h
      have hfilled : form.isHollow = false := by
        rw [ConditionForm.isBlock_of_read hform] at hblock
        exact Except.ok.inj hblock
      exact tree_toValue (ConditionForm.settled_of_read hform) hfilled
  · cases h
    exact .none
  · cases h

theorem tree_of_readField {v kept : Value} (h : readField v = .sound kept) : Tree kept := by
  unfold readField at h
  split at h
  · cases h
    exact .none
  · obtain ⟨_, -, hread⟩ := Checked.andThen_eq_sound h
    exact tree_of_read hread

/-- The conditions that are kept hold where their tree does. -/
theorem Tree.conditionsHold {v : Value} (h : Tree v) (snapshot : Snapshot) :
    Condition.conditionsHold v snapshot = (Condition.ofValue v).holds snapshot := by
  cases h with
  | none => rfl
  | node hread _ => exact ConditionForm.conditionsHold_of_read hread snapshot

/-- The conditions that are kept are read again. Where all doubles are finite, they say the same. -/
theorem Tree.readField {v : Value} (h : Tree v) :
    ∃ v', AutomationConditions.readField v = .sound v' ∧ Tree v' ∧
      (v.finite = v → Condition.ofValue v' = Condition.ofValue v) := by
  cases h with
  | none => exact ⟨.null, rfl, .none, fun _ => rfl⟩
  | @node fields form hread hfilled =>
    have hsettled := ConditionForm.settled_of_read hread
    refine ⟨form.toValue, ?_, tree_toValue hsettled hfilled, fun hfinite => ?_⟩
    · show AutomationConditions.read (.object fields) = _
      unfold AutomationConditions.read
      simp only
      rw [ConditionForm.isBlock_of_read hread, hfilled]
      show ConditionForm.toValue <$> ConditionForm.read (.object fields) = _
      rw [hread]
      rfl
    · have hkept := ConditionForm.kept_of_finite hread hfinite
      rw [ConditionForm.ofValue_of_read (ConditionForm.read_toValue form hsettled), hkept,
        ConditionForm.ofValue_of_read hread]

end AutomationConditions
end Signoff
