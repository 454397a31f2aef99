import Signoff.Proofs.Automation.Tree

/-! # Conditions mean the same when they are kept

    The conditions of an automation are written as a block or as a tree, and are
    kept as a tree:

    * `AutomationConditions.IsBlock`: nothing at all, or a junction whose entries all
      name an operator. The reader decides the same (`isBlock_eq_true_iff`).
    * `AutomationConditions.blockHolds_of_readBlock`: a block holds where the tree does
      that is kept of it.
    * `ConditionForm.ofValue_finite`: a tree is kept with null in place of every double
      that is not finite.
    * `AutomationConditions.normalize_means`: so the conditions that are kept hold where
      those that were written do, unless a tree names such a double
      (`below_infinity_forgotten`).
-/

namespace Signoff

variable {fields : Fields} {v raw kept : Value} {leaf : BlockLeaf} {form : ConditionForm}

/-! ## Leaves of a block -/

namespace BlockLeaf

/-- A leaf was read from an object that names its operator, its field and its value. -/
theorem read_cases (h : read v = .sound leaf) :
    ∃ fields, v = .object fields ∧ Fields.get? fields "operator" = some (.text leaf.comparison.word) ∧
      Fields.get fields "field" = .text leaf.field ∧ Fields.get fields "value" = leaf.value := by
  cases v with
  | object fields =>
    have hread := Checked.seqLeft_eq_sound h
    obtain ⟨_, value, h_comparison, hvalue, h_eq⟩ := Checked.seq_eq_sound hread
    obtain ⟨_, comparison, h_field, hcomparison, rfl⟩ := Checked.seq_eq_sound h_comparison
    obtain ⟨field, hfield, rfl⟩ := Checked.map_eq_sound h_field
    subst h_eq
    refine ⟨fields, rfl, ?_, ?_, ?_⟩
    · obtain ⟨_, hoperator, hword⟩ := Schema.required_word_eq_sound hcomparison
      obtain ⟨word, rfl, hlookup⟩ := Schema.lookup_of_oneOf hword
      have htable : ∀ entry ∈ Comparison.table, entry.1 = entry.2.word := by decide
      obtain ⟨before, behind, hsplit, -⟩ := List.lookup_eq_some_iff.mp hlookup
      have hnamed : word = comparison.word := htable (word, comparison) (by simp [hsplit])
      rw [hoperator, hnamed]
    · obtain ⟨_, hname, hfilled⟩ := Schema.required_word_eq_sound hfield
      obtain ⟨s, htext, hensure⟩ := Checked.andThen_eq_sound hfilled
      obtain ⟨rfl, -⟩ := Checked.ensure_eq_sound hensure
      rw [Fields.get, hname, Schema.text_eq_sound htext]
      rfl
    · rcases Schema.optional_word_eq_sound hvalue with ⟨hnone, rfl⟩ | ⟨w, hsome, hw⟩
      · rw [Fields.get, hnone]
        rfl
      · cases hw
        rw [Fields.get, hsome]
        rfl
  | _ => cases h

/-- The test that is kept says what the leaf says. -/
theorem ofBlockLeaf_of_read (h : read v = .sound leaf) :
    Condition.ofBlockLeaf v = Condition.ofValue leaf.toValue := by
  obtain ⟨fields, rfl, hoperator, hfield, hvalue⟩ := read_cases h
  have hoperator : Fields.get fields "operator" = .text leaf.comparison.word := by
    rw [Fields.get, hoperator]
    rfl
  unfold Condition.ofBlockLeaf
  simp only
  rw [hoperator, hfield, hvalue]
  rfl

theorem ofValues_of_itemsFrom {n : Nat} {vs : List Value} {leaves : List BlockLeaf}
    (h : Schema.itemsFrom read n vs = .sound leaves) :
    Condition.ofValues (leaves.map toValue) = vs.map Condition.ofBlockLeaf := by
  induction vs generalizing n leaves with
  | nil =>
    cases h
    rfl
  | cons v rest ih =>
    obtain ⟨_, others, hfirst, hrest, rfl⟩ := Checked.seq_eq_sound h
    obtain ⟨leaf, hleaf, rfl⟩ := Checked.map_eq_sound hfirst
    rw [List.map_cons, List.map_cons, Condition.ofValues, ih hrest,
      ofBlockLeaf_of_read (Checked.below_eq_sound hleaf)]

end BlockLeaf

/-! ## Trees with doubles that are not finite -/

theorem Fields.get_finiteFields (fields : Fields) (name : String) :
    Fields.get (Value.finiteFields fields) name = (Fields.get fields name).finite := by
  unfold Fields.get Fields.get?
  induction fields with
  | nil => rfl
  | cons entry rest ih =>
    obtain ⟨n, v⟩ := entry
    rw [Value.finiteFields, List.lookup_cons, List.lookup_cons]
    by_cases hname : name = n
    · rw [hname, beq_self_eq_true]
      rfl
    · rw [beq_false_of_ne hname]
      exact ih

namespace ConditionForm

theorem finite_ofText? (field : Option String) :
    (Value.ofText? field).finite = .ofText? field := by
  cases field <;> rfl

mutual

/-- With null in place of such doubles a tree says what the form says that is kept of it. -/
theorem ofValue_finite : ∀ {v : Value} {form : ConditionForm}, read v = .sound form →
    Condition.ofValue v.finite = form.kept.condition
  | .object fields, form, h => by
    obtain ⟨type, field, parts, htype, hknown, hfield, hparts, -, hsettle⟩ := read_cases h
    have hkept : form.kept.condition =
        (node type field (Fields.get fields "value").finite (partsKept parts)).condition := by
      cases type with
      | test t =>
        rw [settle] at hsettle
        split at hsettle
        · cases hsettle
          rfl
        · cases hsettle
      | all | any =>
        cases hsettle
        cases parts <;> rfl
    rw [Value.finite, Condition.ofValue, Fields.get_finiteFields, Fields.get_finiteFields,
      Fields.get_finiteFields, htype, hfield, finite_ofText?, ofParts_finite hparts, hkept]
    exact ofNode_word hknown field _ _
  | .null, _, h | .bool _, _, h | .int _, _, h | .float _, _, h | .text _, _, h | .list _, _, h => by
    cases h

theorem ofParts_finite : ∀ {fields : List (String × Value)} {parts : Option (List ConditionForm)},
    readParts fields = .sound parts →
    Condition.ofParts (Value.finiteFields fields) = .ok (partsConditions (partsKept parts))
  | [], _, h => by
    cases h
    rfl
  | (name, v) :: rest, parts, h => by
    rw [readParts] at h
    rw [Value.finiteFields, Condition.ofParts]
    split at h
    · next hname =>
      rw [if_pos hname]
      exact ofPartsValue_finite h
    · next hother =>
      rw [if_neg hother]
      exact ofParts_finite h

theorem ofPartsValue_finite : ∀ {v : Value} {parts : Option (List ConditionForm)},
    readPartsValue v = .sound parts →
    Condition.ofPartsValue v.finite = .ok (partsConditions (partsKept parts))
  | .null, _, h => by
    cases h
    rfl
  | .list vs, _, h => by
    rw [readPartsValue] at h
    obtain ⟨forms, hforms, rfl⟩ := Checked.map_eq_sound h
    rw [Value.finite, Condition.ofPartsValue, ofValues_finite hforms]
    rfl
  | .bool _, _, h | .int _, _, h | .float _, _, h | .text _, _, h | .object _, _, h => by cases h

theorem ofValues_finite : ∀ {vs : List Value} {n : Nat} {forms : List ConditionForm},
    readFrom n vs = .sound forms →
    Condition.ofValues (Value.finiteItems vs) = conditions (allKept forms)
  | [], _, _, h => by
    cases h
    rfl
  | v :: rest, n, _, h => by
    rw [readFrom] at h
    obtain ⟨_, forms, hfirst, hrest, rfl⟩ := Checked.seq_eq_sound h
    obtain ⟨form, hform, rfl⟩ := Checked.map_eq_sound hfirst
    rw [Value.finiteItems, Condition.ofValues, ofValue_finite (Checked.below_eq_sound hform),
      ofValues_finite hrest]
    rfl

end

end ConditionForm

/-! ## Blocks and trees -/

namespace AutomationConditions

/-- The entries that a junction lists. -/
def entries (fields : Fields) : List Value :=
  match Fields.get fields "conditions" with
  | .list vs => vs
  | _ => []

/-- Nothing at all, or a block: a junction, perhaps an empty one, whose entries all name an operator. -/
def IsBlock (raw : Value) : Prop :=
  raw = .null ∨ ∃ fields, raw = .object fields ∧
    (Fields.get fields "type" = .text "and" ∨ Fields.get fields "type" = .text "or") ∧
    ∀ entry ∈ entries fields, Condition.isBlockLeaf entry = true

/-- What the reader takes for a block is one. -/
theorem isBlock_eq_true_iff
    (h : Fields.get fields "conditions" = .null ∨ ∃ vs, Fields.get fields "conditions" = .list vs) :
    isBlock fields = .ok true ↔ IsBlock (.object fields) := by
  have hleaves : isBlock.leavesDecide fields = .ok ((entries fields).all Condition.isBlockLeaf) := by
    unfold isBlock.leavesDecide entries
    rcases h with hnone | ⟨vs, hlist⟩
    · rw [hnone]
      rfl
    · rw [hlist]
      cases vs <;> rfl
  have hall : isBlock.leavesDecide fields = .ok true ↔
      ∀ entry ∈ entries fields, Condition.isBlockLeaf entry = true := by
    rw [hleaves, Except.ok.injEq, List.all_eq_true]
  constructor
  · intro htrue
    refine .inr ⟨fields, rfl, ?_⟩
    unfold isBlock at htrue
    split at htrue
    · next hand => exact ⟨.inl hand, hall.mp htrue⟩
    · next hor => exact ⟨.inr hor, hall.mp htrue⟩
    · cases htrue
  · rintro (hnull | ⟨_, ⟨⟩, hjunction, hentries⟩)
    · cases hnull
    · unfold isBlock
      rcases hjunction with htype | htype <;> rw [htype] <;> exact hall.mpr hentries

/-- A block was read from a junction, and from a list if it has entries. -/
theorem readBlock_cases (h : readBlock (.object fields) = .sound kept) :
    ∃ (word : String) (leaves : List BlockLeaf), (word = "and" ∨ word = "or") ∧
      Fields.get? fields "type" = some (.text word) ∧
      (Fields.get fields "conditions" = .null ∧ leaves = [] ∨
        ∃ vs, Fields.get fields "conditions" = .list vs ∧
          Schema.itemsFrom BlockLeaf.read 0 vs = .sound leaves) ∧
      kept = if leaves.isEmpty then .null
        else .object [("type", .text word), ("conditions", .list (leaves.map BlockLeaf.toValue))] := by
  obtain ⟨⟨word, leaves⟩, hblock, rfl⟩ := Checked.map_eq_sound h
  have hread := Checked.seqLeft_eq_sound hblock
  obtain ⟨_, found, h_word, hleaves, h_eq⟩ := Checked.seq_eq_sound hread
  obtain ⟨junction, hjunction, rfl⟩ := Checked.map_eq_sound h_word
  obtain ⟨rfl, rfl⟩ := Prod.mk.inj h_eq
  obtain ⟨_, htype, hword⟩ := Schema.required_word_eq_sound hjunction
  obtain ⟨given, rfl, hlookup⟩ := Schema.lookup_of_oneOf hword
  have htable : ∀ entry ∈ [("and", "and"), ("or", "or")], entry.1 = entry.2 ∧
      (entry.2 = "and" ∨ entry.2 = "or") := by decide
  obtain ⟨before, behind, hsplit, -⟩ := List.lookup_eq_some_iff.mp hlookup
  obtain ⟨hsame, hknown⟩ : given = junction ∧ (junction = "and" ∨ junction = "or") :=
    htable (given, junction) (by simp [hsplit])
  refine ⟨junction, found, hknown, hsame ▸ htype, ?_, rfl⟩
  rcases Schema.optional_word_eq_sound hleaves with ⟨hnone, rfl⟩ | ⟨w, hsome, hw⟩
  · left
    rw [Fields.get, hnone]
    exact ⟨rfl, rfl⟩
  · right
    rw [Fields.get, hsome]
    cases w with
    | list vs => exact ⟨vs, rfl, hw⟩
    | _ => cases hw

/-- A block holds where the tree does that is kept of it. -/
theorem blockHolds_of_readBlock (h : readBlock (.object fields) = .sound kept)
    (snapshot : Snapshot) :
    Condition.conditionsHold kept snapshot = Condition.blockHolds (.object fields) snapshot := by
  obtain ⟨word, leaves, hword, htype, hleaves, hkept⟩ := readBlock_cases h
  have htruthy : (Value.object fields).truthy = true := by
    cases fields with
    | nil => cases htype
    | cons _ _ => rfl
  rw [(tree_of_readBlock h).conditionsHold, hkept]
  unfold Condition.blockHolds Condition.blockHoldsWithin Condition.ofBlock
  rw [htruthy]
  rcases hleaves with ⟨hnone, rfl⟩ | ⟨vs, hlist, hitems⟩
  · -- Nothing is listed.
    simp only
    rw [hnone]
    rfl
  · simp only
    rw [hlist, htype]
    cases vs with
    | nil =>
      cases hitems
      rfl
    | cons v rest =>
      have hfilled : leaves.isEmpty = false := by
        obtain ⟨_, others, hfirst, -, rfl⟩ := Checked.seq_eq_sound hitems
        obtain ⟨first, -, rfl⟩ := Checked.map_eq_sound hfirst
        rfl
      have hparts : Condition.ofValue (.object [("type", .text word),
          ("conditions", .list (leaves.map BlockLeaf.toValue))]) =
            Condition.ofNode (.text word) .null .null
              (.ok (Condition.ofValues (leaves.map BlockLeaf.toValue))) := rfl
      rw [hfilled, if_neg Bool.false_ne_true, hparts, BlockLeaf.ofValues_of_itemsFrom hitems]
      rfl

/-- Open items, written as a tree with an empty junction in it. -/
def nested : Value :=
  .object [("type", .text "and"), ("conditions", .list [
    .object [("type", .text "equals"), ("field", .text "status"), ("value", .text "open")],
    .object [("type", .text "and"), ("conditions", .list [])]])]

/-- The conditions that are kept hold where those that were written do. Of a tree every double that is
    not finite is lost. -/
theorem normalize_means (h : normalize raw = .ok kept) (snapshot : Snapshot) :
    (IsBlock raw →
      Condition.conditionsHold kept snapshot = Condition.blockHolds raw snapshot) ∧
    (¬ IsBlock raw →
      Condition.conditionsHold kept snapshot = (Condition.ofValue raw.finite).holds snapshot ∧
      (raw.finite = raw →
        Condition.conditionsHold kept snapshot = (Condition.ofValue raw).holds snapshot)) := by
  have hread : read raw = .sound kept := by
    unfold normalize at h
    cases hread : read raw with
    | sound w =>
      rw [hread] at h
      cases h
      rfl
    | unsound _ | stuck _ =>
      rw [hread] at h
      cases h
  have htree := tree_of_read hread
  -- Both readers accept no parts but a list, and on such parts the test for a block is `IsBlock`.
  unfold read at hread
  split at hread
  · next fields =>
    split at hread
    · cases hread
    · next hblock =>
      obtain ⟨_, _, -, -, hleaves, -⟩ := readBlock_cases hread
      have hlisted : Fields.get fields "conditions" = .null ∨
          ∃ vs, Fields.get fields "conditions" = .list vs :=
        hleaves.imp And.left fun ⟨vs, hlist, _⟩ => ⟨vs, hlist⟩
      have hisBlock := (isBlock_eq_true_iff hlisted).mp hblock
      exact ⟨fun _ => blockHolds_of_readBlock hread snapshot, fun hother => absurd hisBlock hother⟩
    · next hblock =>
      obtain ⟨form, hform, rfl⟩ := Checked.map_eq_sound hread
      obtain ⟨_, _, _, -, -, -, hparts, -⟩ := ConditionForm.read_cases hform
      have hlisted : Fields.get fields "conditions" = .null ∨
          ∃ vs, Fields.get fields "conditions" = .list vs :=
        (ConditionForm.readParts_cases hparts).imp And.right fun ⟨vs, _, _, hlist, _⟩ => ⟨vs, hlist⟩
      have hother : ¬ IsBlock (.object fields) := by
        rw [← isBlock_eq_true_iff hlisted, hblock]
        nofun
      -- What is kept is read back as the same form, and that form has nulls for lost doubles.
      have hsettled := ConditionForm.settled_of_read hform
      have hsame : Condition.conditionsHold form.toValue snapshot =
          (Condition.ofValue (Value.object fields).finite).holds snapshot := by
        rw [htree.conditionsHold, ConditionForm.ofValue_finite hform,
          ConditionForm.ofValue_of_read (ConditionForm.read_toValue form hsettled)]
      exact ⟨fun hblock => absurd hblock hother,
        fun _ => ⟨hsame, fun hfinite => hsame.trans (by rw [hfinite])⟩⟩
  · cases hread
    exact ⟨fun _ => rfl, fun hother => absurd (.inl rfl) hother⟩
  · cases hread

theorem normalize_means_nested :
    normalize nested = .ok nested ∧ ¬ IsBlock nested ∧ nested.finite = nested ∧
      Condition.conditionsHold nested [("status", .text "open")] =
        (Condition.ofValue nested).holds [("status", .text "open")] ∧
      (Condition.ofValue nested).holds [("status", .text "open")] = .ok true := by
  have hkept : normalize nested = .ok nested := by with_unfolding_all rfl
  have hother : ¬ IsBlock nested := by
    rintro (hnull | ⟨_, ⟨⟩, -, hentries⟩)
    · cases hnull
    · exact absurd (hentries _ (List.mem_cons_self ..)) (by decide)
  have hholds := ((normalize_means hkept [("status", .text "open")]).2 hother).2 rfl
  exact ⟨hkept, hother, rfl, hholds, rfl⟩

/-- A total below infinity. -/
def belowInfinity : Value :=
  .object [("type", .text "less_than"), ("field", .text "total"),
    ("value", .float (Binary.infinity false))]

/-- A tree that names infinity means something else when it is kept. -/
theorem below_infinity_forgotten :
    ∃ kept, normalize belowInfinity = .ok kept ∧ ¬ IsBlock belowInfinity ∧
      (Condition.ofValue belowInfinity).holds [("total", .int 5)] = .ok true ∧
      Condition.conditionsHold kept [("total", .int 5)] = .ok false := by
  refine ⟨.object [("type", .text "less_than"), ("field", .text "total"), ("value", .null)], ?_, ?_, ?_, ?_⟩
  · have hvalue : (Value.float (Binary.infinity false)).finite = .null := by
      rw [Value.finite]
      exact if_neg (by decide +kernel)
    rw [← hvalue]
    with_unfolding_all rfl
  · rintro (hnull | ⟨_, ⟨⟩, htype, -⟩)
    · cases hnull
    · exact absurd htype (by simp [Fields.get, Fields.get?])
  · with_unfolding_all rfl
  · with_unfolding_all rfl

end AutomationConditions
end Signoff
