import Mathlib
import Signoff.Proofs.Automation.Tree
import Signoff.Proofs.Level
import Signoff.Proofs.Workflow.Written

/-! # Workflows that are read again

    A workflow is written in one form, whatever the payload looked like that it
    was read from. Reading this form gives the same workflow:

    * `ConditionForm.NodeOf`: a node of a condition, at any depth.
    * `Schema.required_finite`, `Schema.list_finite`: what is read from a payload without
      doubles that are not finite is read from such values.
    * `Rule.kept_of_finite`: so nothing is lost when a rule is written.
    * `Workflow.ofPayload_toValue`: the round trip, and what every workflow that was
      read keeps to.
-/

namespace Signoff

/-! ## Nodes of a condition -/

namespace ConditionForm

/-- The form is a node of the other one: the whole of it, or a node of one of its parts. -/
inductive NodeOf (form : ConditionForm) : ConditionForm → Prop where
  | whole : NodeOf form form
  | part {type : ConditionType} {field : Option String} {value : Value}
      {parts : List ConditionForm} {part : ConditionForm} (hpart : part ∈ parts)
      (h : NodeOf form part) : NodeOf form (.node type field value (some parts))

variable {form whole : ConditionForm} {forms : List ConditionForm}

theorem AllSettled.of_mem (h : AllSettled forms) (hform : form ∈ forms) : form.Settled := by
  induction forms with
  | nil => cases hform
  | cons first rest ih =>
    rcases List.mem_cons.mp hform with rfl | hrest
    · exact h.1
    · exact ih h.2 hrest

theorem usesExtended_of_mem (h : someUsesExtended forms = false) (hform : form ∈ forms) :
    form.usesExtended = false := by
  induction forms with
  | nil => cases hform
  | cons first rest ih =>
    obtain ⟨hfirst, hothers⟩ := Bool.or_eq_false_iff.mp h
    rcases List.mem_cons.mp hform with rfl | hrest
    · exact hfirst
    · exact ih hothers hrest

/-- What has passed the checks has passed them at every node. -/
theorem NodeOf.settled (h : NodeOf form whole) (hwhole : whole.Settled) : form.Settled := by
  induction h with
  | whole => exact hwhole
  | part hpart _ ih => exact ih (AllSettled.of_mem hwhole.2 hpart)

theorem NodeOf.usesExtended (h : NodeOf form whole) (hwhole : whole.usesExtended = false) :
    form.usesExtended = false := by
  induction h with
  | whole => exact hwhole
  | part hpart _ ih => exact ih (usesExtended_of_mem (Bool.or_eq_false_iff.mp hwhole).2 hpart)

end ConditionForm

/-! ## Payloads with finite doubles -/

namespace Schema

variable {α : Type} {fields : Fields} {key : Key} {check : Value → Checked α} {v : Value} {x : α}

theorem finite_of_get? (hfinite : Value.finiteFields fields = fields) {name : String}
    (h : Fields.get? fields name = some v) : v.finite = v := by
  have hget := ConditionForm.finite_get hfinite name
  rwa [Fields.get, h] at hget

theorem finite_of_find? (hfinite : Value.finiteFields fields = fields) {name : String}
    (h : key.find? fields = some (name, v)) : v.finite = v := by
  unfold Key.find? at h
  split at h
  · next w hw =>
    cases h
    exact finite_of_get? hfinite hw
  · obtain ⟨w, hw, hsame⟩ := Option.map_eq_some_iff.mp h
    cases hsame
    exact finite_of_get? hfinite hw

/-- A field that was read had a value without doubles that are not finite, -/
theorem required_finite (hfinite : Value.finiteFields fields = fields)
    (h : required fields key check = .sound x) : ∃ v : Value, v.finite = v ∧ check v = .sound x := by
  unfold required at h
  split at h
  · next name v hfound => exact ⟨v, finite_of_find? hfinite hfound, Checked.below_eq_sound h⟩
  · cases h

theorem optional_finite {absent : α} (hfinite : Value.finiteFields fields = fields)
    (h : optional fields key absent check = .sound x) :
    x = absent ∨ ∃ v : Value, v.finite = v ∧ check v = .sound x := by
  unfold optional at h
  split at h
  · next name v hfound => exact .inr ⟨v, finite_of_find? hfinite hfound, Checked.below_eq_sound h⟩
  · cases h
    exact .inl rfl

/-- and so had every item of a list. -/
theorem itemsFrom_finite {vs : List Value} {xs : List α} {n : Nat}
    (hfinite : Value.finiteItems vs = vs) (h : itemsFrom check n vs = .sound xs) :
    ∀ x ∈ xs, ∃ v : Value, v.finite = v ∧ check v = .sound x := by
  induction vs generalizing n xs with
  | nil =>
    cases h
    exact List.forall_mem_nil _
  | cons v rest ih =>
    obtain ⟨hfirst, hothers⟩ := List.cons.inj hfinite
    obtain ⟨_, ys, h_first, hrest, rfl⟩ := Checked.seq_eq_sound h
    obtain ⟨y, hy, rfl⟩ := Checked.map_eq_sound h_first
    exact List.forall_mem_cons.mpr ⟨⟨v, hfirst, Checked.below_eq_sound hy⟩, ih hothers hrest⟩

theorem list_finite {xs : List α} (hfinite : v.finite = v) (h : list check v = .sound xs) :
    ∀ x ∈ xs, ∃ v : Value, v.finite = v ∧ check v = .sound x := by
  cases v with
  | list vs => exact itemsFrom_finite (Value.list.inj hfinite) h
  | _ => cases h

theorem object_finite {model : String} {keys : List Key} {read : Fields → Checked α}
    (hfinite : v.finite = v) (h : object model keys read v = .sound x) :
    ∃ fields, Value.finiteFields fields = fields ∧ read fields = .sound x := by
  cases v with
  | object fields => exact ⟨fields, Value.object.inj hfinite, Checked.seqLeft_eq_sound h⟩
  | _ => cases h

end Schema

/-- A rule from such a payload stays what it is when it is written and read back. -/
theorem Rule.kept_of_finite {v : Value} {r : Rule} (h : read v = .sound r) (hfinite : v.finite = v) :
    r.kept = r := by
  obtain ⟨rule, hrule, hsettle⟩ := Checked.andThen_eq_sound h
  obtain ⟨fields, hfields, h_enabled⟩ := Schema.object_finite hfinite hrule
  obtain ⟨_, enabled, h_priority, -, h_eq⟩ := Checked.seq_eq_sound h_enabled
  obtain ⟨_, priority, h_action, -, rfl⟩ := Checked.seq_eq_sound h_priority
  obtain ⟨_, action, h_condition, -, rfl⟩ := Checked.seq_eq_sound h_action
  obtain ⟨_, condition, h_topic, hcondition, rfl⟩ := Checked.seq_eq_sound h_condition
  obtain ⟨_, topic, h_name, -, rfl⟩ := Checked.seq_eq_sound h_topic
  obtain ⟨_, name, h_id, -, rfl⟩ := Checked.seq_eq_sound h_name
  obtain ⟨id, -, rfl⟩ := Checked.map_eq_sound h_id
  subst h_eq
  obtain ⟨w, hw, hread⟩ := Schema.required_finite hfields hcondition
  have hkept := ConditionForm.kept_of_finite hread hw
  unfold settle at hsettle
  split at hsettle
  · cases hsettle
  · cases hsettle
    exact congrArg (Rule.mk _ _ _ · _ _ _) hkept

namespace Workflow

variable {payload : Value} {w : Workflow}

/-- A workflow that has passed the checks is read back, but for values that are lost. -/
theorem ofPayload_of_admitted (h : w.Admitted) :
    ofPayload w.toValue = .ok { w with rules := w.rules.map Rule.kept } := by
  obtain ⟨row, hrow⟩ : ∃ row : StoredWorkflow,
      row = ⟨0, 0, w.name, some w.description, w.levelsValue, w.rulesValue, none, ⟨0⟩⟩ := ⟨_, rfl⟩
  have hlevels : row.levels = .list (w.levels.map LevelConfig.toValue) := by rw [hrow]; rfl
  have hrules : row.rules = .list (w.rules.map Rule.toValue) := by rw [hrow]; rfl
  have hname : row.name = w.name := by rw [hrow]
  -- A row that holds the two lists is read from the same payload.
  have hsame : Site.payloadOf row = w.toValue := by
    rw [Site.payloadOf, hlevels, hrules, hrow]
    cases hlist : w.levels <;> cases hlist' : w.rules <;>
      simp [toValue, fields, levelsValue, rulesValue, hlist, hlist', Value.orElse, Value.truthy]
  rw [← hsame, ofPayload_payloadOf (hname ▸ h.named) h.levels h.rules hlevels hrules, hrow]
  rfl

/-- A payload without doubles that are not finite loses nothing. -/
theorem kept_of_payload (hfinite : payload.finite = payload) (h : ofPayload payload = .ok w) :
    w.rules.map Rule.kept = w.rules := by
  obtain ⟨read, h_object, hsettle⟩ := Checked.andThen_eq_sound (Schema.payload_eq_ok h)
  obtain ⟨fields, hfields, h_rules⟩ := Schema.object_finite hfinite h_object
  obtain ⟨_, rules, h_levels, hrules, h_eq⟩ := Checked.seq_eq_sound h_rules
  obtain ⟨_, levels, h_description, -, rfl⟩ := Checked.seq_eq_sound h_levels
  obtain ⟨_, description, h_name, -, rfl⟩ := Checked.seq_eq_sound h_description
  obtain ⟨name, -, rfl⟩ := Checked.map_eq_sound h_name
  subst h_eq
  have hsame : w.rules = rules := by
    unfold settle at hsettle
    split at hsettle
    · cases hsettle
      rfl
    · cases hsettle
  have hkept : ∀ r ∈ rules, Rule.kept r = id r := by
    intro r hr
    rcases Schema.optional_finite hfields hrules with rfl | ⟨v, hv, hlist⟩
    · cases hr
    · obtain ⟨item, hitem, hread⟩ := Schema.list_finite hv hlist r hr
      exact Rule.kept_of_finite hread hitem
  rw [hsame, List.map_congr_left hkept, List.map_id]

/-- What a workflow that was read keeps to: every level is there once and in order, no condition of a rule
    has a node that only automations use, and every test of one has a field. -/
structure Orderly (w : Workflow) : Prop where
  once : (w.levels.map (·.level)).Nodup
  inOrder : w.levels.Pairwise fun a b => a.level.index < b.level.index
  plain : ∀ r ∈ w.rules, ∀ type field value parts,
    ConditionForm.NodeOf (.node type field value parts) r.condition →
      type ≠ .test .notEquals ∧ type ≠ .test .isEmpty ∧ type ≠ .test .isNotEmpty ∧
        ∀ t, type = .test t → ∃ name, field = some name ∧ name ≠ ""

theorem Admitted.orderly (h : w.Admitted) : w.Orderly where
  once := h.levels.nodup
  inOrder := by
    have hdistinct : w.levels.Pairwise fun a b => a.level ≠ b.level := List.pairwise_map.mp h.levels.nodup
    refine (h.levels.sorted.and hdistinct).imp fun {a b} hab => ?_
    exact Nat.lt_of_le_of_ne hab.1 fun hindex => hab.2 (Level.index_injective hindex)
  plain := by
    intro r hr type field value parts hnode
    have hplain := hnode.usesExtended (h.rules r hr).plain
    obtain ⟨hwhole, -⟩ := hnode.settled (h.rules r hr).condition
    have htype : type.isExtended = false := (Bool.or_eq_false_iff.mp hplain).1
    refine ⟨?_, ?_, ?_, ?_⟩
    · rintro rfl
      cases htype
    · rintro rfl
      cases htype
    · rintro rfl
      cases htype
    · rintro t rfl
      cases field with
      | none => cases hwhole.2
      | some name => exact ⟨name, rfl, by simpa using hwhole.2⟩

/-- A workflow as it is written by hand: the second level in front of the first one, a number as a text, and
    names of fields with underscores. -/
def sketch : Value :=
  .object [("name", .text "Purchases"),
    ("levels", .list [
      .object [("level", .text "LEVEL_2"), ("is_parallel", .text "yes"), ("required_approvals", .text "2")],
      .object [("level", .text "LEVEL_1"), ("approvers", .list [.text "A"])]]),
    ("rules", .list [.object [("id", .text "petty"), ("name", .text "Petty purchases"),
      ("condition", .object [("type", .text "and"), ("conditions", .list [
        .object [("type", .text "or"), ("value", .null)],
        .object [("type", .text "in"), ("field", .text "status"),
          ("value", .list [.text "Petty", .null])]])]),
      ("action", .object [("type", .text "auto_approve"), ("level", .null)])]])]

/-- The workflow that it is. -/
def sketched : Workflow where
  name := "Purchases"
  levels := [{ level := .first, approvers := ["A"] },
    { level := .second, isParallel := true, requiredApprovals := some 2 }]
  rules := [
    { id := "petty"
      name := "Petty purchases"
      condition := .node .all none .null (some [.node .any none .null (some []),
        .node (.test .oneOf) (some "status") (.list [.text "Petty", .null]) none])
      action := { routing := .autoApprove } }]

end Workflow
end Signoff
