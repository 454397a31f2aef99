import Signoff.Site.Basic

/-! # Sound workflows

    A parallel level asks for one approval at least. Payloads that ask for fewer
    are refused, so every workflow that counts for a board is sound:

    * `Checked.*_eq_sound`: a check that gathers parts is sound when its parts are.
    * `Workflow.sound_of_payload`: what is read from a payload is sound.
-/

namespace Signoff

/-- The level asks for one approval at least, if it says how many. -/
def LevelConfig.Sound (c : LevelConfig) : Prop := ∀ n, c.requiredApprovals = some n → 1 ≤ n

/-- Every level of the workflow is sound. -/
def Workflow.Sound (w : Workflow) : Prop := ∀ c ∈ w.levels, c.Sound

namespace Checked

variable {α β : Type}

theorem seq_eq_sound {f : Checked (α → β)} {x : Checked α} {y : β} (h : f <*> x = .sound y) :
    ∃ g v, f = .sound g ∧ x = .sound v ∧ g v = y := by
  cases f <;> cases x <;> cases h
  exact ⟨_, _, rfl, rfl, rfl⟩

theorem map_eq_sound {f : α → β} {x : Checked α} {y : β} (h : f <$> x = .sound y) :
    ∃ v, x = .sound v ∧ f v = y := by
  cases x <;> cases h
  exact ⟨_, rfl, rfl⟩

theorem seqLeft_eq_sound {x : Checked α} {u : Checked β} {y : α} (h : x <* u = .sound y) :
    x = .sound y := by
  cases x <;> cases u <;> cases h
  rfl

theorem andThen_eq_sound {x : Checked α} {f : α → Checked β} {y : β}
    (h : x.andThen f = .sound y) : ∃ v, x = .sound v ∧ f v = .sound y := by
  cases x with
  | sound v => exact ⟨v, rfl, h⟩
  | unsound problems => cases h
  | stuck fault => cases h

theorem below_eq_sound {name : String} {x : Checked α} {y : α} (h : x.below name = .sound y) :
    x = .sound y := by
  cases x <;> cases h
  rfl

theorem ensure_eq_sound {v y : α} {holds : Bool} {message : String}
    (h : Checked.ensure v holds message = .sound y) : v = y ∧ holds = true := by
  unfold ensure at h
  split at h
  · next hholds => cases h; exact ⟨rfl, hholds⟩
  · cases h

theorem toResult_eq_ok {message : String} {x : Checked α} {y : α}
    (h : x.toResult message = .ok y) : x = .sound y := by
  cases x <;> cases h
  rfl

end Checked

namespace Schema

variable {α : Type}

theorem optional_eq_sound {fields : Fields} {key : Key} {absent y : α}
    {check : Value → Checked α} (h : optional fields key absent check = .sound y) :
    y = absent ∨ ∃ v, check v = .sound y := by
  unfold optional at h
  split at h
  · exact .inr ⟨_, Checked.below_eq_sound h⟩
  · cases h
    exact .inl rfl

theorem nullable_eq_sound {check : Value → Checked α} {v : Value} {y : Option α}
    (h : nullable check v = .sound y) : y = none ∨ ∃ x, y = some x ∧ check v = .sound x := by
  unfold nullable at h
  split at h
  · cases h
    exact .inl rfl
  · obtain ⟨x, hx, rfl⟩ := Checked.map_eq_sound h
    exact .inr ⟨x, rfl, hx⟩

theorem intFrom_eq_sound {least n : Int} {v : Value} (h : intFrom least v = .sound n) :
    least ≤ n := by
  obtain ⟨m, -, hm⟩ := Checked.andThen_eq_sound h
  obtain ⟨rfl, hle⟩ := Checked.ensure_eq_sound hm
  exact of_decide_eq_true hle

/-- Every item of a list that was read has passed the check. -/
theorem itemsFrom_eq_sound {check : Value → Checked α} {n : Nat} {vs : List Value} {xs : List α}
    (h : itemsFrom check n vs = .sound xs) : ∀ x ∈ xs, ∃ v, check v = .sound x := by
  induction vs generalizing n xs with
  | nil =>
    cases h
    simp
  | cons v rest ih =>
    obtain ⟨f, ys, hf, hys, rfl⟩ := Checked.seq_eq_sound h
    obtain ⟨y, hy, rfl⟩ := Checked.map_eq_sound hf
    intro x hx
    rcases List.mem_cons.mp hx with rfl | hx
    · exact ⟨v, Checked.below_eq_sound hy⟩
    · exact ih hys x hx

theorem list_eq_sound {check : Value → Checked α} {v : Value} {xs : List α}
    (h : list check v = .sound xs) : ∀ x ∈ xs, ∃ v, check v = .sound x := by
  unfold list at h
  split at h
  · exact itemsFrom_eq_sound h
  · cases h

theorem filledList_eq_sound {check : Value → Checked α} {v : Value} {xs : List α}
    (h : filledList check v = .sound xs) : ∀ x ∈ xs, ∃ v, check v = .sound x := by
  obtain ⟨ys, hys, hxs⟩ := Checked.andThen_eq_sound h
  obtain ⟨rfl, -⟩ := Checked.ensure_eq_sound hxs
  exact list_eq_sound hys

theorem ne_nil_of_filledList {check : Value → Checked α} {v : Value} {xs : List α}
    (h : filledList check v = .sound xs) : xs ≠ [] := by
  obtain ⟨ys, -, hxs⟩ := Checked.andThen_eq_sound h
  obtain ⟨rfl, hfilled⟩ := Checked.ensure_eq_sound hxs
  intro hnil
  rw [hnil] at hfilled
  cases hfilled

theorem required_eq_sound {fields : Fields} {key : Key} {y : α} {check : Value → Checked α}
    (h : required fields key check = .sound y) : ∃ v, check v = .sound y := by
  unfold required at h
  split at h
  · exact ⟨_, Checked.below_eq_sound h⟩
  · cases h

theorem object_eq_sound {model : String} {keys : List Key} {read : Fields → Checked α}
    {v : Value} {y : α} (h : object model keys read v = .sound y) :
    ∃ fields, read fields = .sound y := by
  unfold object at h
  split at h
  · exact ⟨_, Checked.seqLeft_eq_sound h⟩
  · cases h

theorem payload_eq_ok {message : String} {read : Value → Checked α} {v : Value} {y : α}
    (h : payload message read v = .ok y) : read v = .sound y := by
  unfold payload at h
  split at h
  · exact Checked.toResult_eq_ok h
  · cases h

end Schema

/-- The number of approvals and the hours of a level that was read come from fields of their own. -/
theorem LevelConfig.fields_of_read {v : Value} {c : LevelConfig} (h : LevelConfig.read v = .sound c) :
    ∃ fields,
      Schema.optional fields ⟨"requiredApprovals", "required_approvals"⟩ none
        (Schema.nullable (Schema.intFrom 1)) = .sound c.requiredApprovals ∧
      Schema.optional fields ⟨"timeoutHours", "timeout_hours"⟩ none
        (Schema.nullable Schema.positiveFloat) = .sound c.timeoutHours := by
  obtain ⟨fields, h_user⟩ := Schema.object_eq_sound h
  -- The fields are read from the first to the last, so the last one is peeled off first.
  obtain ⟨_, user, h_timeout, -, h_eq⟩ := Checked.seq_eq_sound h_user
  obtain ⟨_, timeout, h_needed, htimeout, rfl⟩ := Checked.seq_eq_sound h_timeout
  obtain ⟨_, needed, h_parallel, hneeded, rfl⟩ := Checked.seq_eq_sound h_needed
  obtain ⟨_, isParallel, h_optional, -, rfl⟩ := Checked.seq_eq_sound h_parallel
  obtain ⟨_, isOptional, h_approvers, -, rfl⟩ := Checked.seq_eq_sound h_optional
  obtain ⟨_, approvers, h_name, -, rfl⟩ := Checked.seq_eq_sound h_approvers
  obtain ⟨_, name, h_level, -, rfl⟩ := Checked.seq_eq_sound h_name
  obtain ⟨level, -, rfl⟩ := Checked.map_eq_sound h_level
  subst h_eq
  exact ⟨fields, hneeded, htimeout⟩

/-- A level that was read is sound. -/
theorem LevelConfig.sound_of_read {v : Value} {c : LevelConfig} (h : LevelConfig.read v = .sound c) :
    c.Sound := by
  obtain ⟨fields, hneeded, -⟩ := LevelConfig.fields_of_read h
  intro n hn
  -- Only a number that is given has to be checked.
  rcases Schema.optional_eq_sound hneeded with hnone | ⟨v, hv⟩
  · rw [hnone] at hn
    cases hn
  · rcases Schema.nullable_eq_sound hv with hnone | ⟨m, hsome, hm⟩
    · rw [hnone] at hn
      cases hn
    · rw [hsome] at hn
      cases hn
      exact Schema.intFrom_eq_sound hm

namespace Workflow

/-- A workflow that was read has the name, the levels and the rules of its fields. Each level is there
    once, and they are in their order. -/
theorem fields_of_read {v : Value} {w : Workflow} (h : Workflow.read v = .sound w) :
    ∃ fields levels,
      Schema.required fields (.word "name") (Schema.boundedText 200) = .sound w.name ∧
      Schema.required fields (.word "levels") (Schema.filledList LevelConfig.read) = .sound levels ∧
      Schema.optional fields (.word "rules") [] (Schema.list Rule.read) = .sound w.rules ∧
      (levels.map (·.level)).Nodup ∧
      w.levels = levels.mergeSort fun a b => a.level.index ≤ b.level.index := by
  obtain ⟨read, h_object, hsettle⟩ := Checked.andThen_eq_sound h
  obtain ⟨fields, h_rules⟩ := Schema.object_eq_sound h_object
  obtain ⟨_, rules, h_levels, hrules, h_eq⟩ := Checked.seq_eq_sound h_rules
  obtain ⟨_, levels, h_description, hlevels, rfl⟩ := Checked.seq_eq_sound h_levels
  obtain ⟨_, description, h_name, -, rfl⟩ := Checked.seq_eq_sound h_description
  obtain ⟨name, hname, rfl⟩ := Checked.map_eq_sound h_name
  subst h_eq
  unfold settle at hsettle
  split at hsettle
  · next hnodup =>
    cases hsettle
    exact ⟨fields, levels, hname, hlevels, hrules, hnodup, rfl⟩
  · cases hsettle

/-- A workflow that was read is sound. -/
theorem sound_of_read {v : Value} {w : Workflow} (h : Workflow.read v = .sound w) : w.Sound := by
  obtain ⟨fields, levels, -, hlevels, -, -, hsorted⟩ := fields_of_read h
  intro c hc
  -- The levels of the workflow are those that were read, in another order.
  rw [hsorted] at hc
  obtain ⟨v, hv⟩ := Schema.required_eq_sound hlevels
  obtain ⟨v', hv'⟩ := Schema.filledList_eq_sound hv c (List.mem_mergeSort.mp hc)
  exact LevelConfig.sound_of_read hv'

/-- The workflow of a payload is sound. -/
theorem sound_of_payload {payload : Value} {w : Workflow} (h : ofPayload payload = .ok w) :
    w.Sound :=
  sound_of_read (Schema.payload_eq_ok h)

theorem standard_sound : standard.Sound := by
  intro c hc n hn
  simp only [standard, List.mem_cons, List.not_mem_nil, or_false] at hc
  rcases hc with rfl | rfl | rfl <;> simp at hn
  omega

end Workflow

/-- The workflow that is stored for a board is sound. -/
theorem Site.sound_of_storedWorkflow {o : Office} {boardId : Int} {w : Workflow}
    (h : Site.storedWorkflow o boardId = .ok w) : w.Sound := by
  unfold Site.storedWorkflow at h
  split at h
  · exact Workflow.sound_of_payload h
  · cases h
    exact Workflow.standard_sound

end Signoff
