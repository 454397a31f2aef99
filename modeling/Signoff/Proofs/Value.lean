import Signoff.Office.Basic
import Signoff.Store.Json
import Mathlib.Data.List.Nodup

/-! # Values that were written

    A value that equals the stored one is not written over it. And the fields of
    an object are written one after another, the last one of a name counts:

    * `Value.number?_eq_error_iff`: every value is a number or none, unless it is an
      integer that is too large for a double.
    * `eq_of_looseEq_text`, `eq_of_looseEq_null`: a text and null equal nothing but
      themselves.
    * `Value.LostOver`: the value equals the stored one, and is another one.
    * `Value.keptOver_eq_iff`: every other value is there once it was written.
    * `JsonColumn.keptOver_eq_iff`: in a column of JSON it is there as the column keeps it.
    * `Fields.get?_setAll`: fields of other names do not hide a field.
      `Fields.get?_setAll_of_mem`: nor do those that say the same.
-/

namespace Signoff

namespace Value

/-! ## Numbers -/

/-- An integer that is too large for a double. -/
def IsTooLarge (v : Value) : Prop := ∃ n, v = .int n ∧ Binary.ofInt? n = none

/-- Only an integer that is too large for a double cannot be asked for its number. -/
theorem number?_eq_error_iff {v : Value} {fault : Fault} :
    v.number? = .error fault ↔ v.IsTooLarge ∧ fault = .intTooLarge := by
  cases v with
  | int n =>
    cases hn : Binary.ofInt? n with
    | none =>
      have herror : number? (.int n) = .error .intTooLarge := by
        simp only [number?, intAsFloat, hn]
        rfl
      rw [herror, Except.error.injEq]
      exact ⟨fun h => ⟨⟨n, rfl, hn⟩, h.symm⟩, fun h => h.2.symm⟩
    | some x =>
      have hok : number? (.int n) = .ok (some x) := by
        simp only [number?, intAsFloat, hn]
        rfl
      rw [hok]
      refine iff_of_false nofun ?_
      rintro ⟨⟨m, hm, hnone⟩, -⟩
      cases hm
      rw [hn] at hnone
      cases hnone
  | _ => exact iff_of_false nofun fun ⟨⟨_, hint, _⟩, _⟩ => nomatch hint

/-! ## Equality -/

/-- A text equals nothing but itself. -/
theorem eq_of_looseEq_text {s : String} {v : Value} (h : (Value.text s).looseEq v = true) :
    v = .text s := by
  cases v with
  | text t =>
    have hsame : s = t := by simpa [looseEq] using h
    rw [hsame]
  | _ => simp [looseEq, asInt?] at h

theorem eq_text_of_looseEq {s : String} {v : Value} (h : v.looseEq (.text s) = true) :
    v = .text s := by
  cases v with
  | text t =>
    have hsame : t = s := by simpa [looseEq] using h
    rw [hsame]
  | _ => simp [looseEq, asInt?] at h

theorem eq_of_looseEq_null {v : Value} (h : Value.null.looseEq v = true) : v = .null := by
  cases v with
  | null => rfl
  | _ => simp [looseEq, asInt?] at h

/-- So does what a text column holds. -/
theorem eq_of_looseEq_ofText? {text? : Option String} {v : Value}
    (h : (Value.ofText? text?).looseEq v = true) : v = .ofText? text? := by
  cases text? with
  | some s => exact eq_of_looseEq_text h
  | none => exact eq_of_looseEq_null h

theorem looseEq_ofText?_self (text? : Option String) :
    (Value.ofText? text?).looseEq (.ofText? text?) = true := by
  cases text? with
  | some s => simp [ofText?, looseEq]
  | none => rfl

end Value

/-! ## Writing over a value -/

/-- What is stored is the old value or the new one. -/
theorem keepEqual_cases (old new : Value) : keepEqual old new = old ∨ keepEqual old new = new := by
  unfold keepEqual
  split
  · exact .inl rfl
  · exact .inr rfl

namespace Value

variable {old : Option Value} {new kept : Value}

/-- An old value gives way to what is kept of a new one, unless it equals the new one and is not what is
    kept of it. -/
theorem overwritten_iff {v : Value} : (if new.looseEq v then v else kept) = kept ↔
    ¬ ∃ w, some v = some w ∧ new.looseEq w = true ∧ kept ≠ w := by
  rw [ite_eq_right_iff]
  constructor
  · rintro hsame ⟨_, ⟨⟩, hequal, hother⟩
    exact hother (hsame hequal).symm
  · intro hkept hequal
    exact Classical.byContradiction fun hother => hkept ⟨v, rfl, hequal, Ne.symm hother⟩

/-- What is stored after a value was written where an old one may have been. -/
def keptOver (new : Value) : Option Value → Value
  | some old => keepEqual old new
  | none => new

/-- The old value equals the new one, and is another one. It stays. -/
def LostOver (new : Value) (old : Option Value) : Prop :=
  ∃ v, old = some v ∧ new.looseEq v = true ∧ new ≠ v

/-- A value is there after it was written, unless it is lost. -/
theorem keptOver_eq_iff : new.keptOver old = new ↔ ¬ new.LostOver old := by
  cases old with
  | none => exact iff_of_true rfl fun ⟨_, hnone, _⟩ => nomatch hnone
  | some v => exact overwritten_iff

end Value

namespace JsonColumn

variable {old : Option Value} {new : Value}

/-- Only doubles and integers of more than 64 bits are kept as other values. -/
theorem keep_eq_self (hfloat : ∀ x, new ≠ .float x)
    (hint : ∀ n, new = .int n → TextColumn.fits n = true) : keep new = new := by
  cases new with
  | int n => exact if_pos (hint n rfl)
  | float x => exact absurd rfl (hfloat x)
  | _ => rfl

/-- What a column holds after a value was written where an old one may have been. -/
def keptOver (new : Value) : Option Value → Value
  | some old => write old new
  | none => keep new

/-- The old value equals the new one, and is not what is kept of it. It stays. -/
def LostOver (new : Value) (old : Option Value) : Prop :=
  ∃ v, old = some v ∧ new.looseEq v = true ∧ keep new ≠ v

/-- What is kept of a value is there after it was written, unless the value is lost, -/
theorem keptOver_eq_iff : keptOver new old = keep new ↔ ¬ LostOver new old := by
  cases old with
  | none => exact iff_of_true rfl fun ⟨_, hnone, _⟩ => nomatch hnone
  | some v => exact Value.overwritten_iff

/-- and it is lost to an equal one that stays. -/
theorem keptOver_eq_or (new : Value) (old : Option Value) :
    keptOver new old = keep new ∨ old = some (keptOver new old) ∧ new.looseEq (keptOver new old) = true := by
  cases old with
  | none => exact .inl rfl
  | some v =>
    by_cases hequal : new.looseEq v = true
    · have hstays : keptOver new (some v) = v := if_pos hequal
      rw [hstays]
      exact .inr ⟨rfl, hequal⟩
    · exact .inl (if_neg hequal)

end JsonColumn

/-! ## Fields -/

namespace Fields

/-- The field that was written is found, and the others are found as before. -/
theorem get?_set (name other : String) (v : Value) (fields : Fields) :
    Fields.get? (fields.set name v) other =
      if other = name then some v else Fields.get? fields other := by
  unfold Fields.get?
  induction fields with
  | nil =>
    by_cases hsame : other = name
    · simp [Fields.set, hsame]
    · simp [Fields.set, List.lookup_cons, hsame, beq_false_of_ne hsame]
  | cons field rest ih =>
    obtain ⟨n, w⟩ := field
    unfold Fields.set
    split
    · next hsame =>
      subst hsame
      rw [List.lookup_cons, List.lookup_cons]
      by_cases hother : other = n
      · simp [hother]
      · simp [hother, beq_false_of_ne hother]
    · next hother =>
      rw [List.lookup_cons, List.lookup_cons, ih]
      by_cases hsame : other = n
      · simp [hsame, hother]
      · simp [beq_false_of_ne hsame]

/-- Writing fields of other names does not hide a field, -/
theorem get?_setAll {name : String} {more : Fields} (h : ∀ field ∈ more, field.1 ≠ name)
    (fields : Fields) : Fields.get? (fields.setAll more) name = Fields.get? fields name := by
  unfold Fields.setAll
  induction more generalizing fields with
  | nil => rfl
  | cons field rest ih =>
    rw [List.foldl_cons, ih fun f hf => h f (List.mem_cons_of_mem _ hf), get?_set,
      if_neg (h field (List.mem_cons_self ..)).symm]

/-- and a field that is written has the value that all fields of its name have. -/
theorem get?_setAll_of_mem {name : String} {v : Value} {more : Fields} (hmem : (name, v) ∈ more)
    (h : ∀ field ∈ more, field.1 = name → field.2 = v) (fields : Fields) :
    Fields.get? (fields.setAll more) name = some v := by
  unfold Fields.setAll
  induction more generalizing fields with
  | nil => cases hmem
  | cons field rest ih =>
    by_cases hlater : ∃ later ∈ rest, later.1 = name
    · -- The field is written again.
      obtain ⟨later, hlater, hname⟩ := hlater
      have hvalue := h later (List.mem_cons_of_mem _ hlater) hname
      rw [List.foldl_cons]
      exact ih (by rwa [← hname, ← hvalue]) (fun f hf => h f (List.mem_cons_of_mem _ hf)) _
    · have hothers : ∀ f ∈ rest, f.1 ≠ name := fun f hf hname => hlater ⟨f, hf, hname⟩
      have hfirst : field = (name, v) := by
        rcases List.mem_cons.mp hmem with hfirst | hrest
        · exact hfirst.symm
        · exact absurd rfl (hothers _ hrest)
      have hwritten := get?_setAll hothers (fields.set field.1 field.2)
      rw [hfirst, get?_set, if_pos rfl] at hwritten
      rw [List.foldl_cons, hfirst]
      exact hwritten

/-- Every name is written once. -/
theorem mem_names_set {name other : String} {v : Value} {fields : Fields} :
    other ∈ (fields.set name v).map (·.1) ↔ other = name ∨ other ∈ fields.map (·.1) := by
  induction fields with
  | nil => simp [Fields.set]
  | cons field rest ih =>
    obtain ⟨n, w⟩ := field
    unfold Fields.set
    split
    · next hsame => simp [hsame]
    · rw [List.map_cons, List.mem_cons, ih, List.map_cons, List.mem_cons]
      exact or_left_comm

theorem nodup_set {fields : Fields} (h : (fields.map (·.1)).Nodup) (name : String) (v : Value) :
    ((fields.set name v).map (·.1)).Nodup := by
  induction fields with
  | nil => exact List.nodup_singleton _
  | cons field rest ih =>
    obtain ⟨n, w⟩ := field
    obtain ⟨hnew, hrest⟩ := List.nodup_cons.mp h
    unfold Fields.set
    split
    · next hsame => exact List.nodup_cons.mpr ⟨hsame ▸ hnew, hrest⟩
    · next hother =>
      refine List.nodup_cons.mpr ⟨fun hmem => ?_, ih hrest⟩
      rcases mem_names_set.mp hmem with hsame | hmem
      · exact hother hsame
      · exact hnew hmem

theorem nodup_setAll {fields : Fields} (h : (fields.map (·.1)).Nodup) (more : Fields) :
    ((fields.setAll more).map (·.1)).Nodup := by
  unfold Fields.setAll
  induction more generalizing fields with
  | nil => exact h
  | cons field rest ih => exact ih (nodup_set h field.1 field.2)

/-- So what a name has is found under it. -/
theorem mem_iff_get? {fields : Fields} (h : (fields.map (·.1)).Nodup) {name : String} {v : Value} :
    (name, v) ∈ fields ↔ Fields.get? fields name = some v := by
  induction fields with
  | nil => simp [Fields.get?]
  | cons field rest ih =>
    obtain ⟨n, w⟩ := field
    obtain ⟨hnew, hrest⟩ := List.nodup_cons.mp h
    unfold Fields.get? at ih ⊢
    rw [List.mem_cons, List.lookup_cons]
    by_cases hsame : name = n
    · subst hsame
      rw [beq_self_eq_true]
      constructor
      · rintro (hfirst | hmem)
        · exact congrArg some (Prod.mk.inj hfirst).2.symm
        · exact absurd (List.mem_map_of_mem (f := fun field : String × Value => field.1) hmem) hnew
      · rintro ⟨⟩
        exact .inl rfl
    · rw [beq_false_of_ne hsame, ih hrest]
      simp [hsame]

end Fields
end Signoff
