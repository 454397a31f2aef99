import Signoff.Proofs.Workflow.Written

/-! # Objects that are written and read back

    An object is written field by field, each under the first spelling of its key,
    and what is missing is left out. A key is found again if no other one is
    spelled like it:

    * `Schema.*_eq_sound`: what was read, for fields of one word.
    * `Schema.Apart`: the keys differ in their spellings.
    * `Schema.find?_written`: under a key stands what was written under it.
    * `Schema.optional_written`: so it is checked again.
    * `Schema.noOthers_written`: and nothing else is there.
-/

namespace Signoff

/-- A check that is only passed has been passed, too. -/
theorem Checked.passed_of_seqLeft {α : Type} {x : Checked α} {u : Checked Unit} {y : α}
    (h : x <* u = .sound y) : u = .sound () := by
  cases x <;> cases u <;> cases h
  rfl

/-- A field of another name does not matter. -/
theorem Key.find?_cons_of_ne {key : Key} {name : String} (hwire : name ≠ key.wire)
    (hplain : name ≠ key.plain) (v : Value) (fields : Fields) :
    key.find? ((name, v) :: fields) = key.find? fields := by
  unfold Key.find? Fields.get?
  rw [List.lookup_cons, List.lookup_cons, beq_false_of_ne hwire.symm, beq_false_of_ne hplain.symm]

/-- A field of one word is looked for once. -/
theorem Key.find?_word (name : String) (fields : Fields) :
    (Key.word name).find? fields = (Fields.get? fields name).map fun v => (name, v) := by
  have hwire : (Key.word name).wire = name := rfl
  have hplain : (Key.word name).plain = name := rfl
  unfold Key.find?
  rw [hwire, hplain]
  cases Fields.get? fields name <;> rfl

/-- The first spelling counts. -/
theorem Key.find?_cons_wire (key : Key) (v : Value) (fields : Fields) :
    key.find? ((key.wire, v) :: fields) = some (key.wire, v) := by
  unfold Key.find? Fields.get?
  rw [List.lookup_cons, beq_self_eq_true]

namespace Schema

variable {α : Type} {key : Key} {v? : Option Value} {entries : List (Key × Option Value)}

/-! ## What was read -/

section Read

variable {fields : Fields} {name : String} {check : Value → Checked α} {x : α}

theorem required_word_eq_sound (h : required fields (.word name) check = .sound x) :
    ∃ v, Fields.get? fields name = some v ∧ check v = .sound x := by
  rw [required, Key.find?_word] at h
  cases hfound : Fields.get? fields name with
  | none =>
    rw [hfound] at h
    cases h
  | some v =>
    rw [hfound] at h
    exact ⟨v, rfl, Checked.below_eq_sound h⟩

theorem optional_word_eq_sound {absent : α}
    (h : optional fields (.word name) absent check = .sound x) :
    (Fields.get? fields name = none ∧ x = absent) ∨
      ∃ v, Fields.get? fields name = some v ∧ check v = .sound x := by
  rw [optional, Key.find?_word] at h
  cases hfound : Fields.get? fields name with
  | none =>
    rw [hfound] at h
    cases h
    exact .inl ⟨rfl, rfl⟩
  | some v =>
    rw [hfound] at h
    exact .inr ⟨v, rfl, Checked.below_eq_sound h⟩

/-- What a table of words gives stands under its word. -/
theorem lookup_of_oneOf {table : List (String × α)} {v : Value} (h : oneOf table v = .sound x) :
    ∃ word, v = .text word ∧ table.lookup word = some x := by
  unfold oneOf at h
  simp only at h
  split at h
  · split at h
    · next word _ y hy =>
      cases h
      exact ⟨word, rfl, hy⟩
    · cases h
  · cases h

theorem text_eq_sound {v : Value} {s : String} (h : text v = .sound s) : v = .text s := by
  unfold text at h
  split at h
  · cases h
    rfl
  · cases h

theorem nullable_text_eq_sound {v : Value} {s? : Option String}
    (h : nullable text v = .sound s?) : v = .ofText? s? := by
  unfold nullable at h
  split at h
  · cases h
    rfl
  · obtain ⟨s, hs, rfl⟩ := Checked.map_eq_sound h
    exact text_eq_sound hs

/-- Every item of a list that was read passes the check. -/
theorem itemsFrom_passed {n : Nat} {vs : List Value} {xs : List α}
    (h : itemsFrom check n vs = .sound xs) : ∀ v ∈ vs, ∃ x, check v = .sound x := by
  induction vs generalizing n xs with
  | nil => simp
  | cons v rest ih =>
    obtain ⟨_, ys, hcons, hrest, -⟩ := Checked.seq_eq_sound h
    obtain ⟨y, hy, -⟩ := Checked.map_eq_sound hcons
    intro w hw
    rcases List.mem_cons.mp hw with rfl | hw
    · exact ⟨y, Checked.below_eq_sound hy⟩
    · exact ih hrest w hw

theorem filledList_passed {vs : List Value} {xs : List α}
    (h : filledList check (.list vs) = .sound xs) : ∀ v ∈ vs, ∃ x, check v = .sound x := by
  obtain ⟨ys, hys, -⟩ := Checked.andThen_eq_sound h
  exact itemsFrom_passed hys

/-- Every field is one of the keys. -/
theorem noOthers_eq_sound {keys : List Key} (h : noOthers fields keys = .sound ())
    {field : String × Value} (hfield : field ∈ fields) :
    ∃ key ∈ keys, field.1 = key.wire ∨ field.1 = key.plain := by
  unfold noOthers at h
  simp only at h
  split at h
  · next hnone =>
    have hused := List.filter_eq_nil_iff.mp (List.isEmpty_iff.mp hnone) field hfield
    rw [Bool.not_eq_true', Bool.not_eq_false, List.contains_iff_mem] at hused
    obtain ⟨key, hkey, hname⟩ := List.mem_filterMap.mp hused
    refine ⟨key, hkey, ?_⟩
    unfold Key.find? at hname
    split at hname
    · exact .inl (Option.some.inj hname).symm
    · obtain ⟨_, hfound, hsame⟩ := Option.map_eq_some_iff.mp hname
      obtain ⟨_, -, rfl⟩ := Option.map_eq_some_iff.mp hfound
      exact .inr hsame.symm
  · cases h

end Read

/-! ## What was written -/

/-- No key has a spelling that another one is written under. -/
def Apart (keys : List Key) : Prop :=
  keys.Pairwise fun k l => k.wire ≠ l.wire ∧ k.plain ≠ l.wire ∧ l.plain ≠ k.wire

instance (keys : List Key) : Decidable (Apart keys) :=
  inferInstanceAs (Decidable (List.Pairwise _ keys))

/-- The object that has the given values under the given keys. -/
def written : List (Key × Option Value) → Fields
  | [] => []
  | (key, v?) :: rest => optionalField key.wire id v? ++ written rest

/-- A key that is spelled like none of those that are written is not there. -/
theorem find?_written_of_ne
    (h : ∀ entry ∈ entries, entry.1.wire ≠ key.wire ∧ entry.1.wire ≠ key.plain) :
    key.find? (written entries) = none := by
  induction entries with
  | nil => rfl
  | cons entry rest ih =>
    obtain ⟨k, w?⟩ := entry
    obtain ⟨hwire, hplain⟩ := h _ (List.mem_cons_self ..)
    have hrest := ih fun e he => h e (List.mem_cons_of_mem _ he)
    cases w? with
    | none => exact hrest
    | some w => exact (Key.find?_cons_of_ne hwire hplain w _).trans hrest

/-- What is found under a key is what was written under it. -/
theorem find?_written (hapart : Apart (entries.map Prod.fst)) (h : (key, v?) ∈ entries) :
    key.find? (written entries) = v?.map fun v => (key.wire, v) := by
  induction entries with
  | nil => cases h
  | cons entry rest ih =>
    obtain ⟨k, w?⟩ := entry
    obtain ⟨hfirst, hrest⟩ := List.pairwise_cons.mp hapart
    rcases List.mem_cons.mp h with hsame | hmem
    · obtain ⟨rfl, rfl⟩ := Prod.mk.inj hsame
      cases v? with
      | some v => exact key.find?_cons_wire v _
      | none =>
        show key.find? (written rest) = none
        refine find?_written_of_ne fun e he => ?_
        obtain ⟨hwire, hplain, -⟩ := hfirst _ (List.mem_map_of_mem he)
        exact ⟨hwire.symm, hplain.symm⟩
    · obtain ⟨hwire, -, hplain⟩ := hfirst _ (List.mem_map_of_mem hmem)
      have hfound := ih hrest hmem
      cases w? with
      | none => exact hfound
      | some w => exact (Key.find?_cons_of_ne hwire hplain.symm w _).trans hfound

/-- A field that was written is there, and one that was left out is missing. -/
theorem optional_written (hapart : Apart (entries.map Prod.fst)) (h : (key, v?) ∈ entries)
    (absent : α) (check : Value → Checked α) :
    optional (written entries) key absent check =
      v?.elim (.sound absent) fun v => (check v).below key.wire := by
  rw [optional, find?_written hapart h]
  cases v? <;> rfl

/-- What may be null is read back, too. -/
theorem optional_nullable_written {x? : Option α} {write : α → Value} {check : Value → Checked α}
    (hapart : Apart (entries.map Prod.fst)) (h : (key, x?.map write) ∈ entries)
    (hread : ∀ x, x? = some x → nullable check (write x) = .sound (some x)) :
    optional (written entries) key none (nullable check) = .sound x? := by
  rw [optional_written hapart h]
  cases x? with
  | none => rfl
  | some x =>
    show (nullable check (write x)).below key.wire = _
    rw [hread x rfl]
    rfl

theorem mem_written {field : String × Value} (h : field ∈ written entries) :
    ∃ key, (key, some field.2) ∈ entries ∧ field.1 = key.wire := by
  induction entries with
  | nil => cases h
  | cons entry rest ih =>
    obtain ⟨k, w?⟩ := entry
    rcases List.mem_append.mp h with hfirst | hrest
    · cases w? with
      | none => cases hfirst
      | some w =>
        obtain rfl := List.mem_singleton.mp hfirst
        exact ⟨k, List.mem_cons_self .., rfl⟩
    · obtain ⟨key, hmem, hname⟩ := ih hrest
      exact ⟨key, List.mem_cons_of_mem _ hmem, hname⟩

/-- Nothing was written but the fields of the keys. -/
theorem noOthers_written (hapart : Apart (entries.map Prod.fst)) :
    noOthers (written entries) (entries.map Prod.fst) = .sound () := by
  have hothers : ((written entries).filter fun field =>
      !((entries.map Prod.fst).filterMap fun key =>
        (key.find? (written entries)).map (·.1)).contains field.1) = [] := by
    refine List.filter_eq_nil_iff.mpr fun field hfield => ?_
    obtain ⟨key, hmem, hname⟩ := mem_written hfield
    have hused : field.1 ∈ (entries.map Prod.fst).filterMap fun key =>
        (key.find? (written entries)).map (·.1) := by
      refine List.mem_filterMap.mpr ⟨key, List.mem_map_of_mem hmem, ?_⟩
      rw [find?_written hapart hmem, hname]
      rfl
    rw [List.contains_eq_mem, decide_eq_true hused]
    exact Bool.false_ne_true
  unfold noOthers
  simp only [hothers]
  rfl

/-! ## Checks that are passed again -/

/-- What has passed the check passes it again as it is written, and is written as before. -/
def Stable (check : Value → Checked α) (write : α → Value) : Prop :=
  ∀ v x, check v = .sound x → ∃ y, check (write x) = .sound y ∧ write y = write x

theorem Stable.of_read {check : Value → Checked α} {write : α → Value}
    (h : ∀ v x, check v = .sound x → check (write x) = .sound x) : Stable check write :=
  fun v x hx => ⟨x, h v x hx, rfl⟩

theorem filledText_text {s : String} (h : 0 < s.length) : filledText (.text s) = .sound s := by
  show Checked.ensure s (0 < s.length) _ = _
  rw [Checked.ensure, if_pos (decide_eq_true h)]

theorem stable_text : Stable text .text := .of_read fun _ _ _ => rfl

theorem stable_filledText : Stable filledText .text :=
  .of_read fun _ _ h => filledText_text (filledText_eq_sound h)

theorem stable_columnName : Stable columnName .text := .of_read fun _ _ _ => rfl

theorem stable_int : Stable int .int := .of_read fun _ _ _ => rfl

theorem stable_bool : Stable bool .bool := .of_read fun _ _ _ => rfl

theorem stable_webAddress : Stable webAddress .text := by
  refine .of_read fun v s h => ?_
  obtain ⟨t, -, ht⟩ := Checked.andThen_eq_sound h
  obtain ⟨rfl, haddress⟩ := Checked.ensure_eq_sound ht
  show Checked.ensure t (t.startsWith "http://" || t.startsWith "https://") _ = _
  rw [Checked.ensure, if_pos haddress]

/-- A word of a table is found there. -/
theorem oneOf_of_lookup {table : List (String × α)} {word : String} {x : α}
    (h : table.lookup word = some x) : oneOf table (.text word) = .sound x := by
  unfold oneOf
  simp only [h]

/-- What stands in a table is found there again. -/
theorem stable_oneOf {table : List (String × α)} {word : α → String}
    (h : ∀ entry ∈ table, table.lookup (word entry.2) = some entry.2) :
    Stable (oneOf table) fun x => .text (word x) := by
  refine .of_read fun v x hx => ?_
  obtain ⟨_, hmem⟩ := oneOf_eq_sound hx
  exact oneOf_of_lookup (h _ hmem)

/-- Texts are read again, at least one if there was one. -/
theorem stable_textsOrOne : Stable (textsOrOne list) .ofTexts :=
  .of_read fun _ texts _ => list_ofTexts texts

theorem stable_textsOrOne_filled : Stable (textsOrOne filledList) .ofTexts := by
  refine .of_read fun v texts h => ?_
  have hfilled : texts ≠ [] := by
    unfold textsOrOne at h
    split at h <;> exact ne_nil_of_filledList h
  show filledList text (.ofTexts texts) = _
  rw [filledList, list_ofTexts]
  cases texts with
  | nil => exact absurd rfl hfilled
  | cons s rest => rfl

theorem entries_texts (texts : List (String × String)) :
    Schema.entries text (texts.map fun (name, s) => (name, Value.text s)) = .sound texts := by
  induction texts with
  | nil => rfl
  | cons entry rest ih =>
    rw [List.map_cons, Schema.entries, ih]
    rfl

theorem stable_textMapping :
    Stable textMapping fun texts => .object (texts.map fun (name, s) => (name, Value.text s)) :=
  .of_read fun _ texts _ => entries_texts texts

end Schema

/-! ## Doubles that are not finite -/

namespace Value

mutual

theorem finite_finite : ∀ v : Value, v.finite.finite = v.finite
  | .float x => by
    rw [finite]
    split
    · next hfinite => rw [finite, if_pos hfinite]
    · rfl
  | .list vs => by rw [finite, finite, finiteItems_finiteItems vs]
  | .object fields => by rw [finite, finite, finiteFields_finiteFields fields]
  | .null | .bool _ | .int _ | .text _ => rfl

theorem finiteItems_finiteItems : ∀ vs : List Value, finiteItems (finiteItems vs) = finiteItems vs
  | [] => rfl
  | v :: rest => by
    rw [finiteItems, finiteItems, finite_finite v, finiteItems_finiteItems rest]

theorem finiteFields_finiteFields :
    ∀ fields : List (String × Value), finiteFields (finiteFields fields) = finiteFields fields
  | [] => rfl
  | (name, v) :: rest => by
    rw [finiteFields, finiteFields, finite_finite v, finiteFields_finiteFields rest]

end

end Value

/-- Arbitrary fields are read again, without the doubles that are not finite. -/
theorem Schema.stable_mapping :
    Stable mapping fun fields => (Value.object fields).finite := by
  intro v fields _
  exact ⟨Value.finiteFields fields, rfl, (Value.object fields).finite_finite⟩

end Signoff
