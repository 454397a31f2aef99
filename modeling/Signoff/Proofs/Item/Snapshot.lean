import Signoff.Item.Changes
import Signoff.Proofs.Item.Cells

/-! # What a snapshot shows

    A snapshot shows a cell under the number of its column and under the name of
    the column. All of these names share one space with those of the item itself,
    and the last cell of a name hides what was written before it:

    * `Office.namesOf`: the names under which a cell is shown.
    * `intText_injective`: numbers of columns do not meet.
    * `get?_snapshotOf_of_mem`: a name shows the value that all of its cells have.
      `get?_snapshotOf_of_free`: a name without cells shows the item itself.
-/

namespace Signoff

/-! ## Numbers of columns -/

namespace NumberText

theorem natText_injective {m n : Nat} (h : natText m = natText n) : m = n := by
  have hdigits : Nat.toDigits 10 m = Nat.toDigits 10 n := String.ofList_injective h
  have hvalue (k : Nat) : Nat.ofDigitChars 10 (Nat.toDigits 10 k) 0 = k :=
    Nat.ofDigitChars_toDigits (by decide) (by decide)
  rw [← hvalue m, hdigits, hvalue n]

theorem isDigit_of_mem_natText {n : Nat} {c : Char} (h : c ∈ (natText n).toList) : c.isDigit = true := by
  unfold natText at h
  rw [String.toList_ofList] at h
  exact Nat.isDigit_of_mem_toDigits (by decide) (by decide) h

/-- A number is written with digits, behind a sign if it is negative. -/
theorem isDigit_or_sign {n : Int} {c : Char} (h : c ∈ (intText n).toList) :
    c.isDigit = true ∨ c = '-' := by
  unfold intText at h
  split at h
  · rw [String.toList_append, List.mem_append] at h
    rcases h with hsign | hdigit
    · exact .inr (List.mem_singleton.mp hsign)
    · exact .inl (isDigit_of_mem_natText hdigit)
  · exact .inl (isDigit_of_mem_natText h)

theorem natText_ne_negative (m n : Nat) : natText m ≠ "-" ++ natText n := by
  intro h
  have hsign : '-' ∈ (natText m).toList := by
    rw [h, String.toList_append]
    exact List.mem_append_left _ (List.mem_singleton_self _)
  exact absurd (isDigit_of_mem_natText hsign) (by decide)

theorem intText_injective {m n : Int} (h : intText m = intText n) : m = n := by
  unfold intText at h
  split at h <;> split at h
  · have hsame := natText_injective (String.append_right_inj _ |>.mp h)
    omega
  · exact absurd h.symm (natText_ne_negative _ _)
  · exact absurd h (natText_ne_negative _ _)
  · have hsame := natText_injective h
    omega

end NumberText

/-! ## Names -/

/-- What a snapshot shows of the item itself. -/
def Item.plain (item : Item) : Fields :=
  [("id", .int item.id), ("name", .text item.name), ("status", .ofText? item.status)]

/-- The names under which the item itself is shown. -/
def Item.plainNames : List String := ["id", "name", "status"]

namespace Item

theorem nodup_plain (item : Item) : (item.plain.map (·.1)).Nodup := by
  show plainNames.Nodup
  decide

theorem get?_plain_eq_none (item : Item) {name : String} (h : name ∉ plainNames) :
    Fields.get? item.plain name = none := by
  apply List.lookup_eq_none_iff.mpr
  rintro field hfield
  refine bne_iff_ne.mpr ?_
  rintro rfl
  exact h (List.mem_map_of_mem (f := fun field => field.1) hfield)

/-- What is shown of the item itself equals itself. -/
theorem looseEq_self_of_plain (item : Item) {name : String} {v : Value}
    (h : Fields.get? item.plain name = some v) : v.looseEq v = true := by
  have hmem := (Fields.mem_iff_get? item.nodup_plain).mpr h
  simp only [plain, List.mem_cons, Prod.mk.injEq, List.not_mem_nil, or_false] at hmem
  rcases hmem with ⟨-, rfl⟩ | ⟨-, rfl⟩ | ⟨-, rfl⟩
  · simp [Value.looseEq, Value.asInt?]
  · simp [Value.looseEq]
  · exact Value.looseEq_ofText?_self _

end Item

namespace Office

/-- The names under which a cell is shown: the number of its column, and the name of the column in lower
    case. -/
def namesOf (o : Office) (c : Cell) : List String :=
  NumberText.intText c.columnId ::
    ((o.columns.get? c.columnId).map fun column => Text.lower column.name).toList

variable {o : Office} {item : Item} {name : String} {c c' : Cell} {v : Value}

/-- A snapshot shows the item, and then writes every cell under its names. -/
theorem snapshotOf_eq (o : Office) (item : Item) :
    o.snapshotOf item = item.plain.setAll
      ((o.cellsOf item.id).flatMap fun c => (o.namesOf c).map fun name => (name, c.value)) := by
  unfold snapshotOf Item.snapshot Fields.setAll namesOf
  rw [List.foldl_map, List.foldl_flatMap]
  congr 1
  funext acc c
  cases o.columns.get? c.columnId <;> rfl

/-- A name shows the value that all cells of this name have. -/
theorem get?_snapshotOf_of_mem (hc : c ∈ o.cellsOf item.id) (hname : name ∈ o.namesOf c)
    (h : ∀ c' ∈ o.cellsOf item.id, name ∈ o.namesOf c' → c'.value = c.value) :
    Fields.get? (o.snapshotOf item) name = some c.value := by
  rw [snapshotOf_eq]
  apply Fields.get?_setAll_of_mem
  · exact List.mem_flatMap.mpr ⟨c, hc, List.mem_map.mpr ⟨name, hname, rfl⟩⟩
  · intro field hfield hsame
    obtain ⟨c', hc', hfield⟩ := List.mem_flatMap.mp hfield
    obtain ⟨other, hother, rfl⟩ := List.mem_map.mp hfield
    cases hsame
    exact h c' hc' hother

/-- A name that no cell has shows the item itself. -/
theorem get?_snapshotOf_of_free (h : ∀ c ∈ o.cellsOf item.id, name ∉ o.namesOf c) :
    Fields.get? (o.snapshotOf item) name = Fields.get? item.plain name := by
  rw [snapshotOf_eq]
  apply Fields.get?_setAll
  rintro field hfield rfl
  obtain ⟨c, hc, hfield⟩ := List.mem_flatMap.mp hfield
  obtain ⟨other, hother, rfl⟩ := List.mem_map.mp hfield
  exact h c hc hother

/-- Every name is shown once. -/
theorem nodup_snapshotOf (o : Office) (item : Item) : ((o.snapshotOf item).map (·.1)).Nodup := by
  rw [snapshotOf_eq]
  exact Fields.nodup_setAll item.nodup_plain _

/-! ## Names that do not meet -/

/-- No column in which the item has a cell is named like a field of the item, like the number of another
    such column, or like another such column but for the case of letters. -/
def Legible (o : Office) (itemId : Int) : Prop :=
  ∀ c ∈ o.cellsOf itemId, ∀ column, o.columns.get? c.columnId = some column →
    Text.lower column.name ∉ Item.plainNames ∧
      ∀ c' ∈ o.cellsOf itemId, Text.lower column.name ∈ o.namesOf c' → c' = c

theorem mem_namesOf : name ∈ o.namesOf c ↔ name = NumberText.intText c.columnId ∨
    ∃ column, o.columns.get? c.columnId = some column ∧ name = Text.lower column.name := by
  unfold namesOf
  rw [List.mem_cons]
  cases o.columns.get? c.columnId <;> simp

theorem intText_not_mem_plainNames (n : Int) : NumberText.intText n ∉ Item.plainNames := by
  intro h
  -- Each of these names has a letter.
  have hletter (letter : Char) {name : String} (hname : NumberText.intText n = name)
      (hmem : letter ∈ name.toList) (hother : letter.isDigit = false ∧ letter ≠ '-') : False := by
    rcases NumberText.isDigit_or_sign (hname ▸ hmem) with hdigit | hsign
    · rw [hother.1] at hdigit
      cases hdigit
    · exact hother.2 hsign
  simp only [Item.plainNames, List.mem_cons, List.not_mem_nil, or_false] at h
  rcases h with h | h | h
  · exact hletter 'd' h (by decide) (by decide)
  · exact hletter 'm' h (by decide) (by decide)
  · exact hletter 's' h (by decide) (by decide)

namespace Legible

variable {itemId : Int} (h : o.Legible itemId)

include h

theorem not_mem_plainNames (hc : c ∈ o.cellsOf itemId) (hname : name ∈ o.namesOf c) :
    name ∉ Item.plainNames := by
  rcases mem_namesOf.mp hname with rfl | ⟨column, hcolumn, rfl⟩
  · exact intText_not_mem_plainNames _
  · exact (h c hc column hcolumn).1

/-- A name shows one cell. -/
theorem eq_of_mem (happart : o.CellsApart) (hc : c ∈ o.cellsOf itemId) (hc' : c' ∈ o.cellsOf itemId)
    (hname : name ∈ o.namesOf c) (hname' : name ∈ o.namesOf c') : c = c' := by
  rcases mem_namesOf.mp hname with hnumber | ⟨column, hcolumn, hcalled⟩
  · rcases mem_namesOf.mp hname' with hnumber' | ⟨column, hcolumn, hcalled⟩
    · exact happart.eq hc hc' (NumberText.intText_injective (hnumber.symm.trans hnumber'))
    · exact (h c' hc' column hcolumn).2 c hc (hcalled ▸ hname)
  · exact ((h c hc column hcolumn).2 c' hc' (hcalled ▸ hname')).symm

end Legible

theorem Legible.get?_of_mem (h : o.Legible item.id) (happart : o.CellsApart)
    (hc : c ∈ o.cellsOf item.id) (hname : name ∈ o.namesOf c) :
    Fields.get? (o.snapshotOf item) name = some c.value :=
  get?_snapshotOf_of_mem hc hname fun _ hc' hname' => by rw [h.eq_of_mem happart hc hc' hname hname']

/-! ## Changes that show -/

/-- The value that an item has in a column, null where it has no cell. -/
def valueAt (o : Office) (itemId columnId : Int) : Value := (o.value? itemId columnId).getD .null

theorem valueAt_of_value? {itemId k : Int} (h : o.value? itemId k = some v) : o.valueAt itemId k = v := by
  rw [valueAt, h]
  rfl

section Changes

variable {o' : Office} {item' : Item}

theorem namesOf_congr (hcolumns : o'.columns = o.columns) (hcolumn : c'.columnId = c.columnId) :
    o'.namesOf c' = o.namesOf c := by
  unfold namesOf
  rw [hcolumns, hcolumn]

/-- The item has kept its cells, and no names meet. -/
structure Grown (o o' : Office) (itemId : Int) : Prop where
  columns : o'.columns = o.columns
  apart : o.CellsApart
  apart' : o'.CellsApart
  legible : o'.Legible itemId
  kept : ∀ k v, o.value? itemId k = some v → ∃ v', o'.value? itemId k = some v'

namespace Grown

variable (h : Grown o o' item.id)

include h

/-- Every cell that was there is there, under the same names. -/
theorem exists_cell (hc : c ∈ o.cellsOf item.id) :
    ∃ c' ∈ o'.cellsOf item.id, c'.columnId = c.columnId ∧ o'.namesOf c' = o.namesOf c := by
  obtain ⟨v', hv'⟩ := h.kept _ _ (h.apart.value?_of_mem hc)
  obtain ⟨c', hc', hcolumn, -⟩ := exists_of_value? hv'
  exact ⟨c', hc', hcolumn, namesOf_congr h.columns hcolumn⟩

/-- The names of a cell showed its old value before. -/
theorem get_before (hc' : c' ∈ o'.cellsOf item.id) (hname : name ∈ o'.namesOf c') :
    Fields.get (o.snapshotOf item) name = o.valueAt item.id c'.columnId := by
  -- Only a cell in the same column had the name before.
  have honly : ∀ c ∈ o.cellsOf item.id, name ∈ o.namesOf c → c.columnId = c'.columnId := by
    intro c hc hc_name
    obtain ⟨c₂, hc₂, hcolumn, hnames⟩ := h.exists_cell hc
    rw [← hcolumn, h.legible.eq_of_mem h.apart' hc₂ hc' (hnames ▸ hc_name) hname]
  unfold Fields.get valueAt
  cases hcell : o.cell? item.id c'.columnId with
  | some c =>
    obtain ⟨hc, hcolumn⟩ := of_cell? hcell
    have hc_name : name ∈ o.namesOf c := (namesOf_congr h.columns hcolumn.symm) ▸ hname
    rw [get?_snapshotOf_of_mem hc hc_name fun c₂ hc₂ hname₂ => by
      rw [h.apart.eq hc₂ hc ((honly c₂ hc₂ hname₂).trans hcolumn.symm)]]
    rw [value?, hcell]
    rfl
  | none =>
    have hfree : ∀ c ∈ o.cellsOf item.id, name ∉ o.namesOf c := by
      intro c hc hc_name
      have hfound := h.apart.cell?_of_mem hc
      rw [honly c hc hc_name, hcell] at hfound
      cases hfound
    have hother := h.legible.not_mem_plainNames hc' hname
    rw [get?_snapshotOf_of_free hfree, item.get?_plain_eq_none hother, value?, hcell]
    rfl

/-- A name without cells showed the item itself. -/
theorem free_before (hfree : ∀ c' ∈ o'.cellsOf item.id, name ∉ o'.namesOf c') :
    ∀ c ∈ o.cellsOf item.id, name ∉ o.namesOf c := by
  intro c hc hname
  obtain ⟨c', hc', -, hnames⟩ := h.exists_cell hc
  exact hfree c' hc' (hnames ▸ hname)

/-- Every name that is shown shows a value equal to the one before. -/
def ShowsSame (o o' : Office) (item item' : Item) : Prop :=
  ∀ name v, Fields.get? (o'.snapshotOf item') name = some v →
    (Fields.get (o.snapshotOf item) name).looseEq v = true

omit h in
theorem changedFields_eq_nil_iff_showsSame (o o' : Office) (item item' : Item) :
    ItemChange.changedFields (o.snapshotOf item) (o'.snapshotOf item') = [] ↔
      ShowsSame o o' item item' := by
  unfold ItemChange.changedFields
  rw [List.filter_eq_nil_iff]
  constructor
  · intro hnone name v hv
    simpa using hnone (name, v) ((Fields.mem_iff_get? (nodup_snapshotOf o' item')).mpr hv)
  · intro hall field hfield
    simpa using hall _ _ ((Fields.mem_iff_get? (nodup_snapshotOf o' item')).mp hfield)

/-- The name of the item is shown as it is, -/
theorem name_of_showsSame (hid : item'.id = item.id) (hsame : ShowsSame o o' item item') :
    item'.name = item.name := by
  have hfree : ∀ c' ∈ o'.cellsOf item.id, "name" ∉ o'.namesOf c' := fun c' hc' hname =>
    h.legible.not_mem_plainNames hc' hname (by decide)
  have hafter : Fields.get? (o'.snapshotOf item') "name" = some (.text item'.name) :=
    get?_snapshotOf_of_free (hid ▸ hfree)
  have hbefore : Fields.get (o.snapshotOf item) "name" = .text item.name := by
    rw [Fields.get, get?_snapshotOf_of_free (h.free_before hfree)]
    rfl
  have hequal := hsame _ _ hafter
  rw [hbefore] at hequal
  exact Value.text.inj (Value.eq_of_looseEq_text hequal)

/-- and so are its cells. -/
theorem cells_of_showsSame (hid : item'.id = item.id) (hsame : ShowsSame o o' item item') (k : Int) :
    (o.valueAt item.id k).looseEq (o'.valueAt item.id k) = true := by
  cases hv' : o'.value? item.id k with
  | none =>
    have hnone : o.value? item.id k = none := by
      rw [Option.eq_none_iff_forall_ne_some]
      intro v hv
      obtain ⟨v', hkept⟩ := h.kept k v hv
      rw [hv'] at hkept
      cases hkept
    rw [valueAt, valueAt, hnone, hv']
    rfl
  | some v' =>
    obtain ⟨c', hc', rfl, rfl⟩ := exists_of_value? hv'
    have hname : NumberText.intText c'.columnId ∈ o'.namesOf c' := List.mem_cons_self ..
    have hlegible : o'.Legible item'.id := hid ▸ h.legible
    have hequal := hsame _ _ (hlegible.get?_of_mem h.apart' (hid ▸ hc') hname)
    rwa [h.get_before hc' hname, ← valueAt_of_value? hv'] at hequal

/-- What has changed is shown to have changed. -/
theorem changedFields_eq_nil_iff (hid : item'.id = item.id) (hstatus : item'.status = item.status) :
    ItemChange.changedFields (o.snapshotOf item) (o'.snapshotOf item') = [] ↔
      item'.name = item.name ∧
        ∀ k, (o.valueAt item.id k).looseEq (o'.valueAt item.id k) = true := by
  rw [changedFields_eq_nil_iff_showsSame]
  constructor
  · exact fun hsame => ⟨h.name_of_showsSame hid hsame, h.cells_of_showsSame hid hsame⟩
  · rintro ⟨hname, hcells⟩ name v hv
    by_cases hshown : ∃ c' ∈ o'.cellsOf item.id, name ∈ o'.namesOf c'
    · obtain ⟨c', hc', hc_name⟩ := hshown
      have hlegible : o'.Legible item'.id := hid ▸ h.legible
      rw [hlegible.get?_of_mem h.apart' (hid ▸ hc') hc_name] at hv
      have hequal := hcells c'.columnId
      rwa [valueAt_of_value? (h.apart'.value?_of_mem hc'), ← h.get_before hc' hc_name,
        Option.some.inj hv] at hequal
    · have hfree : ∀ c' ∈ o'.cellsOf item.id, name ∉ o'.namesOf c' := fun c' hc' hc_name =>
        hshown ⟨c', hc', hc_name⟩
      have hplain : item'.plain = item.plain := by
        unfold Item.plain
        rw [hid, hname, hstatus]
      rw [get?_snapshotOf_of_free (hid ▸ hfree), hplain] at hv
      rw [Fields.get, get?_snapshotOf_of_free (h.free_before hfree), hv]
      exact item.looseEq_self_of_plain hv

end Grown

end Changes

end Office
end Signoff
