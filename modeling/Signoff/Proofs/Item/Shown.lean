import Signoff.Proofs.Durable
import Mathlib.Data.List.Induction

/-! # Names that hide one another

    The fields of an item, the numbers of its columns and the names of its columns
    share one space, and what is written last under a name is what it shows:

    * `Office.lastNamed?`: the last cell of an item that is shown under a name.
    * `get?_snapshotOf`: this cell is what the name shows, and the item itself where no
      cell has the name.
    * `shown_unless_called`: so the item and all of its cells are shown, as long as
      no column is called like what it would hide.
-/

namespace Signoff

namespace Office

/-- A cell under all of its names. -/
def entriesOf (o : Office) (c : Cell) : Fields := (o.namesOf c).map fun name => (name, c.value)

/-- The last cell of an item that is shown under a name. -/
def lastNamed? (o : Office) (itemId : Int) (name : String) : Option Cell :=
  ((o.cellsOf itemId).filter fun c => name ∈ o.namesOf c).getLast?

/-- A column in which the item has a cell is called like this, but for the case of letters. -/
def IsCalled (o : Office) (itemId : Int) (name : String) : Prop :=
  ∃ c ∈ o.cellsOf itemId, ∃ column, o.columns.get? c.columnId = some column ∧
    Text.lower column.name = name

variable {o : Office} {item : Item} {name : String} {c : Cell}

/-- A cell is written over what its names showed before. -/
theorem get?_setAll_entriesOf (o : Office) (c : Cell) (fields : Fields) (name : String) :
    Fields.get? (fields.setAll (o.entriesOf c)) name =
      if name ∈ o.namesOf c then some c.value else Fields.get? fields name := by
  have hentry : ∀ field ∈ o.entriesOf c, field.1 ∈ o.namesOf c ∧ field.2 = c.value := by
    intro field hfield
    obtain ⟨other, hother, rfl⟩ := List.mem_map.mp hfield
    exact ⟨hother, rfl⟩
  split
  · next hname =>
    have hmem : (name, c.value) ∈ o.entriesOf c := List.mem_map.mpr ⟨name, hname, rfl⟩
    exact Fields.get?_setAll_of_mem hmem (fun field hfield _ => (hentry field hfield).2) fields
  · next hname =>
    have hother : ∀ field ∈ o.entriesOf c, field.1 ≠ name := by
      rintro field hfield rfl
      exact hname (hentry field hfield).1
    exact Fields.get?_setAll hother fields

/-- So of several cells the last one of a name counts. -/
theorem get?_setAll_cells (o : Office) (cells : List Cell) (fields : Fields) (name : String) :
    Fields.get? (fields.setAll (cells.flatMap o.entriesOf)) name =
      ((cells.filter fun c => name ∈ o.namesOf c).getLast?.map (·.value)).or
        (Fields.get? fields name) := by
  induction cells using List.reverseRecOn with
  | nil => rfl
  | append_singleton cells c ih =>
    have hlast : fields.setAll ((cells ++ [c]).flatMap o.entriesOf) =
        (fields.setAll (cells.flatMap o.entriesOf)).setAll (o.entriesOf c) := by
      rw [List.flatMap_append, List.flatMap_singleton, Fields.setAll, List.foldl_append]
      rfl
    rw [hlast, get?_setAll_entriesOf, ih, List.filter_append]
    by_cases hname : name ∈ o.namesOf c
    · simp [hname]
    · simp [hname]

/-- What a snapshot shows under a name. -/
theorem get?_snapshotOf (o : Office) (item : Item) (name : String) :
    Fields.get? (o.snapshotOf item) name =
      ((o.lastNamed? item.id name).map (·.value)).or (Fields.get? item.plain name) := by
  exact (congrArg (Fields.get? · name) (snapshotOf_eq o item)).trans (get?_setAll_cells ..)

/-- A name of the item itself is free unless a column is called like it. -/
theorem not_mem_namesOf_of_not_isCalled (hplain : name ∈ Item.plainNames)
    (hcalled : ¬ o.IsCalled item.id name) : ∀ c ∈ o.cellsOf item.id, name ∉ o.namesOf c := by
  intro c hc hname
  rcases mem_namesOf.mp hname with rfl | ⟨column, hcolumn, rfl⟩
  · exact intText_not_mem_plainNames _ hplain
  · exact hcalled ⟨c, hc, column, hcolumn, rfl⟩

/-- A snapshot can always be taken, and changes nothing. A name shows the last cell that has it, and the
    item itself where no cell has it. So the fields of the item are shown unless a column is called like
    them, and so is every cell under the number of its column unless another column is called like that
    number. -/
theorem shown_unless_called (happart : o.CellsApart) (item : Item) :
    ∃ shown, (snapshot item).exec o = (.ok shown, o) ∧
      (∀ name, Fields.get? shown name =
        ((o.lastNamed? item.id name).map (·.value)).or (Fields.get? item.plain name)) ∧
      (∀ name ∈ Item.plainNames, ¬ o.IsCalled item.id name →
        Fields.get? shown name = Fields.get? item.plain name) ∧
      ∀ c ∈ o.cellsOf item.id, o.NumberFree item.id c.columnId →
        Fields.get? shown (NumberText.intText c.columnId) = some c.value := by
  refine ⟨o.snapshotOf item, rfl, get?_snapshotOf o item, fun name hplain hcalled => ?_,
    fun c hc hfree => ?_⟩
  · exact get?_snapshotOf_of_free (not_mem_namesOf_of_not_isCalled hplain hcalled)
  · exact get?_snapshotOf_of_numberFree happart hfree (happart.value?_of_mem hc)

/-- A draft. -/
def draft : Item := { Item.small with status := some "Draft" }

/-- The draft has cells in three columns. One of them is called like a field of the item, and one like
    the number of another column. -/
def overlaid : Office :=
  { Site.small.office with
    columns := ⟨[⟨1, 1, "Status", "text", 0⟩, ⟨2, 1, "Total", "number", 1⟩,
      ⟨3, 1, "2", "number", 2⟩]⟩
    items := ⟨[draft]⟩
    cells := ⟨[⟨1, 1, 1, .text "Done"⟩, ⟨2, 1, 2, .int 5⟩, ⟨3, 1, 3, .int 7⟩]⟩ }

theorem mem_of_isCalled_overlaid (h : overlaid.IsCalled 1 name) : name ∈ ["status", "total", "2"] := by
  obtain ⟨c, hc, column, hcolumn, rfl⟩ := h
  have hcells : overlaid.cellsOf 1 =
      [⟨1, 1, 1, .text "Done"⟩, ⟨2, 1, 2, .int 5⟩, ⟨3, 1, 3, .int 7⟩] := rfl
  have hlower : ["Status", "Total", "2"].map Text.lower = ["status", "total", "2"] := by
    with_unfolding_all rfl
  simp only [hcells, List.mem_cons, List.not_mem_nil, or_false] at hc
  rw [← hlower]
  refine List.mem_map_of_mem ?_
  rcases hc with rfl | rfl | rfl <;> cases hcolumn <;> decide

theorem shown_unless_called_overlaid :
    ∃ shown, (snapshot draft).exec overlaid = (.ok shown, overlaid) ∧
      Fields.get? shown "name" = some (.text "Desk") ∧
      Fields.get? shown (NumberText.intText 1) = some (.text "Done") := by
  have happart : overlaid.CellsApart := by
    show [((1 : Int), (1 : Int)), (1, 2), (1, 3)].Nodup
    decide
  obtain ⟨shown, hshown, -, hplain, hcells⟩ := shown_unless_called happart draft
  refine ⟨shown, hshown, hplain "name" (by decide) fun h => ?_,
    hcells ⟨1, 1, 1, .text "Done"⟩ (List.mem_cons_self ..) fun c hc column hcolumn hname => ?_⟩
  · exact absurd (mem_of_isCalled_overlaid h) (by decide)
  · exact absurd (mem_of_isCalled_overlaid ⟨c, hc, column, hcolumn, hname⟩) (by decide)

/-- The column "Status" hides the status of the draft, and the column "2" the cell in the second column. -/
theorem shown_over_one_another :
    ∃ shown, (snapshot draft).exec overlaid = (.ok shown, overlaid) ∧
      draft.status = some "Draft" ∧ Fields.get? shown "status" = some (.text "Done") ∧
      overlaid.value? 1 2 = some (.int 5) ∧
      Fields.get? shown (NumberText.intText 2) = some (.int 7) := by
  refine ⟨_, rfl, rfl, ?_, rfl, ?_⟩
  · with_unfolding_all rfl
  · with_unfolding_all rfl

end Office
end Signoff
