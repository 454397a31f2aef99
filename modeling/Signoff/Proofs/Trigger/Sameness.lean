import Signoff.Proofs.Json.Canonical
import Signoff.Trigger.Comparison

/-! # When a field equals what is expected

    A field is compared by canonical texts, unless both values are numbers. So it
    equals what is expected just if the two are the same tree:

    * `sameValue_eq`: the comparison never fails, and tells trees apart.
    * `ofField_equals`: so does the test of a field, and the opposite test is its exact
      opposite.
-/

namespace Signoff.Comparison

open Value (IsJson SameTree)

variable {actual expected : Value}

/-- Values that are not both numbers are compared by their canonical texts. -/
theorem sameValue_eq (h : ¬ (actual.isNumber = true ∧ expected.isNumber = true)) :
    sameValue actual expected = .ok (Json.canonical actual == Json.canonical expected) := by
  unfold sameValue
  rw [if_neg (by simpa using h)]
  rfl

/-- A field equals what is expected just if the two are the same tree, and it does not equal it just if
    they are not. The values are those of JSON, and one of them at least is no number. -/
theorem ofField_equals (fields : Fields) (column expected : Value)
    (hactual : IsJson (fields.get column.display)) (hexpected : IsJson expected)
    (hnumber : ¬ ((fields.get column.display).isNumber = true ∧ expected.isNumber = true)) :
    ∃ isSame : Bool,
      ofField (some fields) column expected (.text "equals") = .ok isSame ∧
      ofField (some fields) column expected (.text "not_equals") = .ok (!isSame) ∧
      (isSame = true ↔ SameTree (fields.get column.display) expected) := by
  refine ⟨Json.canonical (fields.get column.display) == Json.canonical expected, ?_, ?_, ?_⟩
  · have hword : ofWord? "equals" = some .equals := by decide
    rw [ofField, hword]
    exact sameValue_eq hnumber
  · have hword : ofWord? "not_equals" = some .notEquals := by decide
    rw [ofField, hword]
    show (sameValue _ _).map (! ·) = _
    rw [sameValue_eq hnumber]
    rfl
  · rw [beq_iff_eq, Json.canonical_eq_iff hactual hexpected]

/-- The details of an invoice: a note that has to be escaped, and a list of leaves. -/
def details : Fields := [("note", .text "caf\u00e9 \"A\""), ("lines", .list [.int 1, .bool true])]

/-- The details equal themselves in another order. -/
theorem ofField_equals_reordered :
    ofField (some [("7", .object details)]) (.int 7) (.object details.reverse) (.text "equals") =
        .ok true ∧
      ofField (some [("7", .object details)]) (.int 7) (.object details.reverse)
        (.text "not_equals") = .ok false := by
  have hcolumn : Fields.get [("7", .object details)] (Value.int 7).display = .object details := by
    with_unfolding_all rfl
  have hnames : (details.map (·.1)).Nodup := by
    decide
  have hjson : ∀ field ∈ details, IsJson field.2 := by
    intro field hfield
    simp only [details, List.mem_cons, List.not_mem_nil, or_false] at hfield
    rcases hfield with rfl | rfl
    · exact .text _
    · refine .list fun v hv => ?_
      simp only [List.mem_cons, List.not_mem_nil, or_false] at hv
      rcases hv with rfl | rfl
      · exact .int 1
      · exact .bool true
  have hactual : IsJson (.object details) := .object hnames hjson
  have hexpected : IsJson (.object details.reverse) := by
    refine .object ?_ fun field hfield => hjson field (List.mem_reverse.mp hfield)
    rw [List.map_reverse]
    exact List.nodup_reverse.mpr hnames
  have hsame : SameTree (.object details) (.object details.reverse) := by
    refine .object (List.Perm.refl details) (List.reverse_perm details) rfl ?_
    exact List.forall₂_same.mpr fun v _ => .refl v
  obtain ⟨isSame, hequals, hdiffers, hiff⟩ := ofField_equals [("7", .object details)] (.int 7)
    (.object details.reverse) (hcolumn ▸ hactual) hexpected (by rw [hcolumn]; simp [Value.isNumber])
  rw [hcolumn] at hiff
  obtain rfl := hiff.mpr hsame
  exact ⟨hequals, hdiffers⟩

end Signoff.Comparison
