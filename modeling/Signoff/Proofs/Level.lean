import Signoff.Workflow.Level

/-! # The order of levels

    Levels are told apart by their names and by their places in the order.
-/

namespace Signoff.Level

theorem mem_all (l : Level) : l ∈ all := by
  cases l <;> simp [all]

theorem index_injective {k l : Level} (h : k.index = l.index) : k = l := by
  cases k <;> cases l <;> first | rfl | simp [index] at h

theorem ofName?_name (l : Level) : ofName? l.name = some l := by
  cases l <;> rfl

theorem name_injective {k l : Level} (h : k.name = l.name) : k = l := by
  have := ofName?_name k
  rw [h, ofName?_name] at this
  exact (Option.some.inj this).symm

/-- Only the names of levels name a level. -/
theorem name_of_ofName? {name : String} {l : Level} (h : ofName? name = some l) :
    name = l.name := by
  obtain ⟨front, behind, htable, -⟩ := List.lookup_eq_some_iff.mp h
  have hmem : (name, l) ∈ table := by simp [htable]
  obtain ⟨k, -, hk⟩ := List.mem_map.mp hmem
  cases hk
  rfl

/-- The level in front is one place lower. -/
theorem index_of_previous? {k l : Level} (h : l.previous? = some k) : k.index + 1 = l.index := by
  cases l <;> cases h <;> rfl

theorem mem_before {k l : Level} : k ∈ l.before ↔ k.index < l.index := by
  simp [before, mem_all]

theorem mem_after {k l : Level} : k ∈ l.after ↔ l.index < k.index := by
  simp [after, mem_all]

theorem all_nodup : all.Nodup := by decide

/-- The list of all levels is in the order. -/
theorem all_sorted : all.Pairwise fun k l => k.index < l.index := by decide

end Signoff.Level
