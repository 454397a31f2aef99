import Signoff.Proofs.Task
import Signoff.Proofs.Value
import Signoff.Workflow.Evaluation

/-! # Workflows that cannot be evaluated

    A test for "greater" or "less" reads both sides as numbers, and an integer
    that is too large for a double is none. And there is room for so many nested
    calls only. No other part of a checked condition fails:

    * `ConditionForm.fault_condition`: a condition of a rule fails only so.
    * `Workflow.fault_evaluate`: nor does the workflow fail otherwise.
-/

namespace Signoff

variable {snapshot : Snapshot} {fault : Fault} {room : Nat}

/-- A limit of the evaluation was met: an integer is too large to be compared, or the condition or its
    values are nested too deep. -/
def Fault.IsLimit (fault : Fault) : Prop := fault = .intTooLarge ∨ fault = .exhausted .depth

/-- Where the room is too small that is a limit, and else the result decides. -/
theorem Result.isLimit_within {α : Type} {calls : Nat} {result : Result α}
    (h : Result.within room calls result = .error fault)
    (hresult : result = .error fault → fault.IsLimit) : fault.IsLimit := by
  rcases Result.within_eq_error_iff.mp h with ⟨-, rfl⟩ | ⟨-, h⟩
  · exact .inr rfl
  · exact hresult h

namespace Condition

theorem fault_comparisonNumber {v : Value} (h : comparisonNumber v = .error fault) :
    fault = .intTooLarge := by
  rcases Result.bind_eq_error h with h | ⟨number, -, h⟩
  · exact (Value.number?_eq_error_iff.mp h).2
  · cases h

/-- Tests that compare numbers fail where a side is no number. -/
theorem fault_testHolds {test : Test} {actual expected : Value}
    (h : testHolds test actual expected = .error fault) : fault = .intTooLarge := by
  cases test with
  | greaterThan | lessThan =>
    rcases Result.bind_eq_error h with h | ⟨a, -, h⟩
    · exact fault_comparisonNumber h
    · rcases Result.bind_eq_error h with h | ⟨b, -, h⟩
      · exact fault_comparisonNumber h
      · cases h
  | _ => cases h

/-- A field that is named by a text, or by nothing, is never unhashable. -/
theorem fault_leaf {test : Test} {field : Option String} {expected : Value}
    (h : holdsWithin snapshot (.leaf test (.ofText? field) expected) room = .error fault) :
    fault.IsLimit := by
  unfold holdsWithin at h
  refine Result.isLimit_within h fun h => ?_
  split at h
  · rcases Result.bind_eq_error h with h | ⟨actual, -, h⟩
    · cases field <;> cases h
    · exact Result.isLimit_within h fun h => .inl (fault_testHolds h)
  · cases h

end Condition

namespace ConditionForm

open Condition

mutual

/-- A checked condition fails only at a limit of the evaluation. -/
theorem fault_condition : ∀ (form : ConditionForm) {room : Nat},
    holdsWithin snapshot form.condition room = .error fault → fault.IsLimit
  | .node .all _ _ none, _, h => Result.isLimit_within h nofun
  | .node .all _ _ (some parts), _, h => Result.isLimit_within h (fault_allHoldWithin parts)
  | .node .any _ _ none, _, h => Result.isLimit_within h nofun
  | .node .any _ _ (some parts), _, h => Result.isLimit_within h (fault_anyHoldsWithin parts)
  | .node (.test _) _ _ _, _, h => fault_leaf h

theorem fault_allHoldWithin : ∀ (parts : List ConditionForm) {room : Nat},
    allHoldWithin snapshot (conditions parts) room = .error fault → fault.IsLimit
  | [], _, h => by cases h
  | form :: rest, _, h => by
    rcases Result.bind_eq_error h with h | ⟨isHeld, -, h⟩
    · exact fault_condition form h
    · cases isHeld with
      | true => exact fault_allHoldWithin rest h
      | false => cases h

theorem fault_anyHoldsWithin : ∀ (parts : List ConditionForm) {room : Nat},
    anyHoldsWithin snapshot (conditions parts) room = .error fault → fault.IsLimit
  | [], _, h => by cases h
  | form :: rest, _, h => by
    rcases Result.bind_eq_error h with h | ⟨isHeld, -, h⟩
    · exact fault_condition form h
    · cases isHeld with
      | true => cases h
      | false => exact fault_anyHoldsWithin rest h

end

end ConditionForm

namespace Workflow

theorem fault_holding {rules : List Rule} (h : holding snapshot rules = .error fault) :
    fault.IsLimit := by
  induction rules with
  | nil => cases h
  | cons r rest ih =>
    have hrest {isHeld : Bool} (h : (do
        let others ← holding snapshot rest
        pure (if isHeld then r :: others else others)) = .error fault) : fault.IsLimit := by
      rcases Result.bind_eq_error h with h | ⟨others, -, h⟩
      · exact ih h
      · cases h
    unfold holding at h
    split at h
    · rcases Result.bind_eq_error h with h | ⟨isHeld, -, h⟩
      · exact r.condition.fault_condition h
      · exact hrest h
    · exact hrest h

/-- A workflow says something about every item, unless a limit of the evaluation is met. -/
theorem fault_evaluate {w : Workflow} (h : w.evaluate snapshot = .error fault) : fault.IsLimit := by
  rcases Result.bind_eq_error h with h | ⟨rules, -, h⟩
  · exact fault_holding h
  · cases h

end Workflow

end Signoff
