import Signoff.Json.Writer
import Signoff.Text.Case
import Signoff.Value.Coerce
import Signoff.Value.Display

/-! # Comparisons of a field

The tests by which a trigger compares a field of a snapshot with an expected value. Two numbers are
equal when they are the same as doubles, and all other values when their canonical texts agree.
-/

namespace Signoff

/-- The tests of a field. -/
inductive Comparison where
  | equals
  | notEquals
  | contains
  | greaterThan
  | lessThan
  | isEmpty
  | isNotEmpty
deriving DecidableEq, Repr

namespace Comparison

/-- Every comparison. -/
def all : List Comparison :=
  [.equals, .notEquals, .contains, .greaterThan, .lessThan, .isEmpty, .isNotEmpty]

/-- The word for a comparison. -/
def word : Comparison → String
  | .equals => "equals"
  | .notEquals => "not_equals"
  | .contains => "contains"
  | .greaterThan => "greater_than"
  | .lessThan => "less_than"
  | .isEmpty => "is_empty"
  | .isNotEmpty => "is_not_empty"

/-- The comparison that a word stands for. -/
def ofWord? (word : String) : Option Comparison := all.find? fun c => c.word == word

/-- The double that a number is. -/
def numberOf : Value → Result Float
  | .int n => Value.intAsFloat n
  | .float x => .ok x
  | _ => .ok 0.0

/-- Are the values the same? -/
def sameValue (a b : Value) : Result Bool := do
  if a.isNumber && b.isNumber then
    let x ← numberOf a
    let y ← numberOf b
    pure (x == y)
  else pure (Json.canonical a == Json.canonical b)

/-- Is the expected value one of the items? -/
def anySame (expected : Value) : List Value → Result Bool
  | [] => .ok false
  | v :: rest => do if ← sameValue v expected then pure true else anySame expected rest

/-- The number that a value is ordered by; a missing value counts as zero. -/
def orderedBy (v : Value) : Result (Option Float) :=
  if v.isMissing then .ok (some 0.0) else v.number?

/-- Are both values numbers in the given order? -/
def inOrder (order : Float → Float → Bool) (actual expected : Value) : Result Bool := do
  let a ← orderedBy actual
  let b ← orderedBy expected
  match a, b with
  | some x, some y => pure (order x y)
  | _, _ => pure false

/-- Does the comparison hold of the actual value? -/
def holds (c : Comparison) (actual expected : Value) : Result Bool :=
  match c with
  | .equals => sameValue actual expected
  | .notEquals => (sameValue actual expected).map (! ·)
  | .contains =>
    match actual, expected with
    | .text whole, .text part => .ok (Text.contains (Text.lower whole) (Text.lower part))
    | .list vs, expected => anySame expected vs
    | _, _ => .ok false
  | .greaterThan => inOrder (fun x y => y < x) actual expected
  | .lessThan => inOrder (fun x y => x < y) actual expected
  | .isEmpty => .ok actual.isBlank
  | .isNotEmpty => .ok (!actual.isBlank)

/-- Compares a field of a snapshot. Nothing holds without a snapshot or under an unknown word. -/
def ofField (snapshot : Option Fields) (column expected : Value) (word : Value) : Result Bool :=
  match snapshot, word with
  | some fields, .text w =>
    match ofWord? w with
    | some c => c.holds (fields.get column.display) expected
    | none => .ok false
  | _, _ => .ok false

end Comparison
end Signoff
