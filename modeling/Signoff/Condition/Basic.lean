import Signoff.Text.Case
import Signoff.Value.Coerce

/-! # Conditions

A condition is a tree of tests on the fields of a snapshot, joined by "all of" and "any of". A
snapshot is the flat view of an item. A missing field counts as the empty text and as zero, and a
malformed node never holds.

The calls of the evaluation are nested as the condition is, and as the values are that it compares. Where
there is no room left for them there is no answer: `Condition.holdsWithin` is given the room, and
`Condition.holds` takes all that there is.
-/

namespace Signoff

/-- The flat view of an item: names, and the values they stand for. -/
abbrev Snapshot := Fields

/-- The tests of a leaf; `unknown` is any other word, and never holds. -/
inductive Test where
  | equals
  | notEquals
  | greaterThan
  | lessThan
  | contains
  | oneOf
  | isEmpty
  | isNotEmpty
  | unknown
deriving DecidableEq, Repr

/-- The test that a word stands for. -/
def Test.ofWord : String → Test
  | "equals" => .equals
  | "not_equals" => .notEquals
  | "greater_than" => .greaterThan
  | "less_than" => .lessThan
  | "contains" => .contains
  | "in" => .oneOf
  | "is_empty" => .isEmpty
  | "is_not_empty" => .isNotEmpty
  | _ => .unknown

/-- A condition on a snapshot. -/
inductive Condition where
  /-- The absent condition, which holds. -/
  | absent
  /-- A node that is no object, which does not hold. -/
  | malformed
  /-- Every part holds. -/
  | all (parts : List Condition)
  /-- Some part holds. -/
  | any (parts : List Condition)
  /-- A junction whose parts cannot be gone through. -/
  | unlistable (parts : Value)
  /-- A test of a field against an expected value. -/
  | leaf (test : Test) (field expected : Value)
deriving Inhabited

namespace Condition

mutual

/-- The text that a value is compared as: Booleans in lower case, integral doubles as integers, the
items of a list joined by commas. -/
def comparisonText : Value → String
  | .null => ""
  | .bool b => if b then "true" else "false"
  | .float x => match Binary.toInt? x with
    | some n => NumberText.intText n
    | none => NumberText.floatText x
  | .list items => ",".intercalate (comparisonTexts items)
  | v => v.display

/-- The text of each item. -/
def comparisonTexts : List Value → List String
  | [] => []
  | v :: rest => comparisonText v :: comparisonTexts rest

end

/-- The number that a value is compared as; zero where it stands for none. -/
def comparisonNumber (v : Value) : Result Float := do
  let number ← v.number?
  pure (number.getD 0.0)

/-- Does the text of `part` occur in the text of `whole`, whatever their case? -/
def containsText (whole part : Value) : Bool :=
  Text.contains (Text.lower (comparisonText whole)) (Text.lower (comparisonText part))

/-- Is the value one of those expected? -/
def isOneOf (actual expected : Value) : Bool :=
  match expected with
  | .list vs => vs.any actual.looseEq
  | v => actual.looseEq v

/-- Does the test hold of the actual value? -/
def testHolds (test : Test) (actual expected : Value) : Result Bool :=
  match test with
  | .equals => .ok (comparisonText actual == comparisonText expected)
  | .notEquals => .ok (comparisonText actual != comparisonText expected)
  | .greaterThan => do
    let a ← comparisonNumber actual
    let b ← comparisonNumber expected
    pure (b < a)
  | .lessThan => do
    let a ← comparisonNumber actual
    let b ← comparisonNumber expected
    pure (a < b)
  | .contains => .ok (containsText actual expected)
  | .oneOf => .ok (isOneOf actual expected)
  | .isEmpty => .ok actual.isBlank
  | .isNotEmpty => .ok (!actual.isBlank)
  | .unknown => .ok false

/-! ### Nested calls -/

/-- The calls that looking at a node nests, whatever the node is. -/
def nodeCalls : Nat := 7

/-- The calls by which a part of a node is looked at. -/
def partCalls : Nat := 3

mutual

/-- The calls that `comparisonText` nests. -/
def textCalls : Value → Nat
  | .list items => 1 + textCallsOfItems items
  | .object fields => 2 + Value.nestingOfFields fields
  | _ => 1

/-- The calls of the item that nests most of them. -/
def textCallsOfItems : List Value → Nat
  | [] => 0
  | v :: rest => max (2 + textCalls v) (textCallsOfItems rest)

end

/-- The calls of comparing a value with those of a list, up to the first one that it equals. -/
def memberCalls (actual : Value) : List Value → Nat
  | [] => 0
  | v :: rest =>
    max (1 + actual.looseEqCalls v) (if actual.looseEq v then 0 else memberCalls actual rest)

/-- The calls that a test nests. -/
def testCalls (test : Test) (actual expected : Value) : Nat :=
  match test with
  | .equals | .notEquals | .contains => max (textCalls actual) (textCalls expected)
  | .oneOf => match expected with
    | .list vs => memberCalls actual vs
    | v => memberCalls actual [v]
  | .greaterThan | .lessThan | .isEmpty | .isNotEmpty | .unknown => 0

/-! ### Evaluation -/

/-- The value of a field that is given by a value: only texts name fields. -/
def lookUp (snapshot : Snapshot) (field : Value) : Result Value :=
  match field with
  | .text name => .ok (snapshot.get name)
  | v => if v.isHashable then .ok .null else .error (Fault.unhashable v)

mutual

/-- Does the condition hold of the snapshot, if there is room for its calls? Parts are looked at in order
and no further than needed. -/
def holdsWithin (snapshot : Snapshot) : Condition → (room : Nat) → Result Bool
  | .absent, _ => .ok true
  | .malformed, room => Result.within room nodeCalls (.ok false)
  | .all parts, room => Result.within room nodeCalls (allHoldWithin snapshot parts room)
  | .any parts, room => Result.within room nodeCalls (anyHoldsWithin snapshot parts room)
  | .unlistable parts, room => Result.within room nodeCalls (.error (Fault.notIterable parts))
  | .leaf test field expected, room => Result.within room nodeCalls <|
    if field.truthy then do
      let actual ← lookUp snapshot field
      Result.within room (testCalls test actual expected) (testHolds test actual expected)
    else .ok false

/-- Do all the parts of a node hold? -/
def allHoldWithin (snapshot : Snapshot) : List Condition → (room : Nat) → Result Bool
  | [], _ => .ok true
  | c :: rest, room => do
    if ← holdsWithin snapshot c (room - partCalls) then allHoldWithin snapshot rest room
    else pure false

/-- Does some part of a node hold? -/
def anyHoldsWithin (snapshot : Snapshot) : List Condition → (room : Nat) → Result Bool
  | [], _ => .ok false
  | c :: rest, room => do
    if ← holdsWithin snapshot c (room - partCalls) then pure true
    else anyHoldsWithin snapshot rest room

end

/-- Does the condition hold of the snapshot? -/
def holds (snapshot : Snapshot) (c : Condition) : Result Bool := holdsWithin snapshot c callRoom

end Condition
end Signoff
