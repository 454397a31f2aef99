import Signoff.Condition.Basic

/-! # Checked conditions

The conditions that a configuration may hold. A form keeps everything that was written, also the
parts that its type does not use, so that it can be written back.
-/

namespace Signoff

/-- The types of checked conditions. -/
inductive ConditionType where
  | all
  | any
  | test (t : Test)
deriving DecidableEq, Repr

namespace ConditionType

/-- Every type with its word; the last three are not for rules of a workflow. -/
def table : List (String × ConditionType) :=
  [("equals", .test .equals), ("greater_than", .test .greaterThan), ("less_than", .test .lessThan),
    ("contains", .test .contains), ("in", .test .oneOf), ("and", .all), ("or", .any),
    ("not_equals", .test .notEquals), ("is_empty", .test .isEmpty),
    ("is_not_empty", .test .isNotEmpty)]

/-- The words for the types that rules of a workflow use. -/
def ruleWords : List String := (table.take 7).map (·.1)

/-- The word for a type. -/
def word (type : ConditionType) : String :=
  ((table.find? fun entry => entry.2 == type).map (·.1)).getD ""

/-- Is it a type that only automations use? -/
def isExtended : ConditionType → Bool
  | .test .notEquals => true
  | .test .isEmpty => true
  | .test .isNotEmpty => true
  | _ => false

end ConditionType

/-- A checked condition with everything that was written. -/
inductive ConditionForm where
  | node (type : ConditionType) (field : Option String) (value : Value)
    (parts : Option (List ConditionForm))

instance : Inhabited ConditionForm := ⟨.node .all none .null none⟩

namespace Value

mutual

/-- The value with null in place of every double that is not finite. -/
def finite : Value → Value
  | .float x => if x.isFinite then .float x else .null
  | .list vs => .list (finiteItems vs)
  | .object fields => .object (finiteFields fields)
  | v => v

/-- Every item with null in place of doubles that are not finite. -/
def finiteItems : List Value → List Value
  | [] => []
  | v :: rest => finite v :: finiteItems rest

/-- Every field with null in place of doubles that are not finite. -/
def finiteFields : List (String × Value) → List (String × Value)
  | [] => []
  | (name, v) :: rest => (name, finite v) :: finiteFields rest

end

end Value

namespace ConditionForm

mutual

/-- What the form says of a snapshot. -/
def condition : ConditionForm → Condition
  | .node .all _ _ parts => .all (partsConditions parts)
  | .node .any _ _ parts => .any (partsConditions parts)
  | .node (.test t) field value _ => .leaf t (.ofText? field) value

/-- The conditions of the parts. -/
def partsConditions : Option (List ConditionForm) → List Condition
  | none => []
  | some parts => conditions parts

/-- The condition of each form. -/
def conditions : List ConditionForm → List Condition
  | [] => []
  | form :: rest => condition form :: conditions rest

end

mutual

/-- The form as an object. Nulls are left out. -/
def toValue : ConditionForm → Value
  | .node type field value parts =>
    .object ([("type", .text type.word)]
      ++ (match field with | some f => [("field", .text f)] | none => [])
      ++ (if value.isNull then [] else [("value", value.finite)])
      ++ partsField parts)

/-- The parts as a field. -/
def partsField : Option (List ConditionForm) → List (String × Value)
  | none => []
  | some parts => [("conditions", .list (toValues parts))]

/-- Each form as an object. -/
def toValues : List ConditionForm → List Value
  | [] => []
  | form :: rest => toValue form :: toValues rest

end

mutual

/-- Does the form use a type that only automations use? -/
def usesExtended : ConditionForm → Bool
  | .node type _ _ parts => type.isExtended || partsUseExtended parts

/-- Do the parts use such a type? -/
def partsUseExtended : Option (List ConditionForm) → Bool
  | none => false
  | some parts => someUsesExtended parts

/-- Does one of the forms use such a type? -/
def someUsesExtended : List ConditionForm → Bool
  | [] => false
  | form :: rest => usesExtended form || someUsesExtended rest

end

end ConditionForm
end Signoff
