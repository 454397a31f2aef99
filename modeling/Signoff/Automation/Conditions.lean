import Signoff.Condition.Written
import Signoff.Trigger.Schema
import Signoff.Workflow.Schema

/-! # Conditions of automations

An automation may write its conditions as a block or as a tree. Both are kept as a tree: the leaves
of a block become tests, and a block without leaves is no condition at all.
-/

namespace Signoff

/-- A leaf of a block. -/
structure BlockLeaf where
  field : String
  comparison : Comparison
  value : Value

namespace BlockLeaf

/-- Reads a leaf. -/
def read : Value → Checked BlockLeaf :=
  Schema.object "BlockLeaf" [.word "field", .word "operator", .word "value"] fun fields =>
    BlockLeaf.mk <$> Schema.required fields (.word "field") Schema.filledText
      <*> Schema.required fields (.word "operator") (Schema.oneOf Comparison.table)
      <*> Schema.optional fields (.word "value") .null Schema.any

/-- The leaf as a test of a tree. -/
def toValue (leaf : BlockLeaf) : Value :=
  .object [("type", .text leaf.comparison.word), ("field", .text leaf.field), ("value", leaf.value)]

end BlockLeaf

namespace AutomationConditions

/-- Does every leaf name its test under `operator`? -/
def areBlockLeaves (leaves : List Value) : Bool := leaves.all Condition.isBlockLeaf

/-- Reads a block; without leaves it is null. -/
def readBlock (v : Value) : Checked Value :=
  (fun (type, leaves) =>
      if leaves.isEmpty then Value.null
      else .object [("type", .text type), ("conditions", .list (leaves.map BlockLeaf.toValue))])
    <$> Schema.object "ConditionBlock" [.word "type", .word "conditions"] (fun fields =>
      Prod.mk
        <$> Schema.required fields (.word "type") (Schema.oneOf [("and", "and"), ("or", "or")])
        <*> Schema.optional fields (.word "conditions") [] (Schema.list BlockLeaf.read)) v

/-- Is the object a block? What it lists has to be gone through for that. -/
def isBlock (fields : Fields) : Result Bool :=
  match fields.get "type" with
  | .text "and" => leavesDecide
  | .text "or" => leavesDecide
  | _ => .ok false
where
  leavesDecide : Result Bool :=
    let leaves := fields.get "conditions"
    if leaves.truthy then leaves.items.map areBlockLeaves else .ok true

/-- The tree that written conditions stand for. -/
def read (v : Value) : Checked Value :=
  match v with
  | .object fields =>
    match isBlock fields with
    | .error fault => .stuck fault
    | .ok true => readBlock v
    | .ok false => ConditionForm.toValue <$> ConditionForm.read v
  | .null => .sound .null
  | _ => .stuck (.badValue "conditions must be an object")

/-- The tree that written conditions stand for, null if there are none. -/
def normalize (v : Value) : Result Value := (read v).toBareResult

end AutomationConditions
end Signoff
