import Signoff.Condition.Basic

/-! # Conditions as they are written

A written condition is an object `type`, `field`, `value`, `conditions`. Automations also write
blocks, whose leaves name their test under `operator`.
-/

namespace Signoff.Condition

/-- The condition of a node: `and` and `or` join the parts, any other type is a test. -/
def ofNode (type field value : Value) (parts : Except Value (List Condition)) : Condition :=
  match type, parts with
  | .text "and", .ok cs => .all cs
  | .text "or", .ok cs => .any cs
  | .text "and", .error v => .unlistable v
  | .text "or", .error v => .unlistable v
  | .text word, _ => .leaf (Test.ofWord word) field value
  | _, _ => .leaf .unknown field value

/-- The parts of a junction that are not in a list: nothing counts as no parts, the characters of a
text and the names of an object's fields are malformed nodes, and other values cannot be gone
through. -/
def unlistedParts (v : Value) : Except Value (List Condition) :=
  if !v.truthy then .ok []
  else match v with
    | .text s => .ok (s.toList.map fun _ => .malformed)
    | .object fields => .ok (fields.map fun _ => .malformed)
    | v => .error v

mutual

/-- The condition that a value writes. -/
def ofValue : Value → Condition
  | .null => .absent
  | .object fields =>
    .ofNode (Fields.get fields "type") (Fields.get fields "field") (Fields.get fields "value")
      (ofParts fields)
  | _ => .malformed

/-- The parts under the field `conditions`. -/
def ofParts : List (String × Value) → Except Value (List Condition)
  | [] => .ok []
  | (name, v) :: rest => if name = "conditions" then ofPartsValue v else ofParts rest

/-- The parts that a value lists. -/
def ofPartsValue : Value → Except Value (List Condition)
  | .list vs => .ok (ofValues vs)
  | v => unlistedParts v

/-- The conditions of a list of values. -/
def ofValues : List Value → List Condition
  | [] => []
  | v :: rest => ofValue v :: ofValues rest

end

/-- A leaf of a block: the word under `operator` is its type; without one it is read as a node. -/
def ofBlockLeaf (leaf : Value) : Condition :=
  match leaf with
  | .object fields =>
    let operator := Fields.get fields "operator"
    if operator.isNull then ofValue leaf
    else ofNode operator (Fields.get fields "field") (Fields.get fields "value") (.ok [])
  | v => ofValue v

/-- The condition of a block. A block without leaves holds. -/
def ofBlock (block : Value) : Result Condition := do
  if !block.truthy then return .absent
  match block with
  | .object fields =>
    let leaves := Fields.get fields "conditions"
    if !leaves.truthy then return .absent
    let nodes ← leaves.items
    let type := (Fields.get? fields "type").getD (.text "and")
    return ofNode type .null .null (.ok (nodes.map ofBlockLeaf))
  | _ => return .absent

/-- Does a block hold, if there is room for its calls? -/
def blockHoldsWithin (block : Value) (snapshot : Snapshot) (room : Nat) : Result Bool := do
  (← ofBlock block).holdsWithin snapshot room

/-- Does a block hold? -/
def blockHolds (block : Value) (snapshot : Snapshot) : Result Bool :=
  blockHoldsWithin block snapshot callRoom

/-- Is the value a leaf of a block? -/
def isBlockLeaf : Value → Bool
  | .object fields => Fields.has fields "operator"
  | _ => false

/-- Do the stored conditions of an automation hold? They are a tree, or a block, which a leaf with an
operator gives away. -/
def conditionsHold (conditions : Value) (snapshot : Snapshot) : Result Bool := do
  if !conditions.truthy then return true
  let leaves ← conditions.field "conditions"
  let nodes ← if leaves.truthy then leaves.items else pure []
  if nodes.any isBlockLeaf then blockHolds conditions snapshot
  else (ofValue conditions).holds snapshot

end Signoff.Condition
