import Signoff.Value.Coerce

/-! # Configurations of actions

A configuration is an object that an action takes its fields from. A field that is needed and missing
is a fault, as is a configuration that is no object.
-/

namespace Signoff.ActionConfig

/-- A field that the configuration has to have. -/
def need (config : Value) (name : String) : Result Value :=
  match config with
  | .object fields =>
    match Fields.get? fields name with
    | some v => .ok v
    | none => .error (.noField name)
  | .text _ => .error (.wrongKind "string indices must be integers, not 'str'")
  | .list _ => .error (.wrongKind "list indices must be integers or slices, not str")
  | v => .error (.wrongKind (Text.quoted v.kindName ++ " object is not subscriptable"))

/-- A field that the configuration may have, null where it has none. -/
def may (config : Value) (name : String) : Value :=
  match config with
  | .object fields => Fields.get fields name
  | _ => .null

/-- The values of a field that holds a list or a single value. -/
def several : Value → List Value
  | .list vs => vs
  | v => [v]

/-- An entry written as a pair of a name and a value. -/
def pair (position : Nat) (v : Value) : Result (String × Value) := do
  let parts ← match v with
    | .list _ | .text _ | .object _ => v.items
    | _ => .error (.wrongKind ("cannot convert dictionary update sequence element #"
        ++ NumberText.natText position ++ " to a sequence"))
  match parts with
  | [.text name, value] => .ok (name, value)
  | [name, _] => .error (Fault.unhashable name)
  | _ => .error (.badValue ("dictionary update sequence element #" ++ NumberText.natText position
      ++ " has length " ++ NumberText.natText parts.length ++ "; 2 is required"))

/-- Entries written as pairs, from the given position on. -/
def pairs : Nat → List Value → Result Fields
  | _, [] => .ok []
  | n, v :: rest => do
    let entry ← pair n v
    let others ← pairs (n + 1) rest
    pure (entry :: others)

/-- The fields that a value adds to a body: those of an object, or the entries of a list of pairs. -/
def entries : Value → Result Fields
  | .object fields => .ok fields
  | v => do pairs 0 (← v.items)

/-- The headers that a value stands for. -/
def headers : Value → Result Fields
  | .object fields => .ok fields
  | v =>
    if v.truthy then .error (.wrongKind (Text.quoted v.kindName ++ " object is not a mapping"))
    else .ok []

/-- The method that a value stands for. -/
def method : Value → Result String
  | .text s => .ok s
  | v => if v.truthy then .error (Fault.noAttribute v "upper") else .ok ""

end Signoff.ActionConfig
