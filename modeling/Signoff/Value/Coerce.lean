import Signoff.Calendar.Iso
import Signoff.Fault
import Signoff.Number.Read

/-! # Values as numbers, moments, items and objects -/

namespace Signoff.Value

/-- An integer as a double. -/
def intAsFloat (n : Int) : Result Float :=
  match Binary.ofInt? n with
  | some x => .ok x
  | none => .error Fault.intTooLarge

/-- The number that a value stands for: a number, a Boolean, or a text that reads as one. -/
def number? : Value → Result (Option Float)
  | .bool b => .ok (some (if b then 1.0 else 0.0))
  | .int n => (intAsFloat n).map some
  | .float x => .ok (some x)
  | .text s => .ok (NumberText.readFloat? s)
  | _ => .ok none

/-- The moment that a value denotes; only texts denote one. -/
def moment? : Value → Option Moment
  | .text s => Moment.ofText? s
  | _ => none

/-- The items that a value goes through: the items of a list, the characters of a text, the names of
an object's fields. -/
def items : Value → Result (List Value)
  | .list vs => .ok vs
  | .text s => .ok (s.toList.map fun c => .text (String.singleton c))
  | .object fields => .ok (fields.map fun field => .text field.1)
  | v => .error (Fault.notIterable v)

/-- Can the value be a member of a set? -/
def isHashable : Value → Bool
  | .list _ => false
  | .object _ => false
  | _ => true

/-- A field of a value that has to be an object, null where there is none. -/
def field (v : Value) (name : String) : Result Value :=
  match v with
  | .object fields => .ok (Fields.get fields name)
  | v => .error (Fault.noAttribute v "get")

end Signoff.Value
