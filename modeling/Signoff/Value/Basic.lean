import Signoff.Number.Binary

/-! # Values

The values of cells, configurations and messages. Integers are unbounded and differ from doubles;
the fields of an object keep the order in which they were written, each name once.

`looseEq` is the equality under which a number equals any number of the same amount and a Boolean
counts as zero or one.
-/

namespace Signoff

/-- A value: null, a Boolean, a number, a text, a list or an object. -/
inductive Value where
  | null
  | bool (b : Bool)
  | int (n : Int)
  | float (x : Float)
  | text (s : String)
  | list (items : List Value)
  | object (fields : List (String × Value))
deriving Inhabited

/-- The fields of an object, in the order they were written. -/
abbrev Fields := List (String × Value)

namespace Fields

/-- The value of a field. -/
def get? (fields : Fields) (name : String) : Option Value := fields.lookup name

/-- The value of a field, null where there is none. -/
def get (fields : Fields) (name : String) : Value := (fields.get? name).getD .null

/-- Has the object a field of this name? -/
def has (fields : Fields) (name : String) : Bool := fields.any (·.1 == name)

/-- Writes a field: in its old place, or at the end if it is new. -/
def set (fields : Fields) (name : String) (value : Value) : Fields :=
  match fields with
  | [] => [(name, value)]
  | (n, v) :: rest => if n = name then (name, value) :: rest else (n, v) :: set rest name value

/-- Writes several fields, one after the other. -/
def setAll (fields more : Fields) : Fields :=
  more.foldl (fun acc field => acc.set field.1 field.2) fields

end Fields

namespace Value

/-- A text, or null. -/
def ofText? : Option String → Value
  | some s => .text s
  | none => .null

/-- An integer, or null. -/
def ofInt? : Option Int → Value
  | some n => .int n
  | none => .null

/-- A list of texts. -/
def ofTexts (texts : List String) : Value := .list (texts.map .text)

/-- Is the value null? -/
def isNull : Value → Bool
  | .null => true
  | _ => false

/-- Does the value count as true? Null, false, zero and everything empty do not. -/
def truthy : Value → Bool
  | .null => false
  | .bool b => b
  | .int n => n ≠ 0
  | .float x => !(x == 0.0)
  | .text s => !s.isEmpty
  | .list items => !items.isEmpty
  | .object fields => !fields.isEmpty

/-- The value itself if it counts as true, otherwise `other`. -/
def orElse (v other : Value) : Value := if v.truthy then v else other

/-- Null, the empty text and the empty list are blank. -/
def isBlank : Value → Bool
  | .null => true
  | .text s => s.isEmpty
  | .list items => items.isEmpty
  | _ => false

/-- Is the value missing: null or the empty text? -/
def isMissing : Value → Bool
  | .null => true
  | .text s => s.isEmpty
  | _ => false

/-- Is the value a number? Booleans are none. -/
def isNumber : Value → Bool
  | .int _ => true
  | .float _ => true
  | _ => false

/-- The integer that a Boolean or an integer counts as. -/
def asInt? : Value → Option Int
  | .bool b => some (if b then 1 else 0)
  | .int n => some n
  | _ => none

/-- Equality of an integer and a double. -/
def intEqFloat (n : Int) (x : Float) : Bool := Binary.compareInt? x n == some .eq

mutual

/-- Equality that counts Booleans as numbers, compares numbers by amount and objects by field. -/
def looseEq : Value → Value → Bool
  | .null, .null => true
  | .text s, .text t => s == t
  | .list xs, .list ys => looseEqList xs ys
  | .object fs, .object gs => fs.length == gs.length && looseEqFields fs gs
  | .float x, .float y => x == y
  | .float x, b => match b.asInt? with
    | some n => intEqFloat n x
    | none => false
  | a, .float y => match a.asInt? with
    | some n => intEqFloat n y
    | none => false
  | a, b => match a.asInt?, b.asInt? with
    | some m, some n => m == n
    | _, _ => false

/-- `looseEq` place by place. -/
def looseEqList : List Value → List Value → Bool
  | [], [] => true
  | x :: xs, y :: ys => looseEq x y && looseEqList xs ys
  | _, _ => false

/-- Has every field its equal among the fields `gs`? -/
def looseEqFields : Fields → Fields → Bool
  | [], _ => true
  | (name, v) :: fs, gs =>
    (match gs.lookup name with
      | some w => looseEq v w
      | none => false) && looseEqFields fs gs

end

mutual

/-- How many calls `looseEq` nests: one for each part that it comes to. Lists and objects of different
lengths are not looked into. -/
def looseEqCalls : Value → Value → Nat
  | .list xs, .list ys => if xs.length = ys.length then looseEqCallsList xs ys else 0
  | .object fs, .object gs => if fs.length = gs.length then looseEqCallsFields fs gs else 0
  | _, _ => 0

/-- For the places of two lists, up to the first one in which they differ. -/
def looseEqCallsList : List Value → List Value → Nat
  | x :: xs, y :: ys =>
    max (1 + looseEqCalls x y) (if looseEq x y then looseEqCallsList xs ys else 0)
  | _, _ => 0

/-- For the fields, up to the first one that has no equal among the fields `gs`. -/
def looseEqCallsFields : Fields → Fields → Nat
  | [], _ => 0
  | (name, v) :: fs, gs =>
    match gs.lookup name with
    | some w => max (1 + looseEqCalls v w) (if looseEq v w then looseEqCallsFields fs gs else 0)
    | none => 0

end

end Value
end Signoff
