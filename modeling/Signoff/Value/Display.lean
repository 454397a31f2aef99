import Signoff.Number.Text
import Signoff.Text.Quoted
import Signoff.Value.Basic

/-! # Values in messages

How a value appears in a message: a text as it is, null as `None`, Booleans as `True` and `False`,
and within lists and objects every text in quotes.
-/

namespace Signoff.Value

mutual

/-- The value with every text in quotes. -/
def quoted : Value → String
  | .null => "None"
  | .bool b => if b then "True" else "False"
  | .int n => NumberText.intText n
  | .float x => NumberText.floatText x
  | .text s => Text.quoted s
  | .list items => "[" ++ ", ".intercalate (quotedItems items) ++ "]"
  | .object fields => "\x7b" ++ ", ".intercalate (quotedFields fields) ++ "\x7d"

/-- Each item with every text in quotes. -/
def quotedItems : List Value → List String
  | [] => []
  | v :: rest => quoted v :: quotedItems rest

/-- Each field with its name and every text in quotes. -/
def quotedFields : List (String × Value) → List String
  | [] => []
  | (name, v) :: rest => (Text.quoted name ++ ": " ++ quoted v) :: quotedFields rest

end

/-- The value as a message shows it. -/
def display : Value → String
  | .text s => s
  | v => quoted v

mutual

/-- How deep lists and objects are nested in one another. -/
def nesting : Value → Nat
  | .list items => nestingOfItems items
  | .object fields => nestingOfFields fields
  | _ => 0

/-- One more than the items are nested, if there are any. -/
def nestingOfItems : List Value → Nat
  | [] => 0
  | v :: rest => max (1 + nesting v) (nestingOfItems rest)

/-- One more than the fields are nested, if there are any. -/
def nestingOfFields : List (String × Value) → Nat
  | [] => 0
  | (_, v) :: rest => max (1 + nesting v) (nestingOfFields rest)

end

/-- The name of the kind of a value. -/
def kindName : Value → String
  | .null => "NoneType"
  | .bool _ => "bool"
  | .int _ => "int"
  | .float _ => "float"
  | .text _ => "str"
  | .list _ => "list"
  | .object _ => "dict"

end Signoff.Value
