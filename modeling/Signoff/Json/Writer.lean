import Signoff.Number.Text
import Signoff.Text.Quoted
import Signoff.Value.Basic

/-! # Canonical JSON

One text for every value: fields in the order of their names, every character outside ASCII as an
escape of its UTF-16 units, a blank behind each comma and colon, and doubles with the fewest digits
that read back.
-/

namespace Signoff.Json

/-- The escape of one UTF-16 unit. -/
def unitEscape (n : Nat) : List Char := '\\' :: 'u' :: Text.hexText 4 n

/-- One character of a JSON string. -/
def escapeChar (c : Char) : List Char :=
  if c = '"' then ['\\', '"']
  else if c = '\\' then ['\\', '\\']
  else if c = '\n' then ['\\', 'n']
  else if c = '\r' then ['\\', 'r']
  else if c = '\t' then ['\\', 't']
  else if c.toNat = 8 then ['\\', 'b']
  else if c.toNat = 12 then ['\\', 'f']
  else if 32 ≤ c.toNat ∧ c.toNat < 127 then [c]
  else if c.toNat < 0x10000 then unitEscape c.toNat
  else
    let n := c.toNat - 0x10000
    unitEscape (0xD800 + n / 0x400) ++ unitEscape (0xDC00 + n % 0x400)

/-- A text as a JSON string. -/
def stringText (s : String) : String :=
  String.ofList ('"' :: s.toList.flatMap escapeChar ++ ['"'])

/-- A double as a JSON number; the values that are no finite numbers have names. -/
def floatText (x : Float) : String :=
  if x.isNaN then "NaN"
  else if x.isInf then (if x < 0.0 then "-Infinity" else "Infinity")
  else NumberText.floatText x

/-- The fields in the order of their names. -/
def sortFields {α : Type} (fields : List (String × α)) : List (String × α) :=
  fields.mergeSort fun a b => decide (a.1 ≤ b.1)

mutual

/-- The canonical text of a value. -/
def canonical : Value → String
  | .null => "null"
  | .bool b => if b then "true" else "false"
  | .int n => NumberText.intText n
  | .float x => floatText x
  | .text s => stringText s
  | .list items => "[" ++ ", ".intercalate (canonicalItems items) ++ "]"
  | .object fields =>
    let written := (sortFields (canonicalFields fields)).map fun field =>
      stringText field.1 ++ ": " ++ field.2
    "\x7b" ++ ", ".intercalate written ++ "\x7d"

/-- The canonical text of each item. -/
def canonicalItems : List Value → List String
  | [] => []
  | v :: rest => canonical v :: canonicalItems rest

/-- The name and the canonical text of each field. -/
def canonicalFields : List (String × Value) → List (String × String)
  | [] => []
  | (name, v) :: rest => (name, canonical v) :: canonicalFields rest

end

end Signoff.Json
