import Signoff.Text.Printable

/-! # Quoted text

A text between quotes: single ones, or double ones when the text has a single quote and no double
one. The backslash, the quote and the characters that do not show are escaped.
-/

namespace Signoff.Text

/-- `n` in base sixteen with at least `width` digits. -/
def hexText (width n : Nat) : List Char :=
  let digits := Nat.toDigits 16 n
  List.replicate (width - digits.length) '0' ++ digits

/-- One character between quotes of the given kind. -/
def quoteChar (quote c : Char) : List Char :=
  if c = quote ∨ c = '\\' then ['\\', c]
  else if c = '\n' then ['\\', 'n']
  else if c = '\r' then ['\\', 'r']
  else if c = '\t' then ['\\', 't']
  else if isPrintable c then [c]
  else if c.toNat < 0x100 then '\\' :: 'x' :: hexText 2 c.toNat
  else if c.toNat < 0x10000 then '\\' :: 'u' :: hexText 4 c.toNat
  else '\\' :: 'U' :: hexText 8 c.toNat

/-- The quote that a text is written with. -/
def quoteFor (cs : List Char) : Char :=
  if cs.contains '\'' && !cs.contains '"' then '"' else '\''

/-- The text in quotes. -/
def quoted (s : String) : String :=
  let quote := quoteFor s.toList
  String.ofList (quote :: s.toList.flatMap (quoteChar quote) ++ [quote])

/-- Does `cs` begin with `start`? -/
def startsWithList : List Char → List Char → Bool
  | [], _ => true
  | _ :: _, [] => false
  | a :: start, b :: cs => a == b && startsWithList start cs

/-- Does `part` occur in the list? -/
def containsList (part : List Char) : List Char → Bool
  | [] => part.isEmpty
  | c :: cs => startsWithList part (c :: cs) || containsList part cs

/-- Does `part` occur in the text `whole`? -/
def contains (whole part : String) : Bool := containsList part.toList whole.toList

end Signoff.Text
