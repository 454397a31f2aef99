import Signoff.Number.Text
import Signoff.Text.Kinds

/-! # Reading numbers

Decimal literals with an optional sign, fraction and exponent. Digits of every script count, white
space around the number is passed over, and a single underscore may stand between two digits.
-/

namespace Signoff.NumberText

/-- The double nearest to `± digits · 10 ^ exponent`; infinity where it is too large. -/
def ofDecimal (negative : Bool) (digits : Nat) (exponent : Int) : Float :=
  let top := (Decimal.digitCount digits : Int) + exponent
  if digits = 0 ∨ top < -400 then Binary.ofMagnitude negative 0
  else if 400 < top then Binary.infinity negative
  else
    let nearest := if 0 ≤ exponent
      then Binary.nearest? negative (digits * Nat.pow 10 exponent.toNat) 1
      else Binary.nearest? negative digits (Nat.pow 10 (-exponent).toNat)
    nearest.getD (Binary.infinity negative)

/-- Digits of every script become ASCII digits; other characters stay. -/
def asciiDigits (cs : List Char) : List Char :=
  cs.map fun c => match Text.digit? c with
    | some d => Nat.digitChar d
    | none => c

/-- Takes the underscores out of a text; `none` if one does not stand between two digits. `last`
tells whether the character in front is a digit. -/
def dropUnderscores? : Bool → List Char → Option (List Char)
  | _, [] => some []
  | last, '_' :: rest =>
    match rest with
    | d :: _ => if last && d.isDigit then dropUnderscores? false rest else none
    | [] => none
  | _, c :: rest => (dropUnderscores? c.isDigit rest).map (c :: ·)

/-- The value of a list of digits. -/
def digitsValue (cs : List Char) : Nat :=
  cs.foldl (fun n c => 10 * n + (c.toNat - '0'.toNat)) 0

/-- The sign in front of a number, and what follows it. -/
def takeSign : List Char → Bool × List Char
  | '-' :: rest => (true, rest)
  | '+' :: rest => (false, rest)
  | cs => (false, cs)

/-- The exponent behind a mantissa, if the text is one or is empty. -/
def exponentOf? : List Char → Option Int
  | [] => some 0
  | c :: rest =>
    if c = 'e' ∨ c = 'E' then
      let (negative, digits) := takeSign rest
      if digits.isEmpty ∨ digits.length > 4300 ∨ !digits.all Char.isDigit then none
      else
        let n : Int := digitsValue digits
        some (if negative then -n else n)
    else none

/-- An unsigned decimal literal: digits, a point, digits, and an exponent. -/
def unsigned? (negative : Bool) (cs : List Char) : Option Float :=
  let whole := cs.takeWhile Char.isDigit
  let afterWhole := cs.dropWhile Char.isDigit
  let (fraction, tail) : List Char × List Char := match afterWhole with
    | '.' :: rest => (rest.takeWhile Char.isDigit, rest.dropWhile Char.isDigit)
    | _ => ([], afterWhole)
  if whole.isEmpty && fraction.isEmpty then none
  else (exponentOf? tail).map fun exponent =>
    ofDecimal negative (digitsValue (whole ++ fraction)) (exponent - fraction.length)

/-- The names of the values that are no finite numbers, in lower case. -/
def named? (negative : Bool) (cs : List Char) : Option Float :=
  let word := String.ofList (cs.map Char.toLower)
  if word = "inf" ∨ word = "infinity" then some (Binary.infinity negative)
  else if word = "nan" then some Binary.notANumber
  else none

/-- The double that a text stands for. -/
def readFloat? (s : String) : Option Float :=
  (dropUnderscores? false (asciiDigits (Text.trimList s.toList))).bind fun cs =>
    let (negative, rest) := takeSign cs
    (named? negative rest).orElse fun _ => unsigned? negative rest

/-- The integer that a text stands for. -/
def readInt? (s : String) : Option Int :=
  (dropUnderscores? false (asciiDigits (Text.trimList s.toList))).bind fun cs =>
    let (negative, digits) := takeSign cs
    if digits.isEmpty ∨ digits.length > 4300 ∨ !digits.all Char.isDigit then none
    else
      let n : Int := digitsValue digits
      some (if negative then -n else n)

end Signoff.NumberText
