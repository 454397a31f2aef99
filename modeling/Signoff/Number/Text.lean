import Signoff.Number.Shortest

/-! # Numbers as text

How doubles are written: with the fewest digits that read back, with a fixed number of places, or
with a fixed number of significant digits.
-/

namespace Signoff.NumberText

/-- The decimal digits of a natural. -/
def natText (n : Nat) : String := String.ofList (Nat.toDigits 10 n)

/-- An integer in decimal, with a minus sign if it is negative. -/
def intText (n : Int) : String := if n < 0 then "-" ++ natText n.natAbs else natText n.natAbs

/-- Digits padded with zeros in front to at least `width`. -/
def padded (width n : Nat) : String :=
  let digits := Nat.toDigits 10 n
  String.ofList (List.replicate (width - digits.length) '0' ++ digits)

/-- The digits and the position of the point: the value is `0.digits · 10 ^ point`. -/
def positional (digits : List Char) (point : Int) : String :=
  if point ≤ 0 then
    "0." ++ String.ofList (List.replicate (-point).toNat '0' ++ digits)
  else
    let whole := point.toNat
    if digits.length ≤ whole then
      String.ofList (digits ++ List.replicate (whole - digits.length) '0') ++ ".0"
    else String.ofList (digits.take whole) ++ "." ++ String.ofList (digits.drop whole)

/-- The exponent with a sign and at least two digits. -/
def exponentText (e : Int) : String :=
  (if e < 0 then "e-" else "e+") ++ padded 2 e.natAbs

/-- A positional decimal whose first digit stands below `10 ^ top` and not below `10 ^ -4`;
otherwise one digit in front of the point and an exponent. `whole` says whether a lone digit is
followed by `.0` in front of the exponent. -/
def decimalText (top : Int) (whole : Bool) (d : Decimal) : String :=
  let digits := Nat.toDigits 10 d.digits
  let point := (digits.length : Int) + d.exponent
  let exponent := point - 1
  if -4 ≤ exponent ∧ exponent < top then positional digits point
  else
    let fraction := digits.drop 1
    let mantissa := String.ofList (digits.take 1) ++
      (if fraction.isEmpty then (if whole then ".0" else "") else "." ++ String.ofList fraction)
    mantissa ++ exponentText exponent

/-- A double with the fewest digits that read back: positional from `0.0001` to below `10 ^ 16`,
with `.0` behind an integer, otherwise with an exponent. -/
def floatText (x : Float) : String :=
  match Binary.parts? x with
  | none => if x.isNaN then "nan" else if x < 0.0 then "-inf" else "inf"
  | some p =>
    let sign := if p.negative then "-" else ""
    if p.significand = 0 then sign ++ "0.0"
    else sign ++ decimalText 16 false (Decimal.shortest p.significand p.exponent)

/-- The value rounded to `places` decimals, a half of the exact value to the even digit, counted in
units of the last place. -/
def scaledRound (places : Nat) (p : Binary.Parts) : Nat :=
  let (num, den) := p.quotient
  Binary.divRound (num.natAbs * Nat.pow 10 places) den

/-- A double with a fixed number of decimals. -/
def fixedText (places : Nat) (x : Float) : String :=
  match Binary.parts? x with
  | none => if x.isNaN then "nan" else if x < 0.0 then "-inf" else "inf"
  | some p =>
    let units := padded (places + 1) (scaledRound places p)
    let cut := units.length - places
    let digits := units.toList
    (if p.negative then "-" else "") ++ String.ofList (digits.take cut) ++
      (if places = 0 then "" else "." ++ String.ofList (digits.drop cut))

/-- A double rounded to `places` decimals, again as a double. -/
def roundPlaces (places : Nat) (x : Float) : Float :=
  match Binary.parts? x with
  | none => x
  | some p => (Binary.nearest? p.negative (scaledRound places p) (Nat.pow 10 places)).getD x

/-- The positive value rounded to `count` significant digits. -/
def significant (count : Nat) (p : Binary.Parts) : Decimal :=
  let top := Decimal.magnitude p.significand p.exponent
  let s := top - count + 1
  let (up, down) := Decimal.scaleFactors s (-p.exponent)
  Decimal.stripZeros (count + 1) ⟨Binary.divRound (p.significand * down) up, s⟩

/-- How a text column keeps a double: fifteen significant digits; not-a-number is kept as nothing. -/
def columnText? (x : Float) : Option String :=
  match Binary.parts? x with
  | none => if x.isNaN then none else some (if x < 0.0 then "-Inf" else "Inf")
  | some p =>
    if p.significand = 0 then some "0.0"
    else some ((if p.negative then "-" else "") ++ decimalText 15 true (significant 15 p))

end Signoff.NumberText
