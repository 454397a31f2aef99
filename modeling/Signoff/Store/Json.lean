import Signoff.Number.Shortest
import Signoff.Store.Column
import Signoff.Value.Basic

/-! # Columns of JSON

A column of JSON holds the text of a value, but a text that is nothing but digits is taken for a number
and held as one: an integer of 64 bits as it is, any other number as a double, and a double that is an
integer as this integer. Numbers within lists and objects stay as they are, and so do the names of
the values that are no finite numbers.

The double of a decimal is not always the nearest one: it is computed with significands of 64 bits.
-/

namespace Signoff.JsonColumn

/-! ## Numbers with a significand of 64 bits -/

/-- The number `significand · 2 ^ exponent`. -/
structure Wide where
  significand : Nat
  exponent : Int
deriving Repr, DecidableEq

namespace Wide

/-- The quotient of two positive naturals with a significand of 64 bits, a half to the even
neighbour. -/
def ofQuotient (num den : Nat) : Wide :=
  let guess : Int := (num.log2 : Int) - den.log2 - 64
  let scaled (e : Int) : Nat × Nat :=
    if 0 ≤ e then (num, den * Nat.pow 2 e.toNat) else (num * Nat.pow 2 (-e).toNat, den)
  let fits := (scaled guess).1 < (scaled guess).2 * Nat.pow 2 64
  let exponent := if fits then guess else guess + 1
  ⟨Binary.divRound (scaled exponent).1 (scaled exponent).2, exponent⟩

/-- The product. -/
def mul (a b : Wide) : Wide :=
  let product := ofQuotient (a.significand * b.significand) 1
  ⟨product.significand, product.exponent + a.exponent + b.exponent⟩

/-- The quotient. -/
def div (a b : Wide) : Wide :=
  let quotient := ofQuotient a.significand b.significand
  ⟨quotient.significand, quotient.exponent + a.exponent - b.exponent⟩

/-- A power of ten below `10 ^ 512`, by squaring; each step is rounded. -/
def tenTo (e : Nat) : Wide :=
  ((List.range 9).foldl
    (fun (power, square) i => (if e.testBit i then mul power square else power, mul square square))
    ((⟨1, 0⟩, ⟨10, 0⟩) : Wide × Wide)).1

/-- The double nearest to the number, or to its negative. -/
def toFloat (negative : Bool) (w : Wide) : Float :=
  let nearest := if 0 ≤ w.exponent
    then Binary.nearest? negative (w.significand * Nat.pow 2 w.exponent.toNat) 1
    else Binary.nearest? negative w.significand (Nat.pow 2 (-w.exponent).toNat)
  nearest.getD (Binary.infinity negative)

end Wide

/-! ## The double of a decimal -/

/-- Digits are read until they make up this number. -/
def enough : Nat := 922337203685477579

/-- The first digits of a natural; each of the others counts as a zero. -/
def leading (n : Nat) : Decimal :=
  let count := Decimal.digitCount n
  let surplus := if enough ≤ n / Nat.pow 10 (count - 18) then count - 18 else count - 19
  ⟨n / Nat.pow 10 surplus, surplus⟩

/-- The same decimal with an exponent nearer to zero, as far as the digits allow it. -/
def balance : Nat → Decimal → Decimal
  | 0, d => d
  | fuel + 1, d =>
    if 0 < d.exponent ∧ d.digits ≤ enough then balance fuel ⟨10 * d.digits, d.exponent - 1⟩
    else if d.exponent < 0 ∧ d.digits % 10 = 0 then balance fuel ⟨d.digits / 10, d.exponent + 1⟩
    else d

/-- The double of a decimal, or of its negative. Beyond `10 ^ 307` the last step is one of doubles. -/
def ofDecimal (negative : Bool) (d : Decimal) : Float :=
  let d := balance 20 d
  let size := d.exponent.natAbs
  let digits : Wide := ⟨d.digits, 0⟩
  let scaled (e : Nat) : Float :=
    Wide.toFloat negative
      (if d.exponent < 0 then digits.div (Wide.tenTo e) else digits.mul (Wide.tenTo e))
  if d.digits = 0 then Binary.ofMagnitude negative 0
  else if size = 0 then Wide.toFloat negative digits
  else if size ≤ 307 then scaled size
  else if size < 342 then
    if d.exponent < 0 then scaled (size - 308) / 1e308 else scaled (size - 308) * 1e308
  else if d.exponent < 0 then Binary.ofMagnitude negative 0
  else Binary.infinity negative

/-! ## What is kept -/

/-- A double that is an integer of 64 bits, and not the least or the greatest, is kept as the
integer. -/
def keepFloat (x : Float) : Value :=
  match Binary.toInt? x with
  | some n => if -TextColumn.bound < n ∧ n < TextColumn.bound - 1 then .int n else .float x
  | none => .float x

/-- What the column keeps of a value. -/
def keep : Value → Value
  | .int n => if TextColumn.fits n then .int n else keepFloat (ofDecimal (n < 0) (leading n.natAbs))
  | .float x =>
    match Binary.parts? x with
    | some p =>
      if p.significand = 0 then .int 0
      else keepFloat (ofDecimal p.negative (Decimal.shortest p.significand p.exponent))
    | none => .float x
  | v => v

/-- What the column holds after a value was written over another one: a value that equals the one that
is held is not written. -/
def write (held new : Value) : Value := if new.looseEq held then held else keep new

end Signoff.JsonColumn
