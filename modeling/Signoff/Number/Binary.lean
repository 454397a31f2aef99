/-! # Doubles as exact numbers

A finite double is `± m · 2 ^ q` with naturals `m` and integers `q`. This module takes a double
apart, finds the double nearest to a quotient of naturals, and gives the exact conversions and
comparisons between doubles and integers.
-/

namespace Signoff.Binary

/-- The value `± significand · 2 ^ exponent` of a finite double. -/
structure Parts where
  negative : Bool
  significand : Nat
  exponent : Int
deriving Repr, DecidableEq

/-- The exact value of a double; `none` for the infinities and for not-a-number. -/
def parts? (x : Float) : Option Parts :=
  let bits := x.toBits.toNat
  let field : Nat := bits / Nat.pow 2 52 % 2048
  let fraction : Nat := bits % Nat.pow 2 52
  let negative := bits / Nat.pow 2 63 == 1
  if field = 2047 then none
  else if field = 0 then some ⟨negative, fraction, -1074⟩
  else some ⟨negative, Nat.pow 2 52 + fraction, (field : Int) - 1075⟩

/-- The quotient rounded to the nearest natural, a half to the even neighbour. -/
def divRound (num den : Nat) : Nat :=
  let floor := num / den
  let twice := 2 * (num % den)
  if twice < den then floor
  else if den < twice then floor + 1
  else if floor % 2 = 0 then floor else floor + 1

/-- Positive infinity, or its negative. -/
def infinity (negative : Bool) : Float :=
  Float.ofBits (if negative then 0xFFF0000000000000 else 0x7FF0000000000000)

/-- Not-a-number. -/
def notANumber : Float := Float.ofBits 0x7FF8000000000000

/-- The double with the given sign and magnitude bits. -/
def ofMagnitude (negative : Bool) (bits : Nat) : Float :=
  Float.ofBits (UInt64.ofNat (if negative then Nat.pow 2 63 + bits else bits))

/-- The double nearest to `± num / den`, ties to even; `none` where that exceeds every finite
double. The quotient is scaled by a power of two to 53 bits, or to the subnormal grid. -/
def nearest? (negative : Bool) (num den : Nat) : Option Float :=
  if num = 0 ∨ den = 0 then some (ofMagnitude negative 0) else
  let guess : Int := (num.log2 : Int) - den.log2 - 53
  let scaled (e : Int) : Nat × Nat :=
    if 0 ≤ e then (num, den * Nat.pow 2 e.toNat) else (num * Nat.pow 2 (-e).toNat, den)
  let fits := (scaled guess).1 < (scaled guess).2 * Nat.pow 2 53
  let exponent := max (if fits then guess else guess + 1) (-1074)
  let significand := divRound (scaled exponent).1 (scaled exponent).2
  let bits := if significand < Nat.pow 2 52 then significand
    else (exponent + 1075).toNat * Nat.pow 2 52 + significand - Nat.pow 2 52
  if bits < 2047 * Nat.pow 2 52 then some (ofMagnitude negative bits) else none

/-- The double nearest to an integer; `none` where it is too large. -/
def ofInt? (n : Int) : Option Float := nearest? (n < 0) n.natAbs 1

/-- The double nearest to the quotient of two integers, the divisor not being zero. -/
def ofQuotient? (a b : Int) : Option Float :=
  nearest? ((a < 0) != (b < 0)) a.natAbs b.natAbs

/-- A finite value as a quotient: numerator with sign, and a positive denominator. -/
def Parts.quotient (p : Parts) : Int × Nat :=
  let sign : Int := if p.negative then -1 else 1
  if 0 ≤ p.exponent then (sign * (p.significand * Nat.pow 2 p.exponent.toNat : Nat), 1)
  else (sign * p.significand, Nat.pow 2 (-p.exponent).toNat)

/-- The part of a finite double in front of the point. -/
def truncate? (x : Float) : Option Int :=
  (parts? x).map fun p => let (num, den) := p.quotient; num.tdiv den

/-- The integer that a double is, if it is one. -/
def toInt? (x : Float) : Option Int :=
  (parts? x).bind fun p =>
    let (num, den) := p.quotient
    if num.tmod den = 0 then some (num.tdiv den) else none

/-- Order of a double and an integer, exactly; `none` for not-a-number. -/
def compareInt? (x : Float) (n : Int) : Option Ordering :=
  match parts? x with
  | some p => let (num, den) := p.quotient; some (compare num (n * den))
  | none => if x.isNaN then none else some (if x < 0.0 then .lt else .gt)

/-- The double rounded to an integer, a half to the even one. -/
def roundInt? (x : Float) : Option Int :=
  (parts? x).map fun p =>
    let (num, den) := p.quotient
    let magnitude : Int := divRound num.natAbs den
    if num < 0 then -magnitude else magnitude

end Signoff.Binary
