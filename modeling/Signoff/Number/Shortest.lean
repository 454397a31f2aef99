import Signoff.Number.Binary

/-! # The shortest decimal of a double

Every finite double is the nearest double of an interval of reals. The shortest decimal is the one
with the fewest digits in that interval, and of those the nearest to the double.
-/

namespace Signoff

/-- The natural number `digits · 10 ^ exponent`. -/
structure Decimal where
  digits : Nat
  exponent : Int
deriving Repr, DecidableEq

namespace Decimal

/-- Without trailing zeros in the digits; `fuel` bounds their number. -/
def stripZeros : Nat → Decimal → Decimal
  | 0, d => d
  | fuel + 1, d =>
    if d.digits ≠ 0 ∧ d.digits % 10 = 0 then stripZeros fuel ⟨d.digits / 10, d.exponent + 1⟩ else d

/-- Number of digits of a natural, one for zero. -/
def digitCount (n : Nat) : Nat := (Nat.toDigits 10 n).length

/-- `a · 10 ^ s · 2 ^ t` against `b`, as naturals on both sides: the two factors to cross-multiply. -/
def scaleFactors (s t : Int) : Nat × Nat :=
  (Nat.pow 10 s.toNat * Nat.pow 2 t.toNat, Nat.pow 10 (-s).toNat * Nat.pow 2 (-t).toNat)

/-- The largest `p` with `10 ^ p ≤ m · 2 ^ q`, for positive `m`. -/
def magnitude (m : Nat) (q : Int) : Int :=
  let reaches (p : Int) : Bool :=
    let (up, down) := scaleFactors p (-q)
    up ≤ m * down
  let guess := ((m.log2 : Int) + q) * 30103 / 100000
  if reaches (guess + 1) then guess + 1 else if reaches guess then guess else guess - 1

/-- A grid point `d · 10 ^ s` beside the double `m · 2 ^ q`: the multiple of `2 ^ (q - 2) / down` that
`d` grid steps make is `d · up`. -/
def roundsBack (low high : Nat) (ends : Bool) (s q : Int) (d : Nat) : Bool :=
  let (up, down) := scaleFactors s (2 - q)
  let point := d * up
  if ends then low * down ≤ point && point ≤ high * down
  else low * down < point && point < high * down

/-- The decimal with `count` digits nearest to `m · 2 ^ q` among those in its interval. -/
def withDigits? (m : Nat) (q : Int) (p : Int) (count : Nat) : Option Decimal :=
  let s := p - count + 1
  let low := if m = Nat.pow 2 52 ∧ -1074 < q then 4 * m - 1 else 4 * m - 2
  let ends := m % 2 = 0
  let (up, down) := scaleFactors s (-q)
  let below := m * down / up
  let rest := m * down % up
  let back := roundsBack low (4 * m + 2) ends s q
  let nearer := if 2 * rest < up then below
    else if up < 2 * rest then below + 1
    else if below % 2 = 0 then below else below + 1
  let other := if nearer = below then below + 1 else below
  if back nearer then some ⟨nearer, s⟩
  else if back other then some ⟨other, s⟩
  else none

/-- The shortest decimal of the positive double `m · 2 ^ q`. Seventeen digits are always enough. -/
def shortest (m : Nat) (q : Int) : Decimal :=
  let p := magnitude m q
  let found := (List.range 17).findSome? fun k => withDigits? m q p (k + 1)
  stripZeros 20 (found.getD ⟨m, q⟩)

end Decimal
end Signoff
