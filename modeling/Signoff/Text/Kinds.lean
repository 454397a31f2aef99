/-! # Kinds of characters

A property of characters is a list of inclusive ranges of code points, in ascending order. The white
space is that of Unicode 14, the separator controls `U+001C` to `U+001F` included. Every decimal digit
of Unicode 14 stands in a run of ten, from zero to nine.
-/

namespace Signoff.Text

/-- Does one of the inclusive ranges hold the code point `n`? -/
def inRanges (ranges : List (Nat × Nat)) (n : Nat) : Bool :=
  ranges.any fun range => range.1 ≤ n && n ≤ range.2

/-! ## White space -/

/-- White space, as ranges of code points. -/
def blankRanges : List (Nat × Nat) := [
  (9, 13), (28, 32), (133, 133), (160, 160), (5760, 5760), (8192, 8202), (8232, 8233),
  (8239, 8239), (8287, 8287), (12288, 12288)]

/-- Is the character white space? -/
def isBlank (c : Char) : Bool := inRanges blankRanges c.toNat

/-- The characters without the white space in front and behind. -/
def trimList (cs : List Char) : List Char :=
  ((cs.dropWhile isBlank).reverse.dropWhile isBlank).reverse

/-- The text without the white space in front and behind. -/
def trim (s : String) : String := String.ofList (trimList s.toList)

/-! ## Decimal digits -/

/-- The zeros of the runs of decimal digits. -/
def digitZeros : List Nat := [
  48, 1632, 1776, 1984, 2406, 2534, 2662, 2790, 2918, 3046, 3174,
  3302, 3430, 3558, 3664, 3792, 3872, 4160, 4240, 6112, 6160, 6470,
  6608, 6784, 6800, 6992, 7088, 7232, 7248, 42528, 43216, 43264, 43472,
  43504, 43600, 44016, 65296, 66720, 68912, 69734, 69872, 69942, 70096, 70384,
  70736, 70864, 71248, 71360, 71472, 71904, 72016, 72784, 73040, 73120, 92768,
  92864, 93008, 120782, 120792, 120802, 120812, 120822, 123200, 123632, 125264, 130032]

/-- The value of a decimal digit of any script. -/
def digit? (c : Char) : Option Nat :=
  (digitZeros.find? fun first => first ≤ c.toNat && c.toNat < first + 10).map (c.toNat - ·)

/-- The value of a digit `0` to `9`. -/
def asciiDigit? (c : Char) : Option Nat :=
  if '0' ≤ c ∧ c ≤ '9' then some (c.toNat - '0'.toNat) else none

theorem asciiDigit?_lt {c : Char} {d : Nat} (h : asciiDigit? c = some d) : d < 10 := by
  unfold asciiDigit? at h
  split at h
  next hc =>
    have h9 : c.toNat ≤ 57 := hc.2
    simp only [Option.some.injEq] at h
    subst h
    show c.toNat - 48 < 10
    omega
  next => simp at h

end Signoff.Text
