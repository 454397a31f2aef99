import Signoff.Text.Case.Table
import Signoff.Text.Kinds

/-! # Lower and upper case

Full case mapping: one letter may become several, and a capital sigma at the end of a word
becomes a final sigma.
-/

namespace Signoff.Text

/-- The image of a code point under the first run that holds it. -/
def mapRun? (runs : List (Nat × Nat × Nat × Nat)) (n : Nat) : Option Nat :=
  (runs.find? fun (first, last, step, _) => first ≤ n && n ≤ last && (n - first) % step == 0).map
    fun (first, _, _, target) => target + (n - first)

/-- The full mapping of one character. -/
def mapCase (runs : List (Nat × Nat × Nat × Nat)) (special : List (Nat × List Nat)) (c : Char) :
    List Char :=
  match special.lookup c.toNat with
  | some image => image.map Char.ofNat
  | none => match mapRun? runs c.toNat with
    | some image => [Char.ofNat image]
    | none => [c]

/-- Is the character a letter with case? -/
def isCased (c : Char) : Bool := inRanges casedRanges c.toNat

/-- Is the character passed over when the neighbours of a letter are looked at? -/
def isCaseIgnorable (c : Char) : Bool := inRanges caseIgnorableRanges c.toNat

/-- Is the nearest character that counts a cased one? -/
def meetsCased (cs : List Char) : Bool :=
  match cs.dropWhile isCaseIgnorable with
  | [] => false
  | c :: _ => isCased c

/-- The capital sigma, the one letter whose lower case depends on its neighbours. -/
def capitalSigma : Char := Char.ofNat 0x3A3

/-- Lower case of the characters in front of which `before` was read (last one first). -/
def lowerFrom (before : List Char) : List Char → List Char
  | [] => []
  | c :: rest =>
    let image :=
      if c = capitalSigma then
        [Char.ofNat (if meetsCased before && !meetsCased rest then 0x3C2 else 0x3C3)]
      else mapCase lowerRuns lowerSpecial c
    image ++ lowerFrom (c :: before) rest

/-- The text in lower case. -/
def lower (s : String) : String := String.ofList (lowerFrom [] s.toList)

/-- The text in upper case. -/
def upper (s : String) : String :=
  String.ofList (s.toList.flatMap (mapCase upperRuns upperSpecial))

end Signoff.Text
