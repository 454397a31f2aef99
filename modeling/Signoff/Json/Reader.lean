import Signoff.Number.Read
import Signoff.Value.Basic

/-! # Reading JSON

JSON text with the additional numbers `NaN`, `Infinity` and `-Infinity`. A number with a fraction or
an exponent is a double and any other an integer. Of two fields with one name the later value counts,
in the place of the first.

Texts are taken to consist of Unicode scalar values, as everywhere here. A text cannot hold half of a
surrogate pair, so where one stands alone in an escape the replacement character is read.
-/

namespace Signoff.Json

/-- Drops the blanks that JSON knows. -/
def skipBlanks (cs : List Char) : List Char :=
  cs.dropWhile fun c => c = ' ' ∨ c = '\t' ∨ c = '\n' ∨ c = '\r'

/-- The value of a hexadecimal digit. -/
def hexDigit? (c : Char) : Option Nat :=
  if '0' ≤ c ∧ c ≤ '9' then some (c.toNat - '0'.toNat)
  else if 'a' ≤ c ∧ c ≤ 'f' then some (c.toNat - 'a'.toNat + 10)
  else if 'A' ≤ c ∧ c ≤ 'F' then some (c.toNat - 'A'.toNat + 10)
  else none

/-- Four hexadecimal digits and the rest. -/
def readUnit? : List Char → Option (Nat × List Char)
  | a :: b :: c :: d :: rest => do
    let a ← hexDigit? a
    let b ← hexDigit? b
    let c ← hexDigit? c
    let d ← hexDigit? d
    pure (((a * 16 + b) * 16 + c) * 16 + d, rest)
  | _ => none

/-- The character of a simple escape. -/
def simpleEscape? : Char → Option Char
  | '"' => some '"'
  | '\\' => some '\\'
  | '/' => some '/'
  | 'b' => some (Char.ofNat 8)
  | 'f' => some (Char.ofNat 12)
  | 'n' => some '\n'
  | 'r' => some '\r'
  | 't' => some '\t'
  | _ => none

/-- The replacement character. -/
def replacement : Char := Char.ofNat 0xFFFD

/-- The character that starts with the UTF-16 unit `high`, and the rest: a high surrogate takes the
low one that follows. -/
def joinUnits (high : Nat) (rest : List Char) : Char × List Char :=
  if 0xD800 ≤ high ∧ high < 0xDC00 then
    match rest with
    | '\\' :: 'u' :: more =>
      match readUnit? more with
      | some (low, after) =>
        if 0xDC00 ≤ low ∧ low < 0xE000 then
          (Char.ofNat (0x10000 + (high - 0xD800) * 0x400 + (low - 0xDC00)), after)
        else (replacement, rest)
      | none => (replacement, rest)
    | _ => (replacement, rest)
  else if 0xDC00 ≤ high ∧ high < 0xE000 then (replacement, rest)
  else (Char.ofNat high, rest)

/-- The characters of a string up to its closing quote (kept last one first in `done`), and the rest. -/
def readString? : Nat → List Char → List Char → Option (String × List Char)
  | 0, _, _ => none
  | fuel + 1, done, cs =>
    match cs with
    | [] => none
    | '"' :: rest => some (String.ofList done.reverse, rest)
    | '\\' :: 'u' :: rest =>
      match readUnit? rest with
      | some (unit, more) =>
        let (c, after) := joinUnits unit more
        readString? fuel (c :: done) after
      | none => none
    | '\\' :: c :: rest =>
      match simpleEscape? c with
      | some d => readString? fuel (d :: done) rest
      | none => none
    | c :: rest => if c.toNat < 32 then none else readString? fuel (c :: done) rest

/-- A number and the rest. -/
def readNumber? (cs : List Char) : Option (Value × List Char) :=
  let negative := cs.head? == some '-'
  let body := if negative then cs.drop 1 else cs
  let whole := body.takeWhile Char.isDigit
  let afterWhole := body.dropWhile Char.isDigit
  if whole.isEmpty then none
  else if whole.head? == some '0' && 1 < whole.length then
    some (.int 0, body.drop 1)
  else
    let (fraction, afterFraction) : List Char × List Char := match afterWhole with
      | '.' :: rest =>
        let digits := rest.takeWhile Char.isDigit
        if digits.isEmpty then ([], afterWhole) else (digits, rest.dropWhile Char.isDigit)
      | _ => ([], afterWhole)
    let (exponent, rest) : Option Int × List Char := match afterFraction with
      | e :: more =>
        if e = 'e' ∨ e = 'E' then
          let (minus, signed) := NumberText.takeSign more
          let digits := signed.takeWhile Char.isDigit
          if digits.isEmpty then (none, afterFraction)
          else
            let n : Int := NumberText.digitsValue digits
            (some (if minus then -n else n), signed.dropWhile Char.isDigit)
        else (none, afterFraction)
      | [] => (none, [])
    if fraction.isEmpty && exponent.isNone then
      let n : Int := NumberText.digitsValue whole
      some (.int (if negative then -n else n), rest)
    else
      let digits := NumberText.digitsValue (whole ++ fraction)
      some (.float (NumberText.ofDecimal negative digits (exponent.getD 0 - fraction.length)), rest)

/-- The rest of the text behind a word. -/
def afterWord? : List Char → List Char → Option (List Char)
  | [], cs => some cs
  | _ :: _, [] => none
  | w :: word, c :: cs => if w = c then afterWord? word cs else none

/-- A named value and the rest. -/
def readWord? (cs : List Char) : Option (Value × List Char) :=
  [("null", Value.null), ("true", .bool true), ("false", .bool false),
    ("NaN", .float Binary.notANumber), ("Infinity", .float (Binary.infinity false)),
    ("-Infinity", .float (Binary.infinity true))].findSome? fun (word, value) =>
      (afterWord? word.toList cs).map fun rest => (value, rest)

mutual

/-- A value and the rest. Each step reads a character at least, so the length of the text is fuel
enough. -/
def readValue? : Nat → List Char → Option (Value × List Char)
  | 0, _ => none
  | fuel + 1, cs =>
    match cs with
    | '"' :: rest => (readString? (rest.length + 1) [] rest).map fun (s, after) => (.text s, after)
    | '[' :: rest =>
      match skipBlanks rest with
      | ']' :: after => some (.list [], after)
      | items => (readItems? fuel [] items).map fun (vs, after) => (.list vs, after)
    | '\x7b' :: rest =>
      match skipBlanks rest with
      | '\x7d' :: after => some (.object [], after)
      | fields => (readFields? fuel [] fields).map fun (fs, after) => (.object fs, after)
    | _ => (readWord? cs).orElse fun _ => readNumber? cs

/-- The items up to the closing bracket; those already read stand in `done`, last one first. -/
def readItems? : Nat → List Value → List Char → Option (List Value × List Char)
  | 0, _, _ => none
  | fuel + 1, done, cs =>
    match readValue? fuel cs with
    | none => none
    | some (v, after) =>
      match skipBlanks after with
      | ',' :: rest => readItems? fuel (v :: done) (skipBlanks rest)
      | ']' :: rest => some ((v :: done).reverse, rest)
      | _ => none

/-- The fields up to the closing brace. -/
def readFields? : Nat → Fields → List Char → Option (Fields × List Char)
  | 0, _, _ => none
  | fuel + 1, done, cs =>
    match cs with
    | '"' :: rest =>
      match readString? (rest.length + 1) [] rest with
      | none => none
      | some (name, afterName) =>
        match skipBlanks afterName with
        | ':' :: rest =>
          match readValue? fuel (skipBlanks rest) with
          | none => none
          | some (v, after) =>
            match skipBlanks after with
            | ',' :: rest => readFields? fuel (done.set name v) (skipBlanks rest)
            | '\x7d' :: rest => some (done.set name v, rest)
            | _ => none
        | _ => none
    | _ => none

end

/-- The value that a text stands for. -/
def parse? (s : String) : Option Value :=
  let cs := skipBlanks s.toList
  match readValue? (2 * cs.length + 2) cs with
  | some (v, rest) => if (skipBlanks rest).isEmpty then some v else none
  | none => none

end Signoff.Json
