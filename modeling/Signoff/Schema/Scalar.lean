import Signoff.Number.Read
import Signoff.Schema.Check
import Signoff.Text.Kinds

/-! # Scalars and lists of a payload

The kinds of values that fields hold. Texts are taken as they are. Numbers and Booleans may also be
written in other ways: an integer as a text or as a double without a fraction, a Boolean as a word.
-/

namespace Signoff.Schema

/-- Any value. -/
def any (v : Value) : Checked Value := .sound v

/-- Null, or a value that passes the check. -/
def nullable {α : Type} (check : Value → Checked α) (v : Value) : Checked (Option α) :=
  match v with
  | .null => .sound none
  | v => some <$> check v

/-! ## Texts -/

/-- A text. -/
def text (v : Value) : Checked String :=
  match v with
  | .text s => .sound s
  | _ => Checked.problem "Input should be a valid string"

/-- A text that is not empty. -/
def filledText (v : Value) : Checked String :=
  (text v).andThen fun s =>
    Checked.ensure s (0 < s.length) "String should have at least 1 character"

/-- A text of one to `most` characters. -/
def boundedText (most : Nat) (v : Value) : Checked String :=
  (filledText v).andThen fun s =>
    Checked.ensure s (s.length ≤ most)
      ("String should have at most " ++ NumberText.natText most ++ " characters")

/-- An address of the web. -/
def webAddress (v : Value) : Checked String :=
  (text v).andThen fun s =>
    Checked.ensure s (s.startsWith "http://" || s.startsWith "https://")
      "String should match pattern '^https?://'"

/-- A text, where an integer stands for its decimal digits. -/
def columnName (v : Value) : Checked String :=
  match v with
  | .int n => .sound (NumberText.intText n)
  | .bool b => .sound (if b then "True" else "False")
  | v => text v

/-- The words in quotes, with commas and a final "or". -/
def wordList : List String → String
  | [] => ""
  | [w] => "'" ++ w ++ "'"
  | [v, w] => "'" ++ v ++ "' or '" ++ w ++ "'"
  | w :: rest => "'" ++ w ++ "', " ++ wordList rest

/-- One of a table of words. -/
def oneOf {α : Type} (table : List (String × α)) (v : Value) : Checked α :=
  let refused := Checked.problem ("Input should be " ++ wordList (table.map (·.1)))
  match v with
  | .text s =>
    match table.lookup s with
    | some x => .sound x
    | none => refused
  | _ => refused

/-! ## Integers -/

/-- Is the character white space? The separators of information do not count here. -/
def isSpace (c : Char) : Bool := Text.isBlank c && !(0x1c ≤ c.toNat && c.toNat ≤ 0x1f)

/-- The characters without the white space at both ends. -/
def trimSpaces (cs : List Char) : List Char :=
  ((cs.dropWhile isSpace).reverse.dropWhile isSpace).reverse

/-- Digits without needless zeros in front. Underscores among these zeros are passed over, and a zero
stays in front of a point. -/
def dropZeros : List Char → Option (List Char)
  | [] => none
  | '0' :: rest => go '0' rest
  | c :: rest => if c.isDigit then some (c :: rest) else none
where
  /-- Behind a zero or an underscore. -/
  go (last : Char) : List Char → Option (List Char)
    | [] => some [last]
    | c :: rest =>
      if c = '0' ∨ c = '_' then go c rest
      else if c.isDigit then some (c :: rest)
      else if c = '.' then some (last :: c :: rest)
      else none

/-- The text without a point that only zeros follow. -/
def dropZeroFraction (cs : List Char) : List Char :=
  let whole := cs.takeWhile (· != '.')
  if (cs.drop (whole.length + 1)).all (· == '0') then whole else cs

/-- The text without single underscores between other characters. -/
def joinDigits (cs : List Char) : List Char :=
  let doubled := (cs.zip (cs.drop 1)).any fun (a, b) => a == '_' && b == '_'
  if cs.head? = some '_' || cs.getLast? = some '_' || doubled then cs
  else cs.filter (· != '_')

/-- The digits of an integer. -/
def plainInt? (negative : Bool) (cs : List Char) : Option Int :=
  if cs.isEmpty || !cs.all Char.isDigit then none
  else
    let n : Int := NumberText.digitsValue cs
    some (if negative then -n else n)

/-- The integer that a text stands for: white space around it, a sign, needless zeros, single
underscores and a fraction of zeros are passed over. -/
def intOfText? (s : String) : Option Int :=
  let trimmed := trimSpaces s.toList
  let plus := trimmed.head? = some '+'
  let cs := if plus then trimmed.drop 1 else trimmed
  let negative := cs.head? = some '-'
  if plus && negative then none
  else
    let cs := if negative then cs.drop 1 else cs
    (dropZeros cs).bind fun cs => plainInt? negative (joinDigits (dropZeroFraction cs))

/-- The longest text that is read as an integer. -/
def intTextLimit : Nat := 4300

/-- The problem with an integer that has too many digits. -/
def intTooLong : String :=
  "Unable to parse input string as an integer, exceeded maximum size"

/-- An integer. -/
def int (v : Value) : Checked Int :=
  match v with
  | .int n => .sound n
  | .bool b => .sound (if b then 1 else 0)
  | .float x =>
    match Binary.parts? x, Binary.toInt? x with
    | none, _ => Checked.problem "Input should be a finite number"
    | some _, none =>
      Checked.problem "Input should be a valid integer, got a number with a fractional part"
    | some _, some n =>
      if n.natAbs < Nat.pow 2 63 then .sound n else Checked.problem intTooLong
  | .text s =>
    match intOfText? s with
    | some n =>
      if intTextLimit < (Nat.toDigits 10 n.natAbs).length then Checked.problem intTooLong
      else .sound n
    | none =>
      Checked.problem "Input should be a valid integer, unable to parse string as an integer"
  | _ => Checked.problem "Input should be a valid integer"

/-- An integer not below `least`. -/
def intFrom (least : Int) (v : Value) : Checked Int :=
  (int v).andThen fun n =>
    Checked.ensure n (least ≤ n)
      ("Input should be greater than or equal to " ++ NumberText.intText least)

/-! ## Doubles and Booleans -/

/-- The double that a text of ASCII digits stands for. -/
def floatOfText? (s : String) : Option Float :=
  let plain := trimSpaces s.toList
  let joined := joinDigits s.toList
  let read (cs : List Char) : Option Float :=
    if cs.any (fun c => c == '_' || 128 ≤ c.toNat || Text.isBlank c) then none
    else NumberText.readFloat? (String.ofList cs)
  (read plain).orElse fun _ => if joined.length < s.length then read joined else none

/-- A double. -/
def float (v : Value) : Checked Float :=
  match v with
  | .float x => .sound x
  | .int n =>
    match Binary.ofInt? n with
    | some x => .sound x
    | none => Checked.problem "Input should be a valid number"
  | .bool b => .sound (if b then 1.0 else 0.0)
  | .text s =>
    match floatOfText? s with
    | some x => .sound x
    | none => Checked.problem "Input should be a valid number, unable to parse string as a number"
  | _ => Checked.problem "Input should be a valid number"

/-- A double above zero; not-a-number passes. -/
def positiveFloat (v : Value) : Checked Float :=
  (float v).andThen fun x => Checked.ensure x (!(x ≤ 0.0)) "Input should be greater than 0"

/-- The words for true and false. -/
def truthWords : List (String × Bool) :=
  [("0", false), ("1", true), ("t", true), ("f", false), ("true", true), ("false", false),
    ("y", true), ("n", false), ("yes", true), ("no", false), ("on", true), ("off", false)]

/-- A Boolean. -/
def bool (v : Value) : Checked Bool :=
  let unclear := Checked.problem "Input should be a valid boolean, unable to interpret input"
  let refused := Checked.problem "Input should be a valid boolean"
  let ofSmall : Option Int → Checked Bool
    | some 0 => .sound false
    | some 1 => .sound true
    | some n => if n.natAbs < Nat.pow 2 63 then unclear else refused
    | none => refused
  match v with
  | .bool b => .sound b
  | .int n => ofSmall (some n)
  | .float x => ofSmall (Binary.toInt? x)
  | .text s =>
    match truthWords.lookup s.toLower with
    | some b => .sound b
    | none => unclear
  | _ => refused

/-! ## Lists and mappings -/

/-- Checks every item below its position. -/
def itemsFrom {α : Type} (check : Value → Checked α) : Nat → List Value → Checked (List α)
  | _, [] => .sound []
  | n, v :: rest =>
    List.cons <$> (check v).below (NumberText.natText n) <*> itemsFrom check (n + 1) rest

/-- A list whose items pass the check. -/
def list {α : Type} (check : Value → Checked α) (v : Value) : Checked (List α) :=
  match v with
  | .list vs => itemsFrom check 0 vs
  | _ => Checked.problem "Input should be a valid list"

/-- A list with one item at least. -/
def filledList {α : Type} (check : Value → Checked α) (v : Value) : Checked (List α) :=
  (list check v).andThen fun items =>
    Checked.ensure items (!items.isEmpty)
      "List should have at least 1 item after validation, not 0"

/-- A list of texts, where another value stands for a list that holds it alone. -/
def textsOrOne (least : (Value → Checked String) → Value → Checked (List String)) (v : Value) :
    Checked (List String) :=
  match v with
  | .list vs => least text (.list vs)
  | v => least text (.list [v])

/-- An object whose fields are arbitrary. -/
def mapping (v : Value) : Checked Fields :=
  match v with
  | .object fields => .sound fields
  | _ => Checked.problem "Input should be a valid dictionary"

/-- Checks the value of every field below its name. -/
def entries {α : Type} (check : Value → Checked α) : Fields → Checked (List (String × α))
  | [] => .sound []
  | (name, v) :: rest =>
    (fun x xs => (name, x) :: xs) <$> (check v).below name <*> entries check rest

/-- An object whose fields are texts. -/
def textMapping (v : Value) : Checked (List (String × String)) :=
  (mapping v).andThen (entries text)

end Signoff.Schema
