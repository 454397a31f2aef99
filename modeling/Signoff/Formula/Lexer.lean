import Signoff.Number.Read
import Signoff.Text.Identifier

/-! # Tokens of formulas

A formula is read in a language of expressions that is larger than arithmetic, so that a construct
which is not supported can be told from a text that is no expression. This module cuts the text into
numbers, names, strings and signs. Line breaks within brackets, comments and joined lines are passed
over.
-/

namespace Signoff.Formula

/-- The kinds of string literals. -/
inductive StringKind where
  | text
  | bytes
  | format
deriving DecidableEq, Repr

/-- The tokens of an expression. -/
inductive Token where
  | int (n : Nat)
  | float (x : Float)
  | imaginary
  | name (s : String)
  | keyword (s : String)
  | string (kind : StringKind)
  | sign (s : String)

/-- The words that are no names. -/
def keywords : List String :=
  ["False", "None", "True", "and", "as", "assert", "async", "await", "break", "class", "continue",
    "def", "del", "elif", "else", "except", "finally", "for", "from", "global", "if", "import", "in",
    "is", "lambda", "nonlocal", "not", "or", "pass", "raise", "return", "try", "while", "with",
    "yield"]

/-- The signs, longer ones first. Those that no expression uses are listed too, since they hide
shorter ones. -/
def signs : List String :=
  ["**=", "//=", ">>=", "<<=", "...", "!=", "->", "**", "//", "<<", ">>", "<=", ">=", "==", ":=",
    "+=", "-=", "*=", "/=", "%=", "@=", "&=", "|=", "^=", "<>", "+", "-", "*", "/", "%", "@", "&",
    "|", "^", "~", "<", ">", "(", ")", "[", "]", "\x7b", "\x7d", ",", ":", ".", ";", "="]

/-- What follows `word` in the text. -/
def afterPrefix? : List Char → List Char → Option (List Char)
  | [], cs => some cs
  | _ :: _, [] => none
  | w :: word, c :: cs => if w = c then afterPrefix? word cs else none

/-- Can the character be part of a word? -/
def isWordChar (c : Char) : Bool := c.isAlphanum || c == '_' || 128 ≤ c.toNat

/-- Digits under `isDigit` with single underscores between them, without the underscores, and the
rest; `none` if an underscore is not followed by a digit. -/
def digitRun? (isDigit : Char → Bool) : List Char → Option (List Char × List Char)
  | [] => some ([], [])
  | '_' :: rest =>
    match rest with
    | d :: _ => if isDigit d then digitRun? isDigit rest else none
    | [] => none
  | c :: rest =>
    if isDigit c then (digitRun? isDigit rest).map fun (ds, after) => (c :: ds, after)
    else some ([], c :: rest)

/-- May the text follow a number? A word may not, unless it begins like one of the keywords that join
expressions. -/
def mayFollowNumber (cs : List Char) : Bool :=
  ["and", "else", "for", "if", "in", "is", "or", "not"].any
      (fun word => (afterPrefix? word.toList cs).isSome)
    || !(cs.head?.any isWordChar)

/-- The value of a digit in bases up to sixteen. -/
def baseDigit? (base : Nat) (c : Char) : Option Nat :=
  let value := if c.isDigit then c.toNat - '0'.toNat
    else if 'a' ≤ c ∧ c ≤ 'f' then c.toNat - 'a'.toNat + 10
    else if 'A' ≤ c ∧ c ≤ 'F' then c.toNat - 'A'.toNat + 10
    else 16
  if value < base then some value else none

/-- An integer in the given base, behind its prefix. -/
def basedInt? (base : Nat) (cs : List Char) : Option (Token × List Char) := do
  let isDigit (c : Char) : Bool := (baseDigit? base c).isSome
  let cs := if cs.head? = some '_' then cs.drop 1 else cs
  if !(cs.head?.any isDigit) then none
  let (digits, rest) ← digitRun? isDigit cs
  if !mayFollowNumber rest || rest.head?.any Char.isDigit then none
  pure (.int (digits.foldl (fun n c => base * n + (baseDigit? base c).getD 0) 0), rest)

/-- An exponent behind a number: nothing if the text has none here, `none` if it is malformed. -/
def exponent? (cs : List Char) : Option (Option Int × List Char) :=
  match cs with
  | e :: rest =>
    if e = 'e' ∨ e = 'E' then
      match rest with
      | s :: d :: _ =>
        if s = '+' ∨ s = '-' then
          if d.isDigit then
            (digitRun? Char.isDigit (rest.drop 1)).map fun (ds, after) =>
              let n : Int := NumberText.digitsValue ds
              (some (if s = '-' then -n else n), after)
          else none
        else plainExponent rest
      | _ => plainExponent rest
    else some (none, cs)
  | [] => some (none, [])
where
  /-- An exponent without a sign. -/
  plainExponent (rest : List Char) : Option (Option Int × List Char) :=
    if rest.head?.any Char.isDigit then
      (digitRun? Char.isDigit rest).map fun (ds, after) =>
        (some (NumberText.digitsValue ds : Int), after)
    else if rest.head? = some '+' ∨ rest.head? = some '-' then none
    else if (afterPrefix? "else".toList cs).isSome then some (none, cs)
    else none

/-- The part of a number behind its whole digits. -/
def numberTail? (whole cs : List Char) : Option (Token × List Char) := do
  let (fraction, afterFraction) ← match cs with
    | '.' :: rest =>
      if rest.head?.any Char.isDigit then
        (digitRun? Char.isDigit rest).map fun (ds, after) => (some ds, after)
      else some (some [], rest)
    | _ => some (none, cs)
  let (exponent, rest) ← exponent? afterFraction
  match rest with
  | j :: after =>
    if j = 'j' ∨ j = 'J' then
      if mayFollowNumber after then some (Token.imaginary, after) else none
    else finish fraction exponent rest
  | [] => finish fraction exponent rest
where
  /-- The token of a number that is not imaginary. A decimal integer has at most 4300 digits, and
  none of them leads with a zero unless all are. -/
  finish (fraction : Option (List Char)) (exponent : Option Int) (rest : List Char) :
      Option (Token × List Char) :=
    if !mayFollowNumber rest then none
    else match fraction, exponent with
      | none, none =>
        if whole.head? = some '0' && whole.any (· != '0') then none
        else if 4300 < (whole.dropWhile (· == '0')).length then none
        else some (.int (NumberText.digitsValue whole), rest)
      | fraction, exponent =>
        let ds := fraction.getD []
        some (.float (NumberText.ofDecimal false (NumberText.digitsValue (whole ++ ds))
          (exponent.getD 0 - ds.length)), rest)

/-- A number in front of the text. -/
def number? (cs : List Char) : Option (Token × List Char) :=
  match cs with
  | '0' :: x :: rest =>
    if x = 'x' ∨ x = 'X' then basedInt? 16 rest
    else if x = 'o' ∨ x = 'O' then basedInt? 8 rest
    else if x = 'b' ∨ x = 'B' then basedInt? 2 rest
    else decimal
  | _ => decimal
where
  /-- A decimal number. -/
  decimal : Option (Token × List Char) := do
    let (whole, rest) ← if cs.head?.any Char.isDigit then digitRun? Char.isDigit cs
      else some ([], cs)
    numberTail? whole rest

/-- Is the escape behind a backslash one that a string may hold? Checks hexadecimal escapes. -/
def escapeFits (kind : StringKind) (cs : List Char) : Bool :=
  let hex (count : Nat) : Bool :=
    (cs.drop 1).length ≥ count && ((cs.drop 1).take count).all fun c => (baseDigit? 16 c).isSome
  match cs.head? with
  | some 'x' => hex 2
  | some 'u' => kind == .bytes || hex 4
  | some 'U' => kind == .bytes || (hex 8 &&
      ((cs.drop 1).take 8).foldl (fun n c => 16 * n + (baseDigit? 16 c).getD 0) 0 < 0x110000)
  | some 'N' => kind == .bytes
  | _ => true

/-- The content of a string up to its end, in reverse in `done`, and what follows. The end is one
quote, or three; a string with one quote keeps to its line. -/
def stringBody? (quote : Char) (long raw : Bool) (kind : StringKind) :
    Nat → List Char → List Char → Option (List Char × List Char)
  | 0, _, _ => none
  | fuel + 1, done, cs =>
    match cs with
    | [] => none
    | '\\' :: rest =>
      match rest with
      | [] => none
      | c :: more =>
        if !raw && !escapeFits kind rest then none
        else if kind = .bytes ∧ 128 ≤ c.toNat then none
        else stringBody? quote long raw kind fuel (c :: '\\' :: done) more
    | c :: rest =>
      if c = quote then
        if !long then some (done.reverse, rest)
        else match rest with
          | q :: r :: more =>
            if q = quote ∧ r = quote then some (done.reverse, more)
            else stringBody? quote long raw kind fuel (c :: done) rest
          | _ => none
      else if c = '\n' ∧ !long then none
      else if kind = .bytes ∧ 128 ≤ c.toNat then none
      else stringBody? quote long raw kind fuel (c :: done) rest

/-- The text of an embedded expression up to its closing brace, a conversion or a format, and what
follows the closing brace. `depth` counts open brackets. -/
def embedded? : Nat → Nat → List Char → List Char → Option (List Char × List Char)
  | 0, _, _, _ => none
  | fuel + 1, depth, done, cs =>
    match cs with
    | [] => none
    | c :: rest =>
      if c = '\x7d' ∧ depth = 0 then some (done.reverse, rest)
      else if c = '(' ∨ c = '[' ∨ c = '\x7b' then embedded? fuel (depth + 1) (c :: done) rest
      else if c = ')' ∨ c = ']' ∨ c = '\x7d' then embedded? fuel (depth - 1) (c :: done) rest
      else if depth = 0 ∧ (c = ':' ∨ (c = '!' ∧ rest.head? ≠ some '=')) then
        match rest.dropWhile (· != '\x7d') with
        | [] => none
        | _ :: after => some (done.reverse, after)
      else embedded? fuel depth (c :: done) rest

/-- The embedded expressions of a format string; doubled braces stand for themselves. -/
def embeddedAll? : Nat → List Char → Option (List (List Char))
  | 0, _ => none
  | fuel + 1, cs =>
    match cs with
    | [] => some []
    | '\x7b' :: '\x7b' :: rest => embeddedAll? fuel rest
    | '\x7d' :: '\x7d' :: rest => embeddedAll? fuel rest
    | '\x7d' :: _ => none
    | '\x7b' :: rest => do
      let (source, after) ← embedded? (rest.length + 1) 0 [] rest
      let more ← embeddedAll? fuel after
      pure (source :: more)
    | _ :: rest => embeddedAll? fuel rest

/-- The kind of string that the letters in front of its quote announce, and whether it is raw. -/
def stringPrefix? (letters : String) : Option (StringKind × Bool) :=
  match letters.toLower with
  | "" => some (.text, false)
  | "u" => some (.text, false)
  | "r" => some (.text, true)
  | "b" => some (.bytes, false)
  | "br" => some (.bytes, true)
  | "rb" => some (.bytes, true)
  | "f" => some (.format, false)
  | "fr" => some (.format, true)
  | "rf" => some (.format, true)
  | _ => none

/-- A string behind its letters: its token, its embedded expressions, and the rest. -/
def string? (letters : String) (cs : List Char) :
    Option (Token × List (List Char) × List Char) := do
  let (kind, raw) ← stringPrefix? letters
  let quote ← cs.head?
  if quote ≠ '\'' ∧ quote ≠ '"' then none
  let long := cs.take 3 == [quote, quote, quote]
  let start := if long then cs.drop 3 else cs.drop 1
  let (body, rest) ← stringBody? quote long raw kind (start.length + 1) [] start
  let sources ← if kind = .format then embeddedAll? (body.length + 1) body else some []
  pure (.string kind, sources, rest)

/-- The closing bracket of an opening one. -/
def closing? : String → Option String
  | "(" => some ")"
  | "[" => some "]"
  | "\x7b" => some "\x7d"
  | _ => none

/-- The tokens of a text, and the sources of the expressions in its format strings. -/
structure Tokens where
  tokens : List Token := []
  embedded : List (List Char) := []

/-- Only comments and blank lines are left. -/
def onlyComments : Nat → List Char → Bool
  | 0, _ => false
  | fuel + 1, cs =>
    match cs with
    | [] => true
    | '#' :: rest => onlyComments fuel (rest.dropWhile (· != '\n'))
    | c :: rest => (c == ' ' || c == '\t' || c == '\n' || c == Char.ofNat 12) && onlyComments fuel rest

/-- Cuts the text into tokens. `open_` holds the closing brackets that are still to come, at most two
hundred. At the top level a line break ends the expression. -/
def cut? : Nat → List String → List Char → Option Tokens
  | 0, _, _ => none
  | fuel + 1, stack, cs =>
    let push (t : Token) (stack : List String) (rest : List Char) : Option Tokens :=
      (cut? fuel stack rest).map fun more => { more with tokens := t :: more.tokens }
    match cs with
    | [] => if stack.isEmpty then some {} else none
    | '\\' :: rest =>
      match rest with
      | '\n' :: c :: more => cut? fuel stack (c :: more)
      | _ => none
    | '#' :: rest => cut? fuel stack (rest.dropWhile (· != '\n'))
    | '\n' :: rest =>
      if stack.isEmpty then (if onlyComments (rest.length + 1) rest then some {} else none)
      else cut? fuel stack rest
    | c :: rest =>
      if c = ' ' ∨ c = '\t' ∨ c.toNat = 12 then cut? fuel stack rest
      else if c.isDigit || (c == '.' && rest.head?.any Char.isDigit) then do
        let (token, after) ← number? cs
        push token stack after
      else if c = '\'' ∨ c = '"' then do
        let (token, sources, after) ← string? "" cs
        let more ← cut? fuel stack after
        pure ⟨token :: more.tokens, sources ++ more.embedded⟩
      else if isWordChar c then
        let word := cs.takeWhile isWordChar
        let after := cs.dropWhile isWordChar
        let text := String.ofList word
        if after.head? = some '\'' ∨ after.head? = some '"' then
          match string? text after with
          | some (token, sources, rest) => do
            let more ← cut? fuel stack rest
            pure ⟨token :: more.tokens, sources ++ more.embedded⟩
          | none => if (stringPrefix? text).isSome then none else pushWord push word text stack after
        else pushWord push word text stack after
      else
        match signs.find? fun s => (afterPrefix? s.toList cs).isSome with
        | none => none
        | some s =>
          let after := cs.drop s.length
          match closing? s with
          | some close => if stack.length < 200 then push (.sign s) (close :: stack) after else none
          | none =>
            if s = ")" ∨ s = "]" ∨ s = "\x7d" then
              match stack with
              | close :: outer => if close = s then push (.sign s) outer after else none
              | [] => none
            else push (.sign s) stack after
where
  /-- A keyword or a name. -/
  pushWord (push : Token → List String → List Char → Option Tokens) (word : List Char)
      (text : String) (stack : List String) (after : List Char) : Option Tokens :=
    if keywords.contains text then push (.keyword text) stack after
    else if Text.isIdentifier word then push (.name text) stack after
    else none

/-- Line ends of every kind become one. -/
def unifyLines : List Char → List Char
  | '\r' :: '\n' :: rest => '\n' :: unifyLines rest
  | '\r' :: rest => '\n' :: unifyLines rest
  | c :: rest => c :: unifyLines rest
  | [] => []

/-- The indentation of a line, and the line behind it. A form feed starts it anew, and of joined lines
the first that is indented counts; `joined` is that indentation so far. -/
def indentation? : Nat → Nat → Nat → List Char → Option (Nat × List Char)
  | 0, _, _, _ => none
  | fuel + 1, column, joined, cs =>
    match cs with
    | '\\' :: '\n' :: c :: rest =>
      indentation? fuel column (if joined = 0 then column else joined) (c :: rest)
    | '\\' :: _ => none
    | c :: rest =>
      if c = ' ' ∨ c = '\t' then indentation? fuel (column + 1) joined rest
      else if c.toNat = 12 then indentation? fuel 0 joined rest
      else some (if joined = 0 then column else joined, cs)
    | [] => some (if joined = 0 then column else joined, cs)

/-- Lines in front of the expression that are blank or hold a comment only are dropped; the
expression itself is not indented. -/
def dropLeadingLines : Nat → List Char → Option (List Char)
  | 0, _ => none
  | fuel + 1, cs => do
    let (column, line) ← indentation? (cs.length + 1) 0 0 cs
    match line with
    | '#' :: rest =>
      match rest.dropWhile (· != '\n') with
      | _ :: more => dropLeadingLines fuel more
      | [] => none
    | '\n' :: rest => dropLeadingLines fuel rest
    | _ => if column = 0 then some line else none

/-- The tokens of a formula. -/
def tokens? (cs : List Char) : Option Tokens := do
  let cs := unifyLines cs
  if cs.any (·.toNat == 0) then none
  let start ← dropLeadingLines (cs.length + 1) cs
  cut? (2 * start.length + 2) [] start

end Signoff.Formula
