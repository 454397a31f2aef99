import Signoff.Formula.Expr
import Signoff.Formula.Lexer

/-! # The grammar of formulas

Tokens are read as one expression of the full language. Arithmetic keeps its structure; every other
construct becomes a `foreign` element under the name of its kind. A text that is no expression of
the language is refused.

Every function takes fuel that each call lowers by one; `Expr.parse?` supplies more than the number
of tokens can use.
-/

namespace Signoff.Formula

/-- Is the first token the given sign? -/
def atSign (s : String) : List Token → Bool
  | .sign t :: _ => t == s
  | _ => false

/-- Is the first token the given keyword? -/
def atKeyword (s : String) : List Token → Bool
  | .keyword t :: _ => t == s
  | _ => false

/-- Takes a sign. -/
def sign? (s : String) (ts : List Token) : Option (List Token) :=
  if atSign s ts then some (ts.drop 1) else none

/-- Takes a keyword. -/
def keyword? (s : String) (ts : List Token) : Option (List Token) :=
  if atKeyword s ts then some (ts.drop 1) else none

/-- The binary operators by level, loosest first. -/
def levels : List (List String) :=
  [["|"], ["^"], ["&"], ["<<", ">>"], ["+", "-"], ["*", "/", "//", "%", "@"]]

/-- Two operands under an operator; only the four of arithmetic are supported. -/
def joined (op : String) (l r : Expr) : Expr :=
  match op with
  | "+" => .binary .add l r
  | "-" => .binary .sub l r
  | "*" => .binary .mul l r
  | "/" => .binary .div l r
  | _ => .foreign "BinOp"

/-- A comparison operator in front of the tokens. -/
def comparison? : List Token → Option (List Token)
  | .sign s :: rest =>
    if ["==", "!=", "<", "<=", ">", ">="].contains s then some rest else none
  | .keyword "in" :: rest => some rest
  | .keyword "not" :: .keyword "in" :: rest => some rest
  | .keyword "is" :: .keyword "not" :: rest => some rest
  | .keyword "is" :: rest => some rest
  | _ => none

/-- The strings in front of the tokens, which form one literal. -/
def strings : List Token → List StringKind × List Token
  | .string kind :: rest => let (kinds, after) := strings rest; (kind :: kinds, after)
  | ts => ([], ts)

/-- Do the tokens begin a clause of a comprehension? -/
def atFor : List Token → Bool
  | .keyword "for" :: _ => true
  | .keyword "async" :: .keyword "for" :: _ => true
  | _ => false

/-- What an item of a call, a display or a subscript is. -/
inductive ItemKind where
  | plain
  | named
  | starred
  | generator
  | keyed
  | spread
deriving DecidableEq

/-- May an argument of the given kind follow those before it? `keyed` and `spread` tell whether a
keyword argument and a spread mapping came before. -/
def mayFollow (seenKeyed seenSpread : Bool) : ItemKind → Bool
  | .plain => !seenKeyed && !seenSpread
  | .named => !seenKeyed && !seenSpread
  | .starred => !seenSpread
  | .generator => false
  | .keyed => true
  | .spread => true

/-- What the parameters of an anonymous function have had so far. -/
structure Parameters where
  count : Nat := 0
  slash : Bool := false
  star : Bool := false
  bareStar : Bool := false
  default : Bool := false

mutual

/-- An expression: a choice, or an anonymous function. -/
def expression? : Nat → List Token → Option (Expr × List Token)
  | 0, _ => none
  | fuel + 1, ts =>
    match ts with
    | .keyword "lambda" :: rest => do
      let after ← parameters? fuel {} rest
      let (_, ts) ← expression? fuel after
      pure (.foreign "Lambda", ts)
    | _ => do
      let (e, ts) ← disjunction? fuel ts
      if atKeyword "if" ts then
        let (_, ts) ← disjunction? fuel (ts.drop 1)
        let ts ← keyword? "else" ts
        let (_, ts) ← expression? fuel ts
        pure (.foreign "IfExp", ts)
      else pure (e, ts)

/-- The parameters of an anonymous function, up to and with the colon. -/
def parameters? : Nat → Parameters → List Token → Option (List Token)
  | 0, _, _ => none
  | fuel + 1, seen, ts =>
    match ts with
    | .sign ":" :: rest => if seen.bareStar then none else some rest
    | .sign "/" :: rest =>
      if seen.slash || seen.star || seen.count = 0 then none
      else nextParameter? fuel { seen with slash := true } rest
    | .sign "**" :: .name _ :: rest =>
      if seen.bareStar then none
      else match rest with
        | .sign ":" :: after => some after
        | .sign "," :: .sign ":" :: after => some after
        | _ => none
    | .sign "*" :: .name _ :: rest =>
      if seen.star then none else nextParameter? fuel { seen with star := true } rest
    | .sign "*" :: .sign "," :: rest =>
      if seen.star then none
      else parameters? fuel { seen with star := true, bareStar := true } rest
    | .name _ :: .sign "=" :: rest => do
      let (_, ts) ← expression? fuel rest
      nextParameter? fuel
        { seen with count := seen.count + 1, default := true, bareStar := false } ts
    | .name _ :: rest =>
      if seen.default && !seen.star then none
      else nextParameter? fuel { seen with count := seen.count + 1, bareStar := false } rest
    | _ => none

/-- Behind a parameter: a comma and more of them, or the colon. -/
def nextParameter? : Nat → Parameters → List Token → Option (List Token)
  | 0, _, _ => none
  | fuel + 1, seen, ts =>
    match ts with
    | .sign ":" :: rest => some rest
    | .sign "," :: rest => parameters? fuel seen rest
    | _ => none

/-- Operands of `or`. -/
def disjunction? : Nat → List Token → Option (Expr × List Token)
  | 0, _ => none
  | fuel + 1, ts => do
    let (e, ts) ← conjunction? fuel ts
    if atKeyword "or" ts then
      let (_, ts) ← disjunction? fuel (ts.drop 1)
      pure (.foreign "BoolOp", ts)
    else pure (e, ts)

/-- Operands of `and`. -/
def conjunction? : Nat → List Token → Option (Expr × List Token)
  | 0, _ => none
  | fuel + 1, ts => do
    let (e, ts) ← inversion? fuel ts
    if atKeyword "and" ts then
      let (_, ts) ← conjunction? fuel (ts.drop 1)
      pure (.foreign "BoolOp", ts)
    else pure (e, ts)

/-- An operand of `not`, or a comparison. -/
def inversion? : Nat → List Token → Option (Expr × List Token)
  | 0, _ => none
  | fuel + 1, ts =>
    if atKeyword "not" ts then do
      let (_, ts) ← inversion? fuel (ts.drop 1)
      pure (.foreign "UnaryOp", ts)
    else do
      let (e, ts) ← binary? fuel levels ts
      comparisons? fuel e ts

/-- The comparisons behind an operand. -/
def comparisons? : Nat → Expr → List Token → Option (Expr × List Token)
  | 0, _, _ => none
  | fuel + 1, e, ts =>
    match comparison? ts with
    | none => some (e, ts)
    | some rest => do
      let (_, ts) ← binary? fuel levels rest
      comparisons? fuel (.foreign "Compare") ts

/-- Operands joined by the operators of the given levels. -/
def binary? : Nat → List (List String) → List Token → Option (Expr × List Token)
  | 0, _, _ => none
  | fuel + 1, [], ts => factor? fuel ts
  | fuel + 1, ops :: tighter, ts => do
    let (e, ts) ← binary? fuel tighter ts
    operands? fuel ops tighter e ts

/-- The operators of one level behind a left operand; they group to the left. -/
def operands? : Nat → List String → List (List String) → Expr → List Token →
    Option (Expr × List Token)
  | 0, _, _, _, _ => none
  | fuel + 1, ops, tighter, l, ts =>
    match ts with
    | .sign s :: rest =>
      if ops.contains s then do
        let (r, ts) ← binary? fuel tighter rest
        operands? fuel ops tighter (joined s l r) ts
      else some (l, ts)
    | _ => some (l, ts)

/-- An operand with signs in front, or a power. -/
def factor? : Nat → List Token → Option (Expr × List Token)
  | 0, _ => none
  | fuel + 1, ts =>
    match ts with
    | .sign "+" :: rest => (factor? fuel rest).map fun (e, ts) => (.signed .plus e, ts)
    | .sign "-" :: rest => (factor? fuel rest).map fun (e, ts) => (.signed .minus e, ts)
    | .sign "~" :: rest => (factor? fuel rest).map fun (_, ts) => (.foreign "UnaryOp", ts)
    | _ => do
      let (e, ts) ← match ts with
        | .keyword "await" :: rest =>
          (primary? fuel rest).map fun (_, ts) => (Expr.foreign "Await", ts)
        | _ => primary? fuel ts
      if atSign "**" ts then
        let (_, ts) ← factor? fuel (ts.drop 1)
        pure (.foreign "BinOp", ts)
      else pure (e, ts)

/-- An atom with its attributes, calls and subscripts. -/
def primary? : Nat → List Token → Option (Expr × List Token)
  | 0, _ => none
  | fuel + 1, ts => do
    let (e, ts) ← atom? fuel ts
    trailers? fuel e ts

/-- Attributes, calls and subscripts behind an expression. -/
def trailers? : Nat → Expr → List Token → Option (Expr × List Token)
  | 0, _, _ => none
  | fuel + 1, e, ts =>
    match ts with
    | .sign "." :: .name _ :: rest => trailers? fuel (.foreign "Attribute") rest
    | .sign "." :: _ => none
    | .sign "(" :: rest => do
      let ts ← arguments? fuel true false false rest
      trailers? fuel (.foreign "Call") ts
    | .sign "[" :: rest => do
      let ts ← slices? fuel rest
      trailers? fuel (.foreign "Subscript") ts
    | _ => some (e, ts)

/-- The arguments of a call up to and with the closing bracket. -/
def arguments? : Nat → Bool → Bool → Bool → List Token → Option (List Token)
  | 0, _, _, _, _ => none
  | fuel + 1, first, keyed, spread, ts =>
    if atSign ")" ts then some (ts.drop 1)
    else do
      let (kind, ts) ← argument? fuel ts
      if kind = .generator then
        (if first then sign? ")" ts else none)
      else if !mayFollow keyed spread kind then none
      else
        let keyed := keyed || kind = .keyed
        let spread := spread || kind = .spread
        match ts with
        | .sign ")" :: rest => some rest
        | .sign "," :: rest => arguments? fuel false keyed spread rest
        | _ => none

/-- One argument. -/
def argument? : Nat → List Token → Option (ItemKind × List Token)
  | 0, _ => none
  | fuel + 1, ts =>
    match ts with
    | .sign "*" :: rest => (expression? fuel rest).map fun (_, ts) => (.starred, ts)
    | .sign "**" :: rest => (expression? fuel rest).map fun (_, ts) => (.spread, ts)
    | .name _ :: .sign "=" :: rest => (expression? fuel rest).map fun (_, ts) => (.keyed, ts)
    | _ => do
      let (_, kind, ts) ← named? fuel ts
      if atFor ts then (clauses? fuel ts).map fun ts => (.generator, ts)
      else pure (kind, ts)

/-- An expression, or a name that takes its value. -/
def named? : Nat → List Token → Option (Expr × ItemKind × List Token)
  | 0, _ => none
  | fuel + 1, ts =>
    match ts with
    | .name _ :: .sign ":=" :: rest =>
      (expression? fuel rest).map fun (_, ts) => (.foreign "NamedExpr", .named, ts)
    | _ => (expression? fuel ts).map fun (e, ts) => (e, .plain, ts)

/-- The clauses of a comprehension. -/
def clauses? : Nat → List Token → Option (List Token)
  | 0, _ => none
  | fuel + 1, ts =>
    if atFor ts then do
      let ts ← targets? fuel (if atKeyword "async" ts then ts.drop 2 else ts.drop 1)
      let ts ← keyword? "in" ts
      let (_, ts) ← disjunction? fuel ts
      let ts ← filters? fuel ts
      clauses? fuel ts
    else some ts

/-- The conditions of a clause. -/
def filters? : Nat → List Token → Option (List Token)
  | 0, _ => none
  | fuel + 1, ts =>
    if atKeyword "if" ts then do
      let (_, ts) ← disjunction? fuel (ts.drop 1)
      filters? fuel ts
    else some ts

/-- The targets of a clause, separated by commas. -/
def targets? : Nat → List Token → Option (List Token)
  | 0, _ => none
  | fuel + 1, ts => do
    let ts ← target? fuel (if atSign "*" ts then ts.drop 1 else ts)
    if atSign "," ts then
      (if atKeyword "in" (ts.drop 1) || atSign ")" (ts.drop 1) || atSign "]" (ts.drop 1)
        then some (ts.drop 1) else targets? fuel (ts.drop 1))
    else some ts

/-- One target: a name, an attribute, a subscript, or targets in brackets. -/
def target? : Nat → List Token → Option (List Token)
  | 0, _ => none
  | fuel + 1, ts =>
    let plain : Option (List Token) :=
      match primary? fuel ts with
      | some (.foreign element, rest) =>
        if ["Name", "Attribute", "Subscript"].contains element then some rest else none
      | _ => none
    let bracketed : Option (List Token) :=
      match ts with
      | .sign "(" :: .sign ")" :: rest => some rest
      | .sign "[" :: .sign "]" :: rest => some rest
      | .sign "(" :: rest => (targets? fuel rest).bind (sign? ")")
      | .sign "[" :: rest => (targets? fuel rest).bind (sign? "]")
      | _ => none
    plain.orElse fun _ => bracketed

/-- The subscripts up to and with the closing bracket, one at least. -/
def slices? : Nat → List Token → Option (List Token)
  | 0, _ => none
  | fuel + 1, ts => do
    let ts ← slice? fuel ts
    match ts with
    | .sign "]" :: rest => some rest
    | .sign "," :: .sign "]" :: rest => some rest
    | .sign "," :: rest => slices? fuel rest
    | _ => none

/-- One subscript: an expression, or bounds and a step with colons between them. -/
def slice? : Nat → List Token → Option (List Token)
  | 0, _ => none
  | fuel + 1, ts =>
    match ts with
    | .sign "*" :: rest => (expression? fuel rest).map (·.2)
    | .sign ":" :: rest => bound? fuel true rest
    | _ => do
      let (_, kind, ts) ← named? fuel ts
      if atSign ":" ts then (if kind = .named then none else bound? fuel true (ts.drop 1))
      else some ts

/-- What follows a colon in a subscript: an expression or nothing, and perhaps a step. -/
def bound? : Nat → Bool → List Token → Option (List Token)
  | 0, _, _ => none
  | fuel + 1, first, ts =>
    let after : Option (List Token) :=
      if atSign "]" ts || atSign "," ts || atSign ":" ts then some ts
      else (expression? fuel ts).map (·.2)
    after.bind fun ts =>
      if atSign ":" ts then (if first then bound? fuel false (ts.drop 1) else none) else some ts

/-- An item of a tuple, a list or a set. -/
def item? : Nat → List Token → Option (Expr × ItemKind × List Token)
  | 0, _ => none
  | fuel + 1, ts =>
    if atSign "*" ts then
      (binary? fuel levels (ts.drop 1)).map fun (_, ts) => (.foreign "Starred", .starred, ts)
    else named? fuel ts

/-- The items behind a comma, up to and with the closing bracket. -/
def items? : Nat → String → List Token → Option (List Token)
  | 0, _, _ => none
  | fuel + 1, close, ts =>
    if atSign close ts then some (ts.drop 1)
    else do
      let (_, _, ts) ← item? fuel ts
      if atSign "," ts then items? fuel close (ts.drop 1) else sign? close ts

/-- The entries of a mapping, up to and with the closing brace. -/
def entries? : Nat → List Token → Option (List Token)
  | 0, _ => none
  | fuel + 1, ts =>
    if atSign "\x7d" ts then some (ts.drop 1)
    else do
      let ts ← if atSign "**" ts then (binary? fuel levels (ts.drop 1)).map (·.2)
        else do
          let (_, ts) ← expression? fuel ts
          let ts ← sign? ":" ts
          (expression? fuel ts).map (·.2)
      if atSign "," ts then entries? fuel (ts.drop 1) else sign? "\x7d" ts

/-- A literal, a name, or an expression in brackets. -/
def atom? : Nat → List Token → Option (Expr × List Token)
  | 0, _ => none
  | fuel + 1, ts =>
    match ts with
    | .int n :: rest => some (.literal (.int n), rest)
    | .float x :: rest => some (.literal (.float x), rest)
    | .imaginary :: rest => some (.foreign "Constant", rest)
    | .name _ :: rest => some (.foreign "Name", rest)
    | .keyword "None" :: rest => some (.foreign "Constant", rest)
    | .keyword "True" :: rest => some (.foreign "Constant", rest)
    | .keyword "False" :: rest => some (.foreign "Constant", rest)
    | .sign "..." :: rest => some (.foreign "Constant", rest)
    | .string _ :: _ =>
      let (kinds, rest) := strings ts
      if kinds.contains .bytes && kinds.any (· != .bytes) then none
      else some (.foreign (if kinds.contains .format then "JoinedStr" else "Constant"), rest)
    | .sign "(" :: rest => group? fuel rest
    | .sign "[" :: rest =>
      if atSign "]" rest then some (.foreign "List", rest.drop 1)
      else do
        let (_, kind, ts) ← item? fuel rest
        if atFor ts && kind != .starred then
          let ts ← clauses? fuel ts
          let ts ← sign? "]" ts
          pure (.foreign "ListComp", ts)
        else if atSign "," ts then
          let ts ← items? fuel "]" (ts.drop 1)
          pure (.foreign "List", ts)
        else
          let ts ← sign? "]" ts
          pure (.foreign "List", ts)
    | .sign "\x7b" :: rest => braces? fuel rest
    | _ => none

/-- What stands between parentheses, up to and with the closing one. -/
def group? : Nat → List Token → Option (Expr × List Token)
  | 0, _ => none
  | fuel + 1, ts =>
    match ts with
    | .sign ")" :: rest => some (.foreign "Tuple", rest)
    | .keyword "yield" :: .keyword "from" :: rest => do
      let (_, ts) ← expression? fuel rest
      let ts ← sign? ")" ts
      pure (.foreign "YieldFrom", ts)
    | .keyword "yield" :: rest =>
      if atSign ")" rest then some (.foreign "Yield", rest.drop 1)
      else do
        let (_, kind, ts) ← item? fuel rest
        if kind = .named then none
        let ts ← if atSign "," ts then items? fuel ")" (ts.drop 1) else sign? ")" ts
        pure (.foreign "Yield", ts)
    | _ => do
      let (e, kind, ts) ← item? fuel ts
      if atFor ts && kind != .starred then
        let ts ← clauses? fuel ts
        let ts ← sign? ")" ts
        pure (.foreign "GeneratorExp", ts)
      else if atSign "," ts then
        let ts ← items? fuel ")" (ts.drop 1)
        pure (.foreign "Tuple", ts)
      else if kind = .starred then none
      else
        let ts ← sign? ")" ts
        pure (e, ts)

/-- What stands between braces, up to and with the closing one: a mapping or a set. -/
def braces? : Nat → List Token → Option (Expr × List Token)
  | 0, _ => none
  | fuel + 1, ts =>
    if atSign "\x7d" ts then some (.foreign "Dict", ts.drop 1)
    else if atSign "**" ts then
      (entries? fuel ts).map fun ts => (.foreign "Dict", ts)
    else do
      let (_, kind, after) ← item? fuel ts
      if kind = .plain && atSign ":" after then
        let (_, ts) ← expression? fuel (after.drop 1)
        if atFor ts then
          let ts ← clauses? fuel ts
          let ts ← sign? "\x7d" ts
          pure (.foreign "DictComp", ts)
        else if atSign "," ts then
          let ts ← entries? fuel (ts.drop 1)
          pure (.foreign "Dict", ts)
        else
          let ts ← sign? "\x7d" ts
          pure (.foreign "Dict", ts)
      else if atFor after && kind != .starred then
        let ts ← clauses? fuel after
        let ts ← sign? "\x7d" ts
        pure (.foreign "SetComp", ts)
      else if atSign "," after then
        let ts ← items? fuel "\x7d" (after.drop 1)
        pure (.foreign "Set", ts)
      else
        let ts ← sign? "\x7d" after
        pure (.foreign "Set", ts)

end

/-- Expressions separated by commas. -/
def expressions? : Nat → List Token → Option (List Token)
  | 0, _ => none
  | fuel + 1, ts => do
    let (_, ts) ← expression? fuel ts
    if atSign "," ts then
      (if ts.length ≤ 1 then some [] else expressions? fuel (ts.drop 1))
    else some ts

/-- The expression that fills the tokens; a comma at the top level makes a tuple. -/
def whole? (ts : List Token) : Option Expr := do
  let fuel := 32 * (ts.length + 2)
  let (e, rest) ← expression? fuel ts
  if rest.isEmpty then some e
  else if atSign "," rest then
    if rest.length = 1 then some (.foreign "Tuple")
    else do
      let rest ← expressions? fuel (rest.drop 1)
      if rest.isEmpty then some (.foreign "Tuple") else none
  else none

/-- The expression of a text, format strings nested no deeper than `depth`. -/
def parseWithin? : Nat → List Char → Option Expr
  | 0, _ => none
  | depth + 1, cs => do
    let read ← tokens? cs
    if read.embedded.all fun source =>
        (parseWithin? depth ('(' :: source ++ [')'])).isSome && !source.all (· == ' ') then
      whole? read.tokens
    else none

/-- The expression that a text is. -/
def Expr.parse? (s : String) : Option Expr := parseWithin? (s.length + 1) s.toList

/-! ### Nested rules -/

/-- The rules that are nested while tokens are read. `signs` are the signs in front of the operand that is
awaited, one number for the top level and for each open bracket: a bracket takes twenty-eight rules, and a
sign takes one. -/
def rulesOf (signs : List Nat) : Nat := 28 * (signs.length - 1) + signs.foldl (· + ·) 0

/-- The most rules that are nested while the tokens are read; `awaited` tells whether an operand is. -/
def nestedRules : (awaited : Bool) → (signs : List Nat) → List Token → Nat
  | _, signs, [] => rulesOf signs
  | awaited, signs, .sign s :: rest =>
    let read := 0 :: signs.drop 1
    if ["(", "[", "\x7b"].contains s then nestedRules true (0 :: signs) rest
    else if [")", "]", "\x7d"].contains s then
      max (rulesOf signs) (nestedRules false (0 :: signs.drop 2) rest)
    else if awaited && ["+", "-", "~"].contains s then
      nestedRules true ((signs.headD 0 + 1) :: signs.drop 1) rest
    else max (rulesOf signs) (nestedRules true read rest)
  | _, signs, _ :: rest => max (rulesOf signs) (nestedRules false (0 :: signs.drop 1) rest)

end Signoff.Formula
