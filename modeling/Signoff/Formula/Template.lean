import Signoff.Formula.Grammar
import Signoff.Text.Case
import Signoff.Value.Coerce

/-! # Formulas over a snapshot

A formula names fields of a snapshot in braces. Each of them is replaced by its number, zero where it
is missing, and the text that results is read and evaluated.

Reading and evaluating are nested as the text is, and there is room for so much nesting only:
`Formula.evaluateWithin` is given the limits, and `Formula.evaluate` has those of `Limits.standard`.
-/

namespace Signoff.Formula

/-- A piece of a formula: plain text, or the name in a pair of braces. -/
inductive Piece where
  | plain (c : Char)
  | field (name : String)

/-- The name between braces behind an opening brace, and the rest: neither brace occurs in it, and it
is not empty. -/
def fieldName? (cs : List Char) : Option (String × List Char) :=
  let name := cs.takeWhile fun c => c != '\x7b' && c != '\x7d'
  let rest := cs.dropWhile fun c => c != '\x7b' && c != '\x7d'
  match rest with
  | '\x7d' :: after => if name.isEmpty then none else some (String.ofList name, after)
  | _ => none

/-- The pieces of a formula. -/
def pieces : Nat → List Char → List Piece
  | 0, _ => []
  | fuel + 1, cs =>
    match cs with
    | [] => []
    | '\x7b' :: rest =>
      match fieldName? rest with
      | some (name, after) => .field name :: pieces fuel after
      | none => .plain '\x7b' :: pieces fuel rest
    | c :: rest => .plain c :: pieces fuel rest

/-- The value of a field, whatever the case of its name; of several the last one counts. -/
def fieldValue (snapshot : Fields) (name : String) : Value :=
  let key := Text.lower (Text.trim name)
  ((snapshot.reverse.find? fun field => Text.lower field.1 == key).map (·.2)).getD .null

/-- The fault of a formula that is refused. -/
def refusal (formula reason : String) (details : Fields) : Fault :=
  .rejected ("Invalid formula: " ++ reason) (("formula", Value.text formula) :: details)

/-- The text that stands for a piece. -/
def pieceText (formula : String) (snapshot : Fields) : Piece → Result String
  | .plain c => .ok (String.singleton c)
  | .field name => do
    let value := fieldValue snapshot name
    if value.isMissing then pure "0"
    else match ← value.number? with
      | some x => pure (NumberText.floatText x)
      | none => .error (refusal formula ("\x7b" ++ name ++ "\x7d is not numeric") [])

/-- The formula with the numbers of the snapshot in place of the names. -/
def substitute (formula : String) (snapshot : Fields) : Result String := do
  let texts ← (pieces (formula.length + 1) formula.toList).mapM (pieceText formula snapshot)
  pure (String.join texts)

/-- How deep a text may be nested. -/
structure Limits where
  /-- What reading the text runs out of, if it does. -/
  exhausts : String → Option Exhaustion
  /-- The calls of the evaluation that can be nested in one another. -/
  calls : Nat

namespace Limits

/-- What reading a text runs out of where so many rules of the grammar can be nested, and an expression
can be so deep. No expression is deeper than its text is long. -/
def reading (rules depth : Nat) (text : String) : Option Exhaustion :=
  if (tokens? text.toList).any fun read => rules < nestedRules true [0] read.tokens then some .memory
  else if depth < text.length ∧ (Expr.parse? text).any fun expr => depth < expr.depth then some .depth
  else none

/-- The limits where nothing else has taken up room. -/
def standard : Limits where
  exhausts := reading 5975 2987
  calls := callRoom

end Limits

/-- The fault for an expression without a value. -/
def failureFault (formula : String) : Failure → Fault
  | .divisionByZero => refusal formula "division by zero" []
  | .unsupported element =>
    refusal formula formula [("reason", .text ("unsupported element " ++ element))]
  | .tooLarge message => .outOfRange message
  | .tooDeep => .exhausted .depth

/-- The number that a formula gives over a snapshot, within the limits. -/
def evaluateWithin (limits : Limits) (formula : String) (snapshot : Fields) : Result Amount := do
  let text ← substitute formula snapshot
  match limits.exhausts (Text.trim text) with
  | some resource => .error (.exhausted resource)
  | none =>
    match Expr.parse? (Text.trim text) with
    | none => .error (refusal formula formula [("reason", .text "syntax error")])
    | some expr =>
      match expr.valueWithin limits.calls with
      | .ok amount => pure amount.normalize
      | .error failure => .error (failureFault formula failure)

/-- The number that a formula gives over a snapshot. -/
def evaluate (formula : String) (snapshot : Fields) : Result Amount :=
  evaluateWithin .standard formula snapshot

/-- A number as a value. -/
def Amount.toValue : Amount → Value
  | .int n => .int n
  | .float x => .float x

end Signoff.Formula
