import Signoff.Number.Text

/-! # Arithmetic expressions

Expressions over integer and floating literals with signs, sums, differences, products and
quotients. Integers are exact and a quotient is always a double. An expression may hold an element
of another kind, which has no value.
-/

namespace Signoff.Formula

/-- A number: an exact integer or a double. -/
inductive Amount where
  | int (n : Int)
  | float (x : Float)

/-- The sign in front of an operand. -/
inductive Sign where
  | plus
  | minus
deriving DecidableEq, Repr

/-- The operators between two operands. -/
inductive Operator where
  | add
  | sub
  | mul
  | div
deriving DecidableEq, Repr

/-- An expression. -/
inductive Expr where
  /-- A literal. -/
  | literal (value : Amount)
  /-- An operand with a sign. -/
  | signed (sign : Sign) (operand : Expr)
  /-- Two operands. -/
  | binary (op : Operator) (left right : Expr)
  /-- An element that is no plain arithmetic, by the name of its kind. -/
  | foreign (element : String)

instance : Inhabited Expr := ⟨.foreign "Name"⟩

/-- Why an expression has no value. -/
inductive Failure where
  | divisionByZero
  | unsupported (element : String)
  /-- An integer, or the quotient of two, is too large for a double. -/
  | tooLarge (message : String)
  /-- There is no room for the calls of the evaluation. -/
  | tooDeep
deriving DecidableEq, Repr

namespace Amount

/-- The number as a double. -/
def toFloat : Amount → Except Failure Float
  | .int n => match Binary.ofInt? n with
    | some x => .ok x
    | none => .error (.tooLarge "int too large to convert to float")
  | .float x => .ok x

/-- The number with its sign changed. -/
def negate : Amount → Amount
  | .int n => .int (-n)
  | .float x => .float (-x)

/-- Two numbers under an operation that is exact on integers. -/
def combine (onInt : Int → Int → Int) (onFloat : Float → Float → Float) (a b : Amount) :
    Except Failure Amount :=
  match a, b with
  | .int m, .int n => .ok (.int (onInt m n))
  | a, b => do
    let x ← a.toFloat
    let y ← b.toFloat
    pure (.float (onFloat x y))

/-- The quotient: of two integers the double nearest to the exact one. -/
def divide (a b : Amount) : Except Failure Amount :=
  match a, b with
  | .int m, .int n =>
    if n = 0 then .error .divisionByZero
    else match Binary.ofQuotient? m n with
      | some x => .ok (.float x)
      | none => .error (.tooLarge "integer division result too large for a float")
  | a, b => do
    let x ← a.toFloat
    let y ← b.toFloat
    if y == 0.0 then .error .divisionByZero else pure (.float (x / y))

/-- Two numbers under an operator. -/
def apply (op : Operator) (a b : Amount) : Except Failure Amount :=
  match op with
  | .add => combine (· + ·) (· + ·) a b
  | .sub => combine (· - ·) (· - ·) a b
  | .mul => combine (· * ·) (· * ·) a b
  | .div => divide a b

/-- A double that is an integer becomes one. -/
def normalize : Amount → Amount
  | .int n => .int n
  | .float x => match Binary.toInt? x with
    | some n => .int n
    | none => .float x

/-- The number as text. -/
def text : Amount → String
  | .int n => NumberText.intText n
  | .float x => NumberText.floatText x

end Amount

namespace Expr

/-- The value of an expression: the left operand, the right one, then the operator. -/
def value : Expr → Except Failure Amount
  | .literal a => .ok a
  | .signed .plus e => e.value
  | .signed .minus e => e.value.map Amount.negate
  | .binary op l r => do
    let a ← l.value
    let b ← r.value
    Amount.apply op a b
  | .foreign element => .error (.unsupported element)

/-- The elements that stand below one another. -/
def depth : Expr → Nat
  | .literal _ => 1
  | .signed _ e => e.depth + 1
  | .binary _ l r => max l.depth r.depth + 1
  | .foreign _ => 1

/-- The value, if there is room for a call for each element. -/
def valueWithin : Expr → (room : Nat) → Except Failure Amount
  | _, 0 => .error .tooDeep
  | .literal a, _ + 1 => .ok a
  | .signed .plus e, room + 1 => e.valueWithin room
  | .signed .minus e, room + 1 => (e.valueWithin room).map Amount.negate
  | .binary op l r, room + 1 => do
    let a ← l.valueWithin room
    let b ← r.valueWithin room
    Amount.apply op a b
  | .foreign element, _ + 1 => .error (.unsupported element)

end Expr

end Signoff.Formula
