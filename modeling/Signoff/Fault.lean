import Signoff.Value.Display

/-! # Faults

The reasons for which an operation does not return, and the text of each.
-/

namespace Signoff

/-- What an operation can run out of. -/
inductive Exhaustion where
  /-- Room for calls that are nested in one another. -/
  | depth
  /-- Memory. -/
  | memory
deriving DecidableEq, Repr

/-- Why an operation did not return. -/
inductive Fault where
  /-- Nothing is kept under this key. -/
  | notFound (resource : String) (key : Value)
  /-- The input breaks a rule; the details give a reason for each place. -/
  | rejected (message : String) (details : Fields)
  /-- The actor may not perform the action. -/
  | denied (actor : Option String) (action : String) (reason : Option String := none)
  /-- The life cycle of approvals forbids the change of status. -/
  | badTransition (current : String) (requested : Value)
  /-- A level was to be approved before the one in front of it. -/
  | outOfSequence (level previous : String)
  /-- A call to another system failed. -/
  | callFailed (message : String)
  /-- A value of the wrong kind was used. -/
  | wrongKind (message : String)
  /-- A value has no such part. -/
  | noPart (message : String)
  /-- An object has no field of this name. -/
  | noField (name : String)
  /-- A value of the right kind that is not acceptable. -/
  | badValue (message : String)
  /-- A number outside of the representable ones. -/
  | outOfRange (message : String)
  /-- The store refuses a row that breaks a constraint. -/
  | constraint (message : String)
  /-- The store has no representation for a value. -/
  | unstorable (message : String)
  /-- A value does not fit the model that it is read as. -/
  | misfit
  /-- A collaborator failed. -/
  | broken (message : String)
  /-- The operation is nested deeper than can be worked off. -/
  | exhausted (resource : Exhaustion)
deriving Inhabited

namespace Fault

/-- What the fault says. -/
def text : Fault → String
  | notFound resource key =>
    resource ++ (if key.isNull then "" else " id=" ++ key.display) ++ " not found"
  | rejected message _ => message
  | denied actor action reason =>
    match reason with
    | some (reason) =>
      if reason.isEmpty then denial actor action else reason
    | none => denial actor action
  | badTransition current requested =>
    "Cannot change approval from " ++ Text.quoted current ++ " to " ++ requested.quoted
  | outOfSequence level previous => previous ++ " must be approved before " ++ level
  | callFailed message => message
  | wrongKind message => message
  | noPart message => message
  | noField name => Text.quoted name
  | badValue message => message
  | outOfRange message => message
  | constraint message => message
  | unstorable message => message
  | misfit => "invalid"
  | broken message => message
  | exhausted .depth => "maximum recursion depth exceeded"
  | exhausted .memory => ""
where
  /-- The text of a denial without a reason of its own. -/
  denial (actor : Option String) (action : String) : String :=
    "User " ++ (Value.ofText? actor).quoted ++ " is not allowed to perform " ++ action

/-- An integer was to become a double and is too large for one. -/
def intTooLarge : Fault := .outOfRange "int too large to convert to float"

/-- A value cannot be a member of a set or the name of a field. -/
def unhashable (v : Value) : Fault := .wrongKind ("unhashable type: " ++ Text.quoted v.kindName)

/-- A value has no items to go through. -/
def notIterable (v : Value) : Fault :=
  .wrongKind (Text.quoted v.kindName ++ " object is not iterable")

/-- A value was used as an object. -/
def noAttribute (v : Value) (name : String) : Fault :=
  .noPart (Text.quoted v.kindName ++ " object has no attribute " ++ Text.quoted name)

end Fault

/-- A result, or the reason why there is none. -/
abbrev Result (α : Type) := Except Fault α

/-- The calls that can be nested in one another below a condition or a formula that is evaluated. How
much of the room its caller has taken up already is left out. -/
def callRoom : Nat := 996

/-- A result that takes so many nested calls, if there is room for them. -/
def Result.within {α : Type} (room calls : Nat) (result : Result α) : Result α :=
  if calls ≤ room then result else .error (.exhausted .depth)

end Signoff
