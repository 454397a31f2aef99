import Signoff.Fault
import Signoff.Number.Read

/-! # Text columns

What a text column keeps of a value. Numbers and Booleans are kept as texts, a Boolean as a digit;
integers have to fit into 64 bits, and lists and objects cannot be kept.
-/

namespace Signoff.TextColumn

/-- One more than the greatest integer of 64 bits with a sign. -/
def bound : Int := 0x8000000000000000

/-- Does the integer fit into 64 bits? -/
def fits (n : Int) : Bool := -bound ≤ n && n < bound

/-- What the column keeps of a value that stands at the given place of a statement. -/
def keep (place : Nat) (v : Value) : Result (Option String) :=
  match v with
  | .null => .ok none
  | .bool b => .ok (some (if b then "1" else "0"))
  | .int n =>
    if fits n then .ok (some (NumberText.intText n))
    else .error (.outOfRange "Python int too large to convert to SQLite INTEGER")
  | .float x => .ok (NumberText.columnText? x)
  | .text s => .ok (some s)
  | v => .error (.unstorable ("(sqlite3.ProgrammingError) Error binding parameter "
      ++ NumberText.natText place ++ ": type " ++ Text.quoted v.kindName ++ " is not supported"))

/-- What a column keeps that has to hold something. -/
def filled (name : String) (kept : Option String) : Result String :=
  match kept with
  | some s => .ok s
  | none => .error (.constraint ("(sqlite3.IntegrityError) NOT NULL constraint failed: " ++ name))

end Signoff.TextColumn

namespace Signoff

/-- The key of a row as a value gives it: an integer, a number without its fraction, or the digits of
a text; nothing else is one. -/
def Value.key? : Value → Result (Option Int)
  | .bool b => .ok (some (if b then 1 else 0))
  | .int n => .ok (some n)
  | .float x =>
    match Binary.truncate? x with
    | some n => .ok (some n)
    | none =>
      if x.isNaN then .ok none
      else .error (.outOfRange "cannot convert float infinity to integer")
  | .text s => .ok (NumberText.readInt? s)
  | _ => .ok none

/-- A key has to fit into 64 bits before it can be looked up. -/
def checkKey (n : Int) : Result Unit :=
  if TextColumn.fits n then .ok ()
  else .error (.outOfRange "Python int too large to convert to SQLite INTEGER")

end Signoff
