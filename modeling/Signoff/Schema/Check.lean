import Signoff.Fault
import Signoff.Value.Basic

/-! # Checked payloads

A payload is checked as a whole: every field is read, and the problems of all of them are reported
together, each with its place. What concerns several fields of an object is looked at only when
every field of the object is sound.

* `Checked` gathers problems: as an applicative functor it reads one part after another and keeps
  the problems of all.
* `Checked.andThen` looks at a sound value further.
-/

namespace Signoff

/-- What is wrong with a payload, and the names on the way to it. -/
structure Problem where
  place : List String
  message : String
deriving DecidableEq, Repr

/-- The outcome of a check. -/
inductive Checked (α : Type) where
  | sound (value : α)
  | unsound (problems : List Problem)
  /-- The check itself failed. -/
  | stuck (fault : Fault)

namespace Checked

variable {α β : Type}

/-- Reads a part behind another one and gathers the problems of both. -/
def gather (f : Checked (α → β)) (x : Checked α) : Checked β :=
  match f, x with
  | .stuck fault, _ => .stuck fault
  | _, .stuck fault => .stuck fault
  | .unsound ps, .unsound qs => .unsound (ps ++ qs)
  | .unsound ps, .sound _ => .unsound ps
  | .sound _, .unsound qs => .unsound qs
  | .sound g, .sound v => .sound (g v)

instance : Applicative Checked where
  pure := .sound
  seq f x := gather f (x ())

/-- Looks at a sound value further. -/
def andThen (x : Checked α) (f : α → Checked β) : Checked β :=
  match x with
  | .sound v => f v
  | .unsound ps => .unsound ps
  | .stuck fault => .stuck fault

/-- A single problem at this very place. -/
def problem (message : String) : Checked α := .unsound [⟨[], message⟩]

/-- A rule that spans several fields is broken. -/
def ruleBroken (message : String) : Checked α := problem ("Value error, " ++ message)

/-- Keeps the value if the condition holds. -/
def ensure (v : α) (holds : Bool) (message : String) : Checked α :=
  if holds then .sound v else problem message

/-- The problems lie below a name. -/
def below (name : String) : Checked α → Checked α
  | .unsound ps => .unsound (ps.map fun p => { p with place := name :: p.place })
  | other => other

/-- The result of a whole check, where the problems are told under their places joined by points. -/
def toResult (message : String) : Checked α → Result α
  | .sound v => .ok v
  | .stuck fault => .error fault
  | .unsound ps =>
    .error (.rejected message (ps.foldl (fun details p =>
      details.set (if p.place.isEmpty then "body" else ".".intercalate p.place) (.text p.message))
      ([] : Fields)))

/-- The result of a check whose problems are not told. -/
def toBareResult : Checked α → Result α
  | .sound v => .ok v
  | .stuck fault => .error fault
  | .unsound _ => .error .misfit

end Checked

/-! ## Objects -/

/-- The two spellings of a field: with capitals inside, and with underscores. -/
structure Key where
  wire : String
  plain : String

/-- A field of one word. -/
def Key.word (name : String) : Key := ⟨name, name⟩

/-- The spelling under which an object has a field, and its value. The first spelling is looked for
first. -/
def Key.find? (key : Key) (fields : Fields) : Option (String × Value) :=
  match fields.get? key.wire with
  | some v => some (key.wire, v)
  | none => (fields.get? key.plain).map fun v => (key.plain, v)

namespace Schema

variable {α : Type}

/-- A field that has to be there. -/
def required (fields : Fields) (key : Key) (check : Value → Checked α) : Checked α :=
  match key.find? fields with
  | some (name, v) => (check v).below name
  | none => (Checked.problem "Field required").below key.wire

/-- A field that may be missing. -/
def optional (fields : Fields) (key : Key) (absent : α) (check : Value → Checked α) : Checked α :=
  match key.find? fields with
  | some (name, v) => (check v).below name
  | none => .sound absent

/-- The object has no field apart from these, and none of them twice. -/
def noOthers (fields : Fields) (keys : List Key) : Checked Unit :=
  let used := keys.filterMap fun key => (key.find? fields).map (·.1)
  let others := fields.filter fun field => !used.contains field.1
  if others.isEmpty then .sound ()
  else .unsound (others.map fun field => ⟨[field.1], "Extra inputs are not permitted"⟩)

/-- Reads an object with the given fields. -/
def object (model : String) (keys : List Key) (read : Fields → Checked α) (v : Value) :
    Checked α :=
  match v with
  | .object fields => read fields <* noOthers fields keys
  | _ => Checked.problem ("Input should be a valid dictionary or instance of " ++ model)

/-- Reads a whole payload, which has to be an object. -/
def payload (message : String) (read : Value → Checked α) (v : Value) : Result α :=
  match v with
  | .object _ => (read v).toResult message
  | _ => .error (.rejected message [("body", .text "must be a JSON object")])

end Schema
end Signoff
