import Signoff.Calendar.Moment
import Signoff.Json.Writer
import Signoff.Number.Read
import Signoff.Trigger.DateTest
import Signoff.Value.Coerce
import Signoff.Value.Display

/-! # Log records

A record of the log has a level, a logger, a message with arguments, and a context: the request that
it belongs to and the things that it is about. It is written either as an object or as one line for
people.

* `LogRecord.toValue` is the object.
* `LogRecord.line` is the line.
-/

namespace Signoff

/-- A record of the log. -/
structure LogRecord where
  level : String
  logger : String
  /-- The message, where each `%` begins a place for an argument and `%%` is one `%`. -/
  pattern : String
  arguments : List Value
  /-- When it was made, in seconds since the start of 1970. -/
  created : Value
  /-- The module and the line that made it. -/
  place : String × Value
  /-- Everything else that is known. -/
  details : Fields

namespace LogRecord

/-! ## The message -/

/-- A place for an argument: `%`, then marks, a width, a precision and the kind of the text. -/
structure Place where
  /-- The marks: `-` puts the text to the left, `0` fills up with zeros, `+` and a blank show a sign,
  `#` keeps the point of a number without decimals. -/
  marks : List Char
  width : Nat
  precision : Option Nat
  kind : Char

namespace Place

/-- The number that digits at the beginning write, zero where there are none, and what is behind. -/
def number (cs : List Char) : Nat × List Char :=
  (NumberText.digitsValue (cs.takeWhile Char.isDigit), cs.dropWhile Char.isDigit)

/-- The place behind a `%`, and what is behind it. -/
def read? (cs : List Char) : Option (Place × List Char) :=
  let isMark (c : Char) : Bool := ['-', '+', ' ', '0', '#'].contains c
  let (width, afterWidth) := number (cs.dropWhile isMark)
  let (precision, afterPrecision) := match afterWidth with
    | '.' :: rest => let (n, rest) := number rest; (some n, rest)
    | rest => (none, rest)
  match afterPrecision with
  | kind :: rest => some (⟨cs.takeWhile isMark, width, precision, kind⟩, rest)
  | [] => none

/-- A text cut to the precision. -/
def cut (p : Place) (s : String) : String :=
  match p.precision with
  | some n => String.ofList (s.toList.take n)
  | none => s

/-- The sign of a number and its digits. -/
def signed (p : Place) (negative : Bool) (digits : String) : String × String :=
  (if negative then "-"
    else if p.marks.contains '+' then "+"
    else if p.marks.contains ' ' then " " else "", digits)

/-- An integer as sign and digits, with at least as many digits as the precision says. -/
def ofInt (p : Place) (n : Int) : String × String :=
  let digits := NumberText.natText n.natAbs
  p.signed (n < 0) (String.ofList
    (List.replicate ((p.precision.getD 1) - digits.length) '0') ++ digits)

/-- A double as sign and digits, with as many decimals as the precision says. -/
def ofFloat (p : Place) (x : Float) : String × String :=
  let places := p.precision.getD 6
  let point := if places = 0 && p.marks.contains '#' then "." else ""
  match (NumberText.fixedText places x).toList with
  | '-' :: digits => p.signed true (String.ofList digits ++ point)
  | digits => p.signed false (String.ofList digits ++ point)

/-- Sign and text, filled up to the width. -/
def fitted (p : Place) (isNumber : Bool) (parts : String × String) : String :=
  let missing := p.width - (parts.1.length + parts.2.length)
  let fill (c : Char) : String := String.ofList (List.replicate missing c)
  if p.marks.contains '-' then parts.1 ++ parts.2 ++ fill ' '
  else if isNumber && p.marks.contains '0' then parts.1 ++ fill '0' ++ parts.2
  else fill ' ' ++ parts.1 ++ parts.2

/-- An argument in its place: as it is displayed, in quotes, as an integer or with decimals. -/
def written (p : Place) (v : Value) : Result String :=
  match p.kind with
  | 's' => .ok (p.fitted false ("", p.cut v.display))
  | 'r' => .ok (p.fitted false ("", p.cut v.quoted))
  | 'd' | 'i' | 'u' =>
    match v with
    | .float x =>
      match Binary.truncate? x with
      | some n => .ok (p.fitted true (p.ofInt n))
      | none =>
        if x.isNaN then .error (.badValue "cannot convert float NaN to integer")
        else .error (.outOfRange "cannot convert float infinity to integer")
    | v =>
      match v.asInt? with
      | some n => .ok (p.fitted true (p.ofInt n))
      | none => .error (.wrongKind ("%d format: a real number is required, not " ++ v.kindName))
  | 'f' =>
    match v with
    | .float x => .ok (p.fitted true (p.ofFloat x))
    | v =>
      match v.asInt? with
      | some n => (Value.intAsFloat n).map fun x => p.fitted true (p.ofFloat x)
      | none => .error (.wrongKind ("must be real number, not " ++ v.kindName))
  | _ => .error (.badValue "unsupported format character")

end Place

/-- The message with the arguments in their places; the bound is one for each character. -/
def fill : Nat → List Char → List Value → Result (List Char)
  | _, [], [] => .ok []
  | _, [], _ :: _ => .error (.wrongKind "not all arguments converted during string formatting")
  | 0, _ :: _, _ => .ok []
  | bound + 1, '%' :: '%' :: cs, args => do pure ('%' :: (← fill bound cs args))
  | bound + 1, '%' :: cs, args =>
    match Place.read? cs, args with
    | none, _ => .error (.badValue "incomplete format")
    | some _, [] => .error (.wrongKind "not enough arguments for format string")
    | some (place, rest), v :: others => do
      let text ← place.written v
      pure (text.toList ++ (← fill bound rest others))
  | bound + 1, c :: cs, args => do pure (c :: (← fill bound cs args))

/-- The message. Without arguments it is the pattern as it stands. -/
def message (r : LogRecord) : Result String :=
  if r.arguments.isEmpty then .ok r.pattern
  else (fill r.pattern.length r.pattern.toList r.arguments).map String.ofList

/-! ## The context -/

/-- What a record tells about the request that it belongs to. -/
def requestNames : List String := ["request_id", "method", "path", "status", "duration_ms"]

/-- What a record tells about the things that it is about. -/
def subjectNames : List String :=
  ["item_id", "board_id", "approval_id", "automation_id", "event_type", "job_name"]

/-- The details with these names, without nulls. -/
def detailsOf (r : LogRecord) (names : List String) : Fields :=
  names.filterMap fun name =>
    let v := Fields.get r.details name
    if v.isNull then none else some (name, v)

/-- The record within a request: it gets the name of the request, unless it has one. -/
def within (r : LogRecord) (requestId : String) : LogRecord :=
  if (Fields.get r.details "request_id").isNull then
    { r with details := Fields.set r.details "request_id" (.text requestId) }
  else r

/-! ## Writing -/

/-- When the record was made. -/
def moment (r : LogRecord) : Result Moment := do
  let seconds ← r.created.number?
  match seconds.bind DateTest.ofSeconds? with
  | some m => pure m
  | none => throw (.badValue "timestamp out of range")

/-- The record as an object. -/
def toValue (r : LogRecord) : Result Value := do
  let m ← r.moment
  let message ← r.message
  pure (.object ([("ts", .text m.isoUtc), ("level", .text r.level), ("logger", .text r.logger),
    ("msg", .text message), ("where", .text (r.place.1 ++ ":" ++ r.place.2.display))]
    ++ r.detailsOf (requestNames ++ subjectNames)))

/-- The sequence that begins a colour. -/
def colours : List (String × String) :=
  [("DEBUG", "36"), ("INFO", "32"), ("WARNING", "33"), ("ERROR", "31"), ("CRITICAL", "35")]

/-- The sequence of a code for terminals. -/
def escape (code : String) : String := String.ofList [Char.ofNat 27, '['] ++ code ++ "m"

/-- The text, filled up with blanks on its right. -/
def padRight (width : Nat) (s : String) : String :=
  s ++ String.ofList (List.replicate (width - s.length) ' ')

/-- The record as a line for people. -/
def line (r : LogRecord) : Result String := do
  let m ← r.moment
  let message ← r.message
  let colour := ((colours.lookup r.level).map escape).getD ""
  let context := (r.detailsOf ("request_id" :: subjectNames)).map fun (name, v) =>
    name ++ "=" ++ v.display
  pure (colour ++ m.clockText ++ " " ++ padRight 8 r.level ++ escape "0" ++ " " ++ r.logger ++ ": "
    ++ message
    ++ (if context.isEmpty then "" else "  (" ++ " ".intercalate context ++ ")"))

end LogRecord
end Signoff
