import Signoff.Value.Coerce

/-! # Tests of a date field

A date field holds the text of a date, or a number of milliseconds since the start of 1970. It is
compared with the current day, or with two given moments.
-/

namespace Signoff

/-- The tests of a date. -/
inductive DateTest where
  | approaching
  | passed
  | equalsToday
  | inRange
deriving DecidableEq, Repr

namespace DateTest

/-- Every test. -/
def all : List DateTest := [.approaching, .passed, .equalsToday, .inRange]

/-- The word for a test. -/
def word : DateTest → String
  | .approaching => "approaching"
  | .passed => "passed"
  | .equalsToday => "equals_today"
  | .inRange => "in_range"

/-- The test that a word stands for. -/
def ofWord? (word : String) : Option DateTest := all.find? fun t => t.word == word

/-- The days of warning where none are given. -/
def defaultWindow : Int := 3

/-- What a test is compared with. -/
structure Bounds where
  /-- Days of warning. -/
  window : Value := .null
  start : Value := .null
  stop : Value := .null

/-- Seconds since the start of 1970 that a number of milliseconds stands for. -/
def secondsOf? : Value → Option Float
  | .int n => Binary.ofQuotient? n 1000
  | .float x => some (x / 1000.0)
  | _ => none

/-- The moment so many seconds after the start of 1970, the fraction rounded to microseconds. The
first day of the calendar is left out. -/
def ofSeconds? (x : Float) : Option Moment := do
  let whole ← Binary.truncate? x
  if whole.natAbs ≥ Nat.pow 10 12 then none
  else
    let fraction := x - (← Binary.ofInt? whole)
    let micros ← Binary.roundInt? (fraction * 1000000.0)
    let total := Moment.epochMicros + whole * 1000000 + micros
    if total < Moment.dayMicros then none else Moment.ofMicros? total

/-- The moment that the value of a date field stands for. -/
def momentOf? (v : Value) : Option Moment :=
  if v.isNumber then (secondsOf? v).bind ofSeconds? else v.moment?

/-- Is a number of days at most the window? Only numbers bound it. -/
def withinWindow (days : Int) : Value → Result Bool
  | .null => .ok (days ≤ defaultWindow)
  | .bool b => .ok (days ≤ if b then 1 else 0)
  | .int n => .ok (days ≤ n)
  | .float x => .ok (Binary.compareInt? x days == some .gt || Binary.compareInt? x days == some .eq)
  | v => .error (.wrongKind ("days cannot be compared with " ++ v.kindName))

/-- Does the test hold of a moment on the given day? -/
def holdsAt (test : DateTest) (value : Moment) (bounds : Bounds) (today : Date) : Result Bool :=
  match test with
  | .approaching =>
    let days : Int := (value.date.number : Int) - today.number
    if 0 ≤ days then withinWindow days bounds.window else .ok false
  | .passed => .ok (value.date.number < today.number)
  | .equalsToday => .ok (value.date.number == today.number)
  | .inRange =>
    match bounds.start.moment?, bounds.stop.moment? with
    | some a, some b => .ok (a.micros ≤ value.micros && value.micros ≤ b.micros)
    | _, _ => .ok false

/-- Tests a date field of a snapshot. Nothing holds of an empty snapshot, of a missing or unreadable
date, or under an unknown word. -/
def ofField (snapshot : Option Fields) (column : Value) (word : String) (bounds : Bounds)
    (today : Date) : Result Bool :=
  match ofWord? word, (snapshot.getD []).get column.display with
  | some test, raw =>
    match momentOf? raw with
    | some value => test.holdsAt value bounds today
    | none => .ok false
  | none, _ => .ok false

end DateTest
end Signoff
