import Signoff.Calendar.Moment
import Signoff.Fault
import Signoff.Number.Binary

/-! # Durations

A number of hours as a duration in whole microseconds, and the steps from one moment to another.
-/

namespace Signoff

namespace Duration

/-- Microseconds in an hour. -/
def hourMicros : Int := 3600000000

/-- The longest duration, in days. -/
def mostDays : Int := 999999999

/-- One more than the greatest number of days that a duration is counted in. -/
def countedDays : Int := 0x80000000

/-- A duration has to be of at most so many days. -/
def checked (micros : Int) : Result Int :=
  let days := micros.fdiv Moment.dayMicros
  if days.natAbs ≤ mostDays.natAbs then .ok micros
  else if -countedDays ≤ days ∧ days < countedDays then
    .error (.outOfRange ("days=" ++ NumberText.intText days ++ "; must have magnitude <= "
      ++ NumberText.intText mostDays))
  else .error (.outOfRange "Python int too large to convert to C int")

/-- The duration of a number of hours. A fraction of an hour is counted in microseconds, rounded to the
even neighbour of a half. -/
def ofHours : Value → Result Int
  | .int n => checked (n * hourMicros)
  | .bool b => .ok (if b then hourMicros else 0)
  | .float x =>
    match Binary.truncate? x with
    | none =>
      if x.isNaN then .error (.badValue "cannot convert float NaN to integer")
      else .error (.outOfRange "cannot convert float infinity to integer")
    | some whole =>
      let fraction := x - (Binary.ofInt? whole).getD 0.0
      checked (whole * hourMicros + (Binary.roundInt? (fraction * 3600000000.0)).getD 0)
  | v => .error (.wrongKind ("unsupported type for timedelta hours component: " ++ v.kindName))

/-- A duration in seconds. -/
def seconds (micros : Int) : Float := (Binary.ofQuotient? micros 1000000).getD 0.0

/-- A duration in hours. -/
def hours (micros : Int) : Float := seconds micros / 3600.0

/-- The whole hours of a duration, rounded down. -/
def wholeHours (micros : Int) : Int :=
  match Binary.parts? (seconds micros) with
  | some p => let (num, den) := p.quotient; num.fdiv (den * 3600)
  | none => 0

end Duration

/-- The moment so many microseconds later, which has to lie within the calendar. -/
def Moment.plus (m : Moment) (micros : Int) : Result Moment :=
  match m.add? micros with
  | some later => .ok later
  | none => .error (.outOfRange "date value out of range")

end Signoff
