import Signoff.Calendar.Date

/-! # Moments

A moment is a wall-clock time in UTC with a resolution of one microsecond, within the calendar. A
duration is a whole number of microseconds.
-/

namespace Signoff

/-- Microseconds since 0001-01-01T00:00:00. -/
structure Moment where
  micros : Nat
deriving DecidableEq, Repr

namespace Moment

/-- Microseconds in a day. -/
def dayMicros : Nat := 86400000000

/-- The first microsecond after the year 9999. -/
def momentCount : Nat := Date.dayCount * dayMicros

/-- The moment at so many microseconds, within the calendar. -/
def ofMicros? (n : Int) : Option Moment :=
  if 0 ≤ n ∧ n < momentCount then some ⟨n.toNat⟩ else none

/-- Midnight at the beginning of a day. -/
def ofDate (d : Date) : Moment := ⟨d.number * dayMicros⟩

/-- The moment of a day and a time of day, if the time is one. -/
def ofParts? (d : Date) (hour minute second micro : Nat) : Option Moment :=
  if hour < 24 ∧ minute < 60 ∧ second < 60 ∧ micro < 1000000 then
    some ⟨d.number * dayMicros + ((hour * 60 + minute) * 60 + second) * 1000000 + micro⟩
  else none

/-- The day of a moment. -/
def date (m : Moment) : Date := ⟨m.micros / dayMicros⟩

/-- The moment so many microseconds later, within the calendar. -/
def add? (m : Moment) (micros : Int) : Option Moment := ofMicros? (m.micros + micros)

/-- Microseconds from `a` to `b`. -/
def between (a b : Moment) : Int := (b.micros : Int) - a.micros

/-- The start of 1970 in microseconds. -/
def epochMicros : Int := (Date.daysBeforeYear 1970 * dayMicros : Nat)

/-- The time of day as `HH:MM:SS`. -/
def clockText (m : Moment) : String :=
  let seconds := m.micros % dayMicros / 1000000
  NumberText.padded 2 (seconds / 3600) ++ ":" ++ NumberText.padded 2 (seconds / 60 % 60)
    ++ ":" ++ NumberText.padded 2 (seconds % 60)

/-- The moment as `YYYY-MM-DDTHH:MM:SS`, with six decimals when it is no whole second. -/
def iso (m : Moment) : String :=
  let micro := m.micros % 1000000
  m.date.iso ++ "T" ++ m.clockText ++
    (if micro = 0 then "" else "." ++ NumberText.padded 6 micro)

/-- The moment with the offset of UTC. -/
def isoUtc (m : Moment) : String := m.iso ++ "+00:00"

end Moment
end Signoff
