import Signoff.Number.Text

/-! # Calendar days

Days of the Gregorian calendar, extended to the year 1 and ending with the year 9999. A day is its
distance from 1 January of the year 1.
-/

namespace Signoff

/-- A day, counted from 0001-01-01, which is day 0. -/
structure Date where
  number : Nat
deriving DecidableEq, Repr

namespace Date

/-- Is it a leap year? -/
def isLeap (year : Nat) : Bool := year % 4 == 0 && (year % 100 != 0 || year % 400 == 0)

/-- Days in the years before `year`. -/
def daysBeforeYear (year : Nat) : Nat :=
  let y := year - 1
  365 * y + y / 4 - y / 100 + y / 400

/-- Days in a month. -/
def daysInMonth (year month : Nat) : Nat :=
  if month = 2 then (if isLeap year then 29 else 28)
  else if month = 4 ∨ month = 6 ∨ month = 9 ∨ month = 11 then 30 else 31

/-- Days in the months before `month`. -/
def daysBeforeMonth (year : Nat) : Nat → Nat
  | 0 => 0
  | 1 => 0
  | month + 2 => daysBeforeMonth year (month + 1) + daysInMonth year (month + 1)

/-- The first day number after the year 9999. -/
def dayCount : Nat := daysBeforeYear 10000

/-- The day of a year, month and day of the month, if there is one. -/
def ofCivil? (year month day : Nat) : Option Date :=
  if 1 ≤ year ∧ year ≤ 9999 ∧ 1 ≤ month ∧ month ≤ 12 ∧ 1 ≤ day ∧ day ≤ daysInMonth year month then
    some ⟨daysBeforeYear year + daysBeforeMonth year month + (day - 1)⟩
  else none

/-- The year of a day number: four centuries, centuries, four years and years are split off. -/
def yearOf (number : Nat) : Nat :=
  let n400 := number / 146097
  let r400 := number % 146097
  let n100 := min (r400 / 36524) 3
  let r100 := r400 - n100 * 36524
  let n4 := r100 / 1461
  let r4 := r100 % 1461
  let n1 := min (r4 / 365) 3
  400 * n400 + 100 * n100 + 4 * n4 + n1 + 1

/-- The month that holds the day of the year `day` (from 0), looked for among the `fuel` last months. -/
def monthOf (year day : Nat) : Nat → Nat
  | 0 => 1
  | fuel + 1 => if daysBeforeMonth year (fuel + 1) ≤ day then fuel + 1 else monthOf year day fuel

/-- Year, month and day of the month. -/
def civil (d : Date) : Nat × Nat × Nat :=
  let year := yearOf d.number
  let rest := d.number - daysBeforeYear year
  let month := monthOf year rest 12
  (year, month, rest - daysBeforeMonth year month + 1)

/-- The day as `YYYY-MM-DD`. -/
def iso (d : Date) : String :=
  let (year, month, day) := d.civil
  NumberText.padded 4 year ++ "-" ++ NumberText.padded 2 month ++ "-" ++ NumberText.padded 2 day

/-- Monday of the first ISO week of a year; the year 1 begins with a Monday. -/
def firstMonday (year : Nat) : Int :=
  let first : Int := daysBeforeYear year
  let weekday := first.emod 7
  first - weekday + (if 3 < weekday then 7 else 0)

/-- Has the ISO year a 53rd week? -/
def isLongYear (year : Nat) : Bool :=
  let weekday := daysBeforeYear year % 7
  weekday == 3 || (weekday == 2 && isLeap year)

/-- The day of an ISO year, week and weekday (Monday is 1), if there is one. -/
def ofWeek? (year week weekday : Nat) : Option Date :=
  if 1 ≤ year ∧ year ≤ 9999 ∧ 1 ≤ week ∧ (week ≤ 52 ∨ (week = 53 ∧ isLongYear year))
      ∧ 1 ≤ weekday ∧ weekday ≤ 7 then
    let n := firstMonday year + ((week - 1) * 7 + (weekday - 1) : Nat)
    if 0 ≤ n ∧ n < dayCount then some ⟨n.toNat⟩ else none
  else none

/-- The day `days` later, within the calendar. -/
def addDays? (d : Date) (days : Int) : Option Date :=
  let n := (d.number : Int) + days
  if 0 ≤ n ∧ n < dayCount then some ⟨n.toNat⟩ else none

end Date
end Signoff
