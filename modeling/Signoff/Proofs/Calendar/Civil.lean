import Signoff.Calendar.Moment
import Mathlib.Algebra.BigOperators.Intervals

/-! # Years, months and days

    A day is a number, and a moment is one as well. This module takes them apart:

    * `Date.daysBeforeYear_eq_sum`, `Date.daysBeforeMonth_eq_sum`: the closed forms
      count the days of the years and months in front.
    * `Date.yearOf_spec`, `Date.monthOf_spec`: a day lies in its year and its month.
    * `WallClock`: year, month, day and the time of day as fields. Every moment of the
      calendar shows one wall clock (`Moment.isValid_wall`, `Moment.micros_wall`), and no
      two wall clocks denote the same moment (`WallClock.eq_of_micros_eq`).
    * `Date.InWeek`: the day of a week and a weekday in a year whose weeks are counted
      by their Thursdays. `Date.ofWeek?_eq_some_iff` finds it.
-/

namespace Signoff

namespace Date

/-! ## Years -/

/-- The days of a year. -/
def yearLength (year : Nat) : Nat := if isLeap year then 366 else 365

theorem isLeap_iff {year : Nat} :
    isLeap year = true ↔ year % 4 = 0 ∧ (year % 100 ≠ 0 ∨ year % 400 = 0) := by
  unfold isLeap
  simp

theorem succ_div_eq (n k : Nat) :
    (n + 1) / k = n / k + if (n + 1) % k = 0 then 1 else 0 := by
  rw [Nat.succ_div]
  exact congrArg _ (if_congr Nat.dvd_iff_mod_eq_zero rfl rfl)

/-- A year moves the days in front by its length. -/
theorem daysBeforeYear_succ {year : Nat} (h : 1 ≤ year) :
    daysBeforeYear (year + 1) = daysBeforeYear year + yearLength year := by
  obtain ⟨y, rfl⟩ : ∃ y, year = y + 1 := ⟨year - 1, by omega⟩
  have hle : y / 100 ≤ y / 4 := Nat.div_le_div_left (by decide) (by decide)
  -- A year that is divisible by 400 is divisible by 100, and one by 100 is by 4.
  have h400 : (y + 1) % 400 = 0 → (y + 1) % 100 = 0 := by omega
  have h100 : (y + 1) % 100 = 0 → (y + 1) % 4 = 0 := by omega
  have hlength : yearLength (y + 1) =
      if (y + 1) % 4 = 0 ∧ ((y + 1) % 100 ≠ 0 ∨ (y + 1) % 400 = 0) then 366 else 365 :=
    if_congr isLeap_iff rfl rfl
  unfold daysBeforeYear
  rw [hlength]
  simp only [Nat.add_sub_cancel]
  rw [succ_div_eq y 4, succ_div_eq y 100, succ_div_eq y 400]
  generalize (y + 1) % 4 = r4 at *
  generalize (y + 1) % 100 = r100 at *
  generalize (y + 1) % 400 = r400 at *
  generalize y / 4 = q4 at *
  generalize y / 100 = q100 at *
  generalize y / 400 = q400 at *
  split_ifs
  all_goals omega

theorem daysBeforeYear_eq_sum {year : Nat} (h : 1 ≤ year) :
    daysBeforeYear year = ∑ y ∈ Finset.Ico 1 year, yearLength y := by
  induction year, h using Nat.le_induction with
  | base => rfl
  | succ year h ih => rw [daysBeforeYear_succ h, Finset.sum_Ico_succ_top h, ih]

/-- Later years have more days in front. -/
theorem daysBeforeYear_le {year later : Nat} (h : 1 ≤ year) (hle : year ≤ later) :
    daysBeforeYear year ≤ daysBeforeYear later := by
  induction later, hle using Nat.le_induction with
  | base => exact Nat.le_refl _
  | succ later hle ih =>
    rw [daysBeforeYear_succ (h.trans hle)]
    omega

/-- No day lies in two years. -/
theorem year_unique {n year year' : Nat} (hfrom : daysBeforeYear year ≤ n)
    (hto : n < daysBeforeYear (year + 1)) (hfrom' : daysBeforeYear year' ≤ n)
    (hto' : n < daysBeforeYear (year' + 1)) : year = year' := by
  rcases Nat.lt_trichotomy year year' with hlt | heq | hlt
  · have hle := daysBeforeYear_le (Nat.le_add_left 1 year) (Nat.succ_le_of_lt hlt)
    omega
  · exact heq
  · have hle := daysBeforeYear_le (Nat.le_add_left 1 year') (Nat.succ_le_of_lt hlt)
    omega

/-- The days in front of a year in a cycle of four centuries, by the parts of the year. -/
theorem daysBeforeYear_parts {a b c d : Nat} (hc : c ≤ 24) (hb : b ≤ 3) (hd : d ≤ 3) :
    daysBeforeYear (400 * a + 100 * b + 4 * c + d + 1) =
      146097 * a + 36524 * b + 1461 * c + 365 * d := by
  unfold daysBeforeYear
  simp only [Nat.add_sub_cancel]
  have h4 : (400 * a + 100 * b + 4 * c + d) / 4 = 100 * a + 25 * b + c := by omega
  have h100 : (400 * a + 100 * b + 4 * c + d) / 100 = 4 * a + b := by omega
  have h400 : (400 * a + 100 * b + 4 * c + d) / 400 = a := by omega
  rw [h4, h100, h400]
  omega

/-- Only the fourth year of four is longer, and not at the end of a century, unless it ends the cycle. -/
theorem yearLength_parts {a b c d : Nat} (hc : c ≤ 24) (hb : b ≤ 3) (hd : d ≤ 3) :
    yearLength (400 * a + 100 * b + 4 * c + d + 1) =
      if d = 3 ∧ (c ≠ 24 ∨ b = 3) then 366 else 365 := by
  have h4 : (400 * a + 100 * b + 4 * c + d + 1) % 4 = 0 ↔ d = 3 := by omega
  have h100 : (400 * a + 100 * b + 4 * c + d + 1) % 100 = 0 ↔ 4 * c + d = 99 := by omega
  have h400 : (400 * a + 100 * b + 4 * c + d + 1) % 400 = 0 ↔ 100 * b + 4 * c + d = 399 := by omega
  refine if_congr (isLeap_iff.trans ?_) rfl rfl
  rw [Ne, h4, h100, h400]
  omega

/-- A day lies in its year. -/
theorem yearOf_spec (n : Nat) :
    1 ≤ yearOf n ∧ daysBeforeYear (yearOf n) ≤ n ∧ n < daysBeforeYear (yearOf n + 1) := by
  -- The parts that are split off, with what is left of each.
  obtain ⟨a, ha⟩ : ∃ a, a = n / 146097 := ⟨_, rfl⟩
  obtain ⟨r, hr⟩ : ∃ r, r = n % 146097 := ⟨_, rfl⟩
  obtain ⟨b, hb⟩ : ∃ b, b = min (r / 36524) 3 := ⟨_, rfl⟩
  obtain ⟨q, hq⟩ : ∃ q, q = r - b * 36524 := ⟨_, rfl⟩
  obtain ⟨c, hc⟩ : ∃ c, c = q / 1461 := ⟨_, rfl⟩
  obtain ⟨p, hp⟩ : ∃ p, p = q % 1461 := ⟨_, rfl⟩
  obtain ⟨d, hd⟩ : ∃ d, d = min (p / 365) 3 := ⟨_, rfl⟩
  have hyear : yearOf n = 400 * a + 100 * b + 4 * c + d + 1 := by
    unfold yearOf
    simp only [ha, hb, hc, hd, hr, hq, hp]
  have hn : n = 146097 * a + r := by omega
  have hr_lt : r < 146097 := by omega
  have hb_le : b ≤ 3 := by omega
  have hq_lt : r = 36524 * b + q ∧ q < 36525 ∧ (b < 3 → q < 36524) := by omega
  have hc_le : c ≤ 24 := by omega
  have hp_lt : q = 1461 * c + p ∧ p < 1461 := by omega
  have hd_le : d ≤ 3 := by omega
  have hd_rest : 365 * d ≤ p ∧ (d < 3 → p < 365 * d + 365) := by omega
  rw [hyear, daysBeforeYear_succ (Nat.le_add_left 1 _), daysBeforeYear_parts hc_le hb_le hd_le,
    yearLength_parts hc_le hb_le hd_le]
  clear hyear ha hr hb hq hc hp hd
  refine ⟨Nat.le_add_left 1 _, by omega, ?_⟩
  split
  · omega
  · omega

/-! ## Months -/

theorem daysInMonth_le (year month : Nat) : daysInMonth year month ≤ 31 := by
  unfold daysInMonth
  split
  · split
    · omega
    · omega
  · split
    · omega
    · omega

/-- A month moves the days in front by its length. -/
theorem daysBeforeMonth_succ (year : Nat) {month : Nat} (h : 1 ≤ month) :
    daysBeforeMonth year (month + 1) = daysBeforeMonth year month + daysInMonth year month := by
  obtain ⟨m, rfl⟩ : ∃ m, month = m + 1 := ⟨month - 1, by omega⟩
  rfl

theorem daysBeforeMonth_eq_sum (year : Nat) {month : Nat} (h : 1 ≤ month) :
    daysBeforeMonth year month = ∑ m ∈ Finset.Ico 1 month, daysInMonth year m := by
  induction month, h using Nat.le_induction with
  | base => rfl
  | succ month h ih => rw [daysBeforeMonth_succ year h, Finset.sum_Ico_succ_top h, ih]

/-- The months fill the year. -/
theorem daysBeforeMonth_thirteen (year : Nat) : daysBeforeMonth year 13 = yearLength year := by
  unfold yearLength
  cases hleap : isLeap year with
  | true => simp [daysBeforeMonth, daysInMonth, hleap]
  | false => simp [daysBeforeMonth, daysInMonth, hleap]

theorem daysBeforeMonth_le (year : Nat) {month later : Nat} (h : 1 ≤ month) (hle : month ≤ later) :
    daysBeforeMonth year month ≤ daysBeforeMonth year later := by
  induction later, hle using Nat.le_induction with
  | base => exact Nat.le_refl _
  | succ later hle ih =>
    rw [daysBeforeMonth_succ year (h.trans hle)]
    omega

/-- No day of a year lies in two months. -/
theorem month_unique {year n month month' : Nat} (hfrom : daysBeforeMonth year month ≤ n)
    (hto : n < daysBeforeMonth year (month + 1)) (hfrom' : daysBeforeMonth year month' ≤ n)
    (hto' : n < daysBeforeMonth year (month' + 1)) : month = month' := by
  rcases Nat.lt_trichotomy month month' with hlt | heq | hlt
  · have hle := daysBeforeMonth_le year (Nat.le_add_left 1 month) (Nat.succ_le_of_lt hlt)
    omega
  · exact heq
  · have hle := daysBeforeMonth_le year (Nat.le_add_left 1 month') (Nat.succ_le_of_lt hlt)
    omega

/-- Looking back from a month behind the day finds the month of the day. -/
theorem monthOf_spec {year n fuel : Nat} (h : n < daysBeforeMonth year (fuel + 1)) :
    1 ≤ monthOf year n fuel ∧ monthOf year n fuel ≤ fuel ∧
      daysBeforeMonth year (monthOf year n fuel) ≤ n ∧
      n < daysBeforeMonth year (monthOf year n fuel + 1) := by
  induction fuel with
  | zero => exact absurd h (Nat.not_lt_zero n)
  | succ fuel ih =>
    unfold monthOf
    by_cases hfrom : daysBeforeMonth year (fuel + 1) ≤ n
    · rw [if_pos hfrom]
      exact ⟨Nat.le_add_left 1 fuel, Nat.le_refl _, hfrom, h⟩
    · rw [if_neg hfrom]
      obtain ⟨hone, hle, hmonth⟩ := ih (Nat.lt_of_not_le hfrom)
      exact ⟨hone, Nat.le_succ_of_le hle, hmonth⟩

end Date

/-! ## Wall clocks -/

/-- Year, month and day, and the time of day. -/
structure WallClock where
  year : Nat
  month : Nat
  day : Nat
  hour : Nat
  minute : Nat
  second : Nat
  micro : Nat
deriving DecidableEq, Repr

namespace WallClock

/-- There is such a day in the years 1 to 9999, and such a time of day. -/
structure IsValid (w : WallClock) : Prop where
  year : 1 ≤ w.year ∧ w.year ≤ 9999
  month : 1 ≤ w.month ∧ w.month ≤ 12
  day : 1 ≤ w.day ∧ w.day ≤ Date.daysInMonth w.year w.month
  hour : w.hour < 24
  minute : w.minute < 60
  second : w.second < 60
  micro : w.micro < 1000000

instance : DecidablePred IsValid := fun w =>
  decidable_of_iff ((1 ≤ w.year ∧ w.year ≤ 9999) ∧ (1 ≤ w.month ∧ w.month ≤ 12) ∧
      (1 ≤ w.day ∧ w.day ≤ Date.daysInMonth w.year w.month) ∧ w.hour < 24 ∧ w.minute < 60 ∧ w.second < 60 ∧
      w.micro < 1000000)
    ⟨fun ⟨year, month, day, hour, minute, second, micro⟩ => ⟨year, month, day, hour, minute, second, micro⟩,
      fun ⟨year, month, day, hour, minute, second, micro⟩ => ⟨year, month, day, hour, minute, second, micro⟩⟩

/-- The days from the start of the year 1 to the day. -/
def days (w : WallClock) : Nat :=
  ∑ year ∈ Finset.Ico 1 w.year, Date.yearLength year +
    ∑ month ∈ Finset.Ico 1 w.month, Date.daysInMonth w.year month + (w.day - 1)

/-- The microseconds from the start of the year 1. -/
def micros (w : WallClock) : Nat :=
  (((w.days * 24 + w.hour) * 60 + w.minute) * 60 + w.second) * 1000000 + w.micro

variable {w w' : WallClock}

theorem IsValid.days_eq (h : w.IsValid) :
    w.days = Date.daysBeforeYear w.year + Date.daysBeforeMonth w.year w.month + (w.day - 1) := by
  rw [Date.daysBeforeYear_eq_sum h.year.1, Date.daysBeforeMonth_eq_sum _ h.month.1]
  rfl

/-- The day of the year of a valid wall clock lies in its month. -/
theorem IsValid.day_of_year (h : w.IsValid) :
    Date.daysBeforeMonth w.year w.month + (w.day - 1) < Date.daysBeforeMonth w.year (w.month + 1) := by
  have hday := h.day
  rw [Date.daysBeforeMonth_succ _ h.month.1]
  omega

/-- And its day lies in its year. -/
theorem IsValid.days_lt (h : w.IsValid) : w.days < Date.daysBeforeYear (w.year + 1) := by
  have hmonth := h.day_of_year
  have hlast := Date.daysBeforeMonth_le w.year (Nat.le_add_left 1 w.month) (Nat.succ_le_succ h.month.2)
  rw [Date.daysBeforeMonth_thirteen] at hlast
  rw [h.days_eq, Date.daysBeforeYear_succ h.year.1]
  omega

/-- Two wall clocks on the same day show the same year, month and day. -/
theorem day_unique (h : w.IsValid) (h' : w'.IsValid) (hdays : w.days = w'.days) :
    w.year = w'.year ∧ w.month = w'.month ∧ w.day = w'.day := by
  have hyear : w.year = w'.year := by
    refine Date.year_unique ?_ h.days_lt ?_ (hdays ▸ h'.days_lt)
    · rw [h.days_eq]
      omega
    · rw [hdays, h'.days_eq]
      omega
  rw [h.days_eq, h'.days_eq, ← hyear] at hdays
  have hmonth : w.month = w'.month := by
    have hbehind' := h'.day_of_year
    rw [← hyear] at hbehind'
    refine Date.month_unique (Nat.le_add_right _ _) h.day_of_year ?_ ?_
    · omega
    · omega
  rw [← hmonth] at hdays
  have hday := h.day
  have hday' := h'.day
  exact ⟨hyear, hmonth, by omega⟩

/-- No two wall clocks denote the same moment. -/
theorem eq_of_micros_eq (h : w.IsValid) (h' : w'.IsValid) (hmicros : w.micros = w'.micros) : w = w' := by
  have ⟨_, _, _, hhour, hminute, hsecond, hmicro⟩ := h
  have ⟨_, _, _, hhour', hminute', hsecond', hmicro'⟩ := h'
  unfold micros at hmicros
  obtain ⟨hyear, hmonth, hday⟩ := day_unique h h' (by omega)
  have hclock : w.hour = w'.hour ∧ w.minute = w'.minute ∧ w.second = w'.second ∧ w.micro = w'.micro := by
    omega
  cases w
  cases w'
  simp_all

end WallClock

namespace Moment

/-- What a clock on the wall shows. -/
def wall (m : Moment) : WallClock where
  year := m.date.civil.1
  month := m.date.civil.2.1
  day := m.date.civil.2.2
  hour := m.micros % dayMicros / 3600000000
  minute := m.micros / 60000000 % 60
  second := m.micros / 1000000 % 60
  micro := m.micros % 1000000

end Moment

namespace Date

/-- A day of the calendar shows a year, a month and a day that there are, and they lead back to it. -/
theorem civil_spec {d : Date} (h : d.number < dayCount) :
    (1 ≤ d.civil.1 ∧ d.civil.1 ≤ 9999) ∧ (1 ≤ d.civil.2.1 ∧ d.civil.2.1 ≤ 12) ∧
      (1 ≤ d.civil.2.2 ∧ d.civil.2.2 ≤ daysInMonth d.civil.1 d.civil.2.1) ∧
      d.number = daysBeforeYear d.civil.1 + daysBeforeMonth d.civil.1 d.civil.2.1 + (d.civil.2.2 - 1) := by
  obtain ⟨hone, hfrom, hto⟩ := yearOf_spec d.number
  obtain ⟨year, hyear⟩ : ∃ year, year = yearOf d.number := ⟨_, rfl⟩
  rw [← hyear] at hone hfrom hto
  have hlast : year ≤ 9999 := by
    by_contra hlate
    have hle : dayCount ≤ daysBeforeYear year := daysBeforeYear_le (by decide) (Nat.lt_of_not_le hlate)
    omega
  rw [daysBeforeYear_succ hone, ← daysBeforeMonth_thirteen] at hto
  have hrest : d.number - daysBeforeYear year < daysBeforeMonth year 13 := by omega
  obtain ⟨hmonth_one, hmonth_le, hbefore, hbehind⟩ := monthOf_spec hrest
  obtain ⟨month, hmonth⟩ : ∃ month, month = monthOf year (d.number - daysBeforeYear year) 12 := ⟨_, rfl⟩
  rw [← hmonth] at hmonth_one hmonth_le hbefore hbehind
  rw [daysBeforeMonth_succ year hmonth_one] at hbehind
  have hcivil : d.civil =
      (year, month, d.number - daysBeforeYear year - daysBeforeMonth year month + 1) := by
    rw [hmonth, hyear]
    rfl
  rw [hcivil]
  simp only
  omega

/-- The day of a year, month and day of the month is the one that shows them. -/
theorem ofCivil?_eq_some_iff {year month day : Nat} {d : Date} :
    ofCivil? year month day = some d ↔
      (WallClock.mk year month day 0 0 0 0).IsValid ∧
        d.number = (WallClock.mk year month day 0 0 0 0).days := by
  unfold ofCivil?
  constructor
  · intro h
    split at h
    · next hcivil =>
      obtain ⟨hone, hlast, hmonth, hmonths, hday, hdays⟩ := hcivil
      have hvalid : (WallClock.mk year month day 0 0 0 0).IsValid :=
        ⟨⟨hone, hlast⟩, ⟨hmonth, hmonths⟩, ⟨hday, hdays⟩, Nat.zero_lt_succ _,
          Nat.zero_lt_succ _, Nat.zero_lt_succ _, Nat.zero_lt_succ _⟩
      cases h
      exact ⟨hvalid, hvalid.days_eq.symm⟩
    · cases h
  · rintro ⟨hvalid, hnumber⟩
    rw [if_pos ⟨hvalid.year.1, hvalid.year.2, hvalid.month.1, hvalid.month.2, hvalid.day.1, hvalid.day.2⟩]
    rw [hvalid.days_eq] at hnumber
    cases d
    exact congrArg _ (congrArg _ hnumber.symm)

end Date

namespace Moment

variable {m : Moment}

/-- Every moment of the calendar shows a day that there is, and a time of day. -/
theorem isValid_wall (h : m.micros < momentCount) : m.wall.IsValid := by
  have hday : m.date.number < Date.dayCount := Nat.div_lt_of_lt_mul (by rwa [Nat.mul_comm])
  obtain ⟨hyear, hmonth, hday, -⟩ := Date.civil_spec hday
  refine ⟨hyear, hmonth, hday, ?_, ?_, ?_, ?_⟩
  · show m.micros % dayMicros / 3600000000 < 24
    unfold dayMicros
    omega
  · exact Nat.mod_lt _ (by decide)
  · exact Nat.mod_lt _ (by decide)
  · exact Nat.mod_lt _ (by decide)

/-- What it shows leads back to it. -/
theorem micros_wall (h : m.micros < momentCount) : m.wall.micros = m.micros := by
  have hday : m.date.number < Date.dayCount := Nat.div_lt_of_lt_mul (by rwa [Nat.mul_comm])
  have hnumber := (Date.civil_spec hday).2.2.2
  have hdays : m.wall.days = m.micros / 86400000000 := (isValid_wall h).days_eq.trans hnumber.symm
  unfold WallClock.micros
  rw [hdays]
  show (((m.micros / 86400000000 * 24 + m.micros % 86400000000 / 3600000000) * 60 +
    m.micros / 60000000 % 60) * 60 + m.micros / 1000000 % 60) * 1000000 + m.micros % 1000000 = m.micros
  omega

/-- A moment is the one at which a wall clock shows what it shows. -/
theorem eq_iff_wall {w : WallClock} (h : m.micros < momentCount) (hw : w.IsValid) :
    m.micros = w.micros ↔ m.wall = w := by
  constructor
  · intro hmicros
    exact WallClock.eq_of_micros_eq (isValid_wall h) hw ((micros_wall h).trans hmicros)
  · intro hwall
    rw [← hwall, micros_wall h]

end Moment

namespace WallClock

/-- The years 1 to 9999 are those of the calendar. -/
theorem IsValid.micros_lt {w : WallClock} (h : w.IsValid) : w.micros < Moment.momentCount := by
  have hdays : w.days < Date.dayCount :=
    h.days_lt.trans_le (Date.daysBeforeYear_le (Nat.le_add_left 1 _) (Nat.succ_le_succ h.year.2))
  have ⟨_, _, _, hhour, hminute, hsecond, hmicro⟩ := h
  unfold micros Moment.momentCount Moment.dayMicros
  omega

end WallClock

/-- The naive wall clock at an instant is the one that denotes it, if there is one in the calendar. -/
theorem Moment.wall_ofMicros? {n : Int} {w : WallClock} :
    (Moment.ofMicros? n).map Moment.wall = some w ↔ w.IsValid ∧ (w.micros : Int) = n := by
  unfold Moment.ofMicros?
  constructor
  · intro h
    obtain ⟨m, hm, rfl⟩ := Option.map_eq_some_iff.mp h
    split at hm
    · next hrange =>
      cases hm
      have hlt : (⟨n.toNat⟩ : Moment).micros < Moment.momentCount := by
        show n.toNat < Moment.momentCount
        omega
      rw [Moment.micros_wall hlt]
      exact ⟨Moment.isValid_wall hlt, Int.toNat_of_nonneg hrange.1⟩
    · cases hm
  · rintro ⟨hw, rfl⟩
    have hlt := hw.micros_lt
    rw [if_pos ⟨Int.natCast_nonneg _, by exact_mod_cast hlt⟩, Option.map_some, Int.toNat_natCast]
    exact congrArg some ((Moment.eq_iff_wall hlt hw).mp rfl)

/-! ## Weeks -/

namespace Date

/-- The day is the given day of the given week of the year. A week belongs to the year of its Thursday,
    and the weeks of a year are counted by their Thursdays. -/
structure InWeek (d : Date) (year week weekday : Nat) : Prop where
  weekday : d.number % 7 + 1 = weekday
  starts : daysBeforeYear year ≤ d.number / 7 * 7 + 3
  ends : d.number / 7 * 7 + 3 < daysBeforeYear (year + 1)
  week : (d.number / 7 * 7 + 3 - daysBeforeYear year) / 7 + 1 = week

/-- The first Monday lies at most three days in front of the year, and its Thursday in it. -/
theorem firstMonday_spec (year : Nat) : ∃ offset : Nat, offset < 7 ∧
    firstMonday year + 3 = daysBeforeYear year + offset ∧
    (firstMonday year) % 7 = 0 ∧
    (isLongYear year = true ↔ offset = 0 ∨ offset = 1 ∧ isLeap year = true) := by
  unfold firstMonday isLongYear
  generalize daysBeforeYear year = first
  have hweekday : ((first : Int).emod 7) = ((first % 7 : Nat) : Int) := rfl
  simp only [hweekday]
  obtain ⟨r, hr, hr_lt⟩ : ∃ r, first % 7 = r ∧ r < 7 := ⟨_, rfl, Nat.mod_lt _ (by decide)⟩
  rw [hr]
  have hlong : (r == 3 || r == 2 && isLeap year) = true ↔ r = 3 ∨ r = 2 ∧ isLeap year = true := by
    simp
  rw [hlong]
  by_cases hlate : 3 < (r : Int)
  · rw [if_pos hlate]
    exact ⟨10 - r, by omega, by omega, by omega, by omega⟩
  · rw [if_neg hlate]
    refine ⟨3 - r, by omega, by omega, by omega, ?_⟩
    rw [show 3 - r = 0 ↔ r = 3 by omega, show 3 - r = 1 ↔ r = 2 by omega]

/-- The day of a week and a weekday is the one that lies there, if it is one of the calendar. -/
theorem ofWeek?_eq_some_iff {year week weekday : Nat} {d : Date} :
    ofWeek? year week weekday = some d ↔
      d.number < dayCount ∧ (1 ≤ year ∧ year ≤ 9999) ∧ d.InWeek year week weekday := by
  obtain ⟨offset, hoffset, hfirst, hmonday, hlong⟩ := firstMonday_spec year
  have hlength (h : 1 ≤ year) : daysBeforeYear (year + 1) = daysBeforeYear year +
      if isLeap year = true then 366 else 365 := daysBeforeYear_succ h
  unfold ofWeek?
  constructor
  · intro h
    split at h
    · next hweek =>
      obtain ⟨hone, hlast, hweek_one, hweek_last, hweekday_one, hweekday_last⟩ := hweek
      have hlength := hlength hone
      simp only at h
      split at h
      · next hn =>
        cases h
        -- The number of the day, without the calendar's own counting.
        obtain ⟨n, hnumber⟩ : ∃ n : Nat, (n : Int) =
            firstMonday year + ((week - 1) * 7 + (weekday - 1) : Nat) := ⟨_, Int.toNat_of_nonneg hn.1⟩
        rw [← hnumber] at hn ⊢
        rw [Int.toNat_natCast]
        have hthursday : n / 7 * 7 + 3 = daysBeforeYear year + offset + 7 * (week - 1) := by omega
        refine ⟨?_, ⟨hone, hlast⟩, ?_, ?_, ?_, ?_⟩
        · show n < dayCount
          omega
        · show n % 7 + 1 = weekday
          omega
        · show daysBeforeYear year ≤ n / 7 * 7 + 3
          omega
        · show n / 7 * 7 + 3 < daysBeforeYear (year + 1)
          rw [hthursday, hlength]
          rcases hweek_last with hweek | ⟨rfl, hlongYear⟩
          · split
            · omega
            · omega
          · rcases hlong.mp hlongYear with hzero | ⟨hone, hleap⟩
            · split
              · omega
              · omega
            · rw [if_pos hleap]
              omega
        · show (n / 7 * 7 + 3 - daysBeforeYear year) / 7 + 1 = week
          omega
      · cases h
    · cases h
  · rintro ⟨hn, ⟨hone, hlast⟩, hweekday, hstarts, hends, hweek⟩
    have hlength := hlength hone
    obtain ⟨n, rfl⟩ : ∃ n, d = ⟨n⟩ := ⟨d.number, rfl⟩
    simp only at hn hweekday hstarts hends hweek
    -- The Thursday is so many weeks behind the first one.
    have hthursday : n / 7 * 7 + 3 = daysBeforeYear year + offset + 7 * (week - 1) := by omega
    rw [hthursday, hlength] at hends
    have hweeks : week ≤ 52 ∨ (week = 53 ∧ isLongYear year = true) := by
      by_cases hshort : week ≤ 52
      · exact .inl hshort
      · refine .inr ⟨?_, hlong.mpr ?_⟩
        · split at hends
          · omega
          · omega
        · by_cases hleap : isLeap year = true
          · rw [if_pos hleap] at hends
            exact (Nat.le_one_iff_eq_zero_or_eq_one.mp (by omega)).imp_right fun h => ⟨h, hleap⟩
          · rw [if_neg hleap] at hends
            exact .inl (by omega)
    have hnumber : firstMonday year + ((week - 1) * 7 + (weekday - 1) : Nat) = (n : Int) := by omega
    rw [if_pos ⟨hone, hlast, by omega, hweeks, by omega, by omega⟩]
    simp only [hnumber]
    rw [if_pos ⟨by omega, by omega⟩, Int.toNat_natCast]

/-- No day lies in a week behind the 53rd, or behind Sunday. -/
theorem InWeek.le {d : Date} {year week weekday : Nat}
    (hd : d.number < dayCount) (hyear : 1 ≤ year ∧ year ≤ 9999) (h : d.InWeek year week weekday) :
    week ≤ 53 ∧ weekday ≤ 7 := by
  have hfound := ofWeek?_eq_some_iff.mpr ⟨hd, hyear, h⟩
  unfold ofWeek? at hfound
  split at hfound
  · omega
  · cases hfound

end Date
end Signoff
