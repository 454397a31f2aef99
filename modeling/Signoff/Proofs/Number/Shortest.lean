import Mathlib.Algebra.Order.Field.Power
import Mathlib.Data.Rat.Cast.Order
import Mathlib.Tactic.FieldSimp
import Mathlib.Tactic.Linarith
import Mathlib.Tactic.Positivity
import Mathlib.Tactic.Ring
import Signoff.Number.Shortest

/-! # The decimal of a double belongs to that double alone

    A double is nearest to an interval of numbers, and the shortest decimal is
    looked for in this interval:

    * `Decimal.value`: the number that a decimal stands for.
    * `Binary.Grid`: significands and exponents of finite doubles.
      `Binary.Rounds`: the numbers that a double is nearest to.
    * `Rounds.unique`: no number is nearest to two doubles.
    * `value_magnitude_le`: the first digit of a decimal stands where the double has
      its first digit, or behind it.
    * `exists_withDigits?`: so seventeen digits are enough.
    * `rounds_shortest`: the shortest decimal is in the interval of its double.
-/

namespace Signoff

/-- The number that a decimal stands for. -/
def Decimal.value (d : Decimal) : ℚ := d.digits * 10 ^ d.exponent

namespace Binary

variable {m m' : Nat} {q q' : Int} {r : ℚ}

/-- The significand and the exponent of a finite double. Only the smallest exponent goes with
    significands of fewer than 53 bits. -/
structure Grid (m : Nat) (q : Int) : Prop where
  lt : m < 2 ^ 53
  ge : -1074 ≤ q
  le : q ≤ 971
  normal : -1074 < q → 2 ^ 52 ≤ m

/-- The lower end of the interval, in quarters of a unit. The double below a power of two is only half a
    unit away. -/
def lowEnd (m : Nat) (q : Int) : Nat :=
  if m = 2 ^ 52 ∧ -1074 < q then 4 * m - 1 else 4 * m - 2

/-- The numbers that a double is nearest to. The ends of the interval belong to the double whose
    significand is even. -/
def Rounds (m : Nat) (q : Int) (r : ℚ) : Prop :=
  if m % 2 = 0 then lowEnd m q ≤ r * 2 ^ (2 - q) ∧ r * 2 ^ (2 - q) ≤ 4 * m + 2
  else lowEnd m q < r * 2 ^ (2 - q) ∧ r * 2 ^ (2 - q) < 4 * m + 2

namespace Rounds

theorem bounds (h : Rounds m q r) : lowEnd m q ≤ r * 2 ^ (2 - q) ∧ r * 2 ^ (2 - q) ≤ 4 * m + 2 := by
  unfold Rounds at h
  split at h
  · exact h
  · exact ⟨h.1.le, h.2.le⟩

theorem strict (h : Rounds m q r) (hodd : m % 2 = 1) :
    lowEnd m q < r * 2 ^ (2 - q) ∧ r * 2 ^ (2 - q) < 4 * m + 2 := by
  unfold Rounds at h
  rwa [if_neg (by omega)] at h

/-- The numbers strictly between the ends are in the interval. -/
theorem of_strict (hlow : lowEnd m q < r * 2 ^ (2 - q)) (hhigh : r * 2 ^ (2 - q) < 4 * m + 2) :
    Rounds m q r := by
  unfold Rounds
  split
  · exact ⟨hlow.le, hhigh.le⟩
  · exact ⟨hlow, hhigh⟩

theorem pos (hm : 0 < m) (h : Rounds m q r) : 0 < r := by
  have hlow : 0 < lowEnd m q := by
    unfold lowEnd
    split <;> omega
  have hlow : (0 : ℚ) < lowEnd m q := by exact_mod_cast hlow
  have hscaled : 0 < r * 2 ^ (2 - q) := hlow.trans_le h.bounds.1
  exact pos_of_mul_pos_left hscaled (by positivity)

/-- Intervals with one exponent follow one another. -/
theorem not_of_lt_significand (hm : m < m') (h : Rounds m q r) : ¬ Rounds m' q r := by
  intro h'
  have hends : 4 * m + 2 ≤ lowEnd m' q := by
    unfold lowEnd
    split <;> omega
  have hcast : (4 * m + 2 : ℚ) ≤ lowEnd m' q := by exact_mod_cast hends
  -- Where the intervals touch, the end belongs to one of the two.
  rcases Nat.mod_two_eq_zero_or_one m with heven | hodd
  · rcases Nat.mod_two_eq_zero_or_one m' with heven' | hodd'
    · have hapart : 4 * m + 2 < lowEnd m' q := by
        unfold lowEnd
        split <;> omega
      have hapart : (4 * m + 2 : ℚ) < lowEnd m' q := by exact_mod_cast hapart
      linarith [h.bounds.2, h'.bounds.1]
    · linarith [h.bounds.2, (h'.strict hodd').1]
  · linarith [(h.strict hodd).2, h'.bounds.1]

/-- The intervals with a greater exponent follow those with a smaller one. -/
theorem not_of_lt_exponent (hq : q < q') (hgrid : Grid m q) (hgrid' : Grid m' q')
    (h : Rounds m q r) : ¬ Rounds m' q' r := by
  intro h'
  have hm := hgrid.lt
  have habove : -1074 < q' := hgrid.ge.trans_lt hq
  have hm' := hgrid'.normal habove
  have hlow : 2 ^ 54 ≤ lowEnd m' q' + 1 := by
    unfold lowEnd
    split <;> omega
  have hlow : (2 ^ 54 : ℚ) ≤ lowEnd m' q' + 1 := by exact_mod_cast hlow
  have hunit : r * 2 ^ (2 - q) = r * 2 ^ (2 - q') * 2 ^ (q' - q) := by
    rw [mul_assoc, ← zpow_add₀ two_ne_zero]
    congr 2
    omega
  have htwo : (2 : ℚ) ^ (1 : ℤ) ≤ 2 ^ (q' - q) := zpow_le_zpow_right₀ one_le_two (by omega)
  have hscaled : r * 2 ^ (2 - q') * 2 ≤ r * 2 ^ (2 - q) := by
    rw [hunit]
    refine mul_le_mul_of_nonneg_left (by simpa using htwo) ?_
    linarith [h'.bounds.1]
  rcases Nat.mod_two_eq_zero_or_one m with heven | hodd
  · have hm : m + 2 ≤ 2 ^ 53 := by omega
    have hm : (m + 2 : ℚ) ≤ 2 ^ 53 := by exact_mod_cast hm
    linarith [h.bounds.2, h'.bounds.1]
  · have hm : (m + 1 : ℚ) ≤ 2 ^ 53 := by exact_mod_cast hm
    linarith [(h.strict hodd).2, h'.bounds.1]

/-- No number is nearest to two doubles. -/
theorem unique (hgrid : Grid m q) (hgrid' : Grid m' q') (h : Rounds m q r) (h' : Rounds m' q' r) :
    m = m' ∧ q = q' := by
  rcases lt_trichotomy q q' with hlt | rfl | hlt
  · exact absurd h' (not_of_lt_exponent hlt hgrid hgrid' h)
  · rcases lt_trichotomy m m' with hlt | rfl | hlt
    · exact absurd h' (not_of_lt_significand hlt h)
    · exact ⟨rfl, rfl⟩
    · exact absurd h (not_of_lt_significand hlt h')
  · exact absurd h (not_of_lt_exponent hlt hgrid' hgrid h')

end Rounds

end Binary

namespace Decimal

open Binary (Grid Rounds lowEnd)

variable {m : Nat} {q : Int}

/-! ## Factors -/

/-- Splitting an exponent by its sign. -/
theorem pow_toNat {b : ℚ} (hb : b ≠ 0) (s : Int) : b ^ s.toNat = b ^ s * b ^ (-s).toNat := by
  rw [← zpow_natCast, ← zpow_natCast, ← zpow_add₀ hb]
  congr 1
  omega

theorem scaleFactors_snd_pos (s t : Int) : (0 : ℚ) < (scaleFactors s t).2 := by
  have hpos : 0 < (scaleFactors s t).2 := Nat.mul_pos (Nat.pow_pos (by decide)) (Nat.pow_pos (by decide))
  exact_mod_cast hpos

/-- The factors make up a power of ten times a power of two. -/
theorem scaleFactors_fst (s t : Int) :
    ((scaleFactors s t).1 : ℚ) = 10 ^ s * 2 ^ t * (scaleFactors s t).2 := by
  unfold scaleFactors
  simp only [Nat.pow_eq, Nat.cast_mul, Nat.cast_pow, Nat.cast_ofNat]
  rw [pow_toNat (by norm_num) s, pow_toNat (by norm_num) t]
  ring

/-- Cross-multiplying compares multiples of such a product. -/
theorem scale_le_iff (s t : Int) (a b : Nat) :
    a * (scaleFactors s t).1 ≤ b * (scaleFactors s t).2 ↔ (a : ℚ) * (10 ^ s * 2 ^ t) ≤ b := by
  rw [← Nat.cast_le (α := ℚ), Nat.cast_mul, Nat.cast_mul, scaleFactors_fst, ← mul_assoc,
    mul_le_mul_iff_left₀ (scaleFactors_snd_pos s t)]

theorem le_scale_iff (s t : Int) (a b : Nat) :
    b * (scaleFactors s t).2 ≤ a * (scaleFactors s t).1 ↔ (b : ℚ) ≤ a * (10 ^ s * 2 ^ t) := by
  rw [← Nat.cast_le (α := ℚ), Nat.cast_mul, Nat.cast_mul, scaleFactors_fst, ← mul_assoc,
    mul_le_mul_iff_left₀ (scaleFactors_snd_pos s t)]

/-! ## The first digit -/

/-- The guess at the first digit of a power of two is at most one too high, for all the powers that are
    doubles or lie beside them. -/
theorem scaleFactors_guess : (List.range 2098).all fun k =>
    decide ((scaleFactors (((k : Int) - 1074) * 30103 / 100000 - 1) (1074 - (k : Int))).1 ≤
      (scaleFactors (((k : Int) - 1074) * 30103 / 100000 - 1) (1074 - (k : Int))).2) := by
  decide +kernel

/-- A power of ten two places below the guess is not above the power of two. -/
theorem pow_guess_le {e : Int} (hge : -1074 ≤ e) (hle : e < 1024) :
    (10 : ℚ) ^ (e * 30103 / 100000 - 1) ≤ 2 ^ e := by
  obtain ⟨k, hk⟩ : ∃ k : Nat, e = (k : Int) - 1074 := ⟨(e + 1074).toNat, by omega⟩
  have hmem : k ∈ List.range 2098 := List.mem_range.mpr (by omega)
  have hfactors := of_decide_eq_true (List.all_eq_true.mp scaleFactors_guess k hmem)
  rw [← hk, show 1074 - (k : Int) = -e by omega] at hfactors
  have hscaled := (scale_le_iff (e * 30103 / 100000 - 1) (-e) 1 1).mp (by simpa using hfactors)
  rw [zpow_neg, Nat.cast_one, one_mul, ← div_eq_mul_inv] at hscaled
  exact (div_le_one (by positivity)).mp hscaled

/-- The power of ten at the magnitude of a double is not above it. -/
theorem pow_magnitude_le (hm : 0 < m) (hgrid : Grid m q) :
    (10 : ℚ) ^ magnitude m q ≤ m * 2 ^ q := by
  have hreach (p : Int) (h : (scaleFactors p (-q)).1 ≤ m * (scaleFactors p (-q)).2) :
      (10 : ℚ) ^ p ≤ m * 2 ^ q := by
    have hscaled := (scale_le_iff p (-q) 1 m).mp (by simpa using h)
    rw [zpow_neg, Nat.cast_one, one_mul, ← div_eq_mul_inv] at hscaled
    exact (div_le_iff₀ (by positivity)).mp hscaled
  unfold magnitude
  extract_lets reaches guess
  split_ifs with hnext hguess
  · exact hreach _ (by simpa [reaches] using hnext)
  · exact hreach _ (by simpa [reaches] using hguess)
  · -- The power of two at the first bit is not above the double.
    have hlog : m.log2 < 53 := (Nat.log2_lt (by omega)).mpr hgrid.lt
    have hbit : ((2 ^ m.log2 : Nat) : ℚ) ≤ m := by exact_mod_cast Nat.log2_self_le (by omega)
    have hge := hgrid.ge
    have hle := hgrid.le
    calc (10 : ℚ) ^ (guess - 1) ≤ 2 ^ ((m.log2 : Int) + q) := pow_guess_le (by omega) (by omega)
      _ = (2 ^ m.log2 : Nat) * 2 ^ q := by
        rw [zpow_add₀ two_ne_zero, zpow_natCast, Nat.cast_pow, Nat.cast_ofNat]
      _ ≤ m * 2 ^ q := mul_le_mul_of_nonneg_right hbit (by positivity)

/-! ## Decimals in the interval -/

/-- What is tested of a decimal is that its double is nearest to it. -/
theorem roundsBack_iff (d : Nat) (s : Int) :
    roundsBack (lowEnd m q) (4 * m + 2) (m % 2 = 0) s q d = true ↔
      Rounds m q (Decimal.value ⟨d, s⟩) := by
  have hvalue : (d : ℚ) * (10 ^ s * 2 ^ (2 - q)) = Decimal.value ⟨d, s⟩ * 2 ^ (2 - q) :=
    (mul_assoc ..).symm
  have hhigh : ((4 * m + 2 : Nat) : ℚ) = 4 * m + 2 := by
    rw [Nat.cast_add, Nat.cast_mul, Nat.cast_ofNat, Nat.cast_ofNat]
  unfold roundsBack Rounds
  simp only [decide_eq_true_eq]
  split_ifs
  · rw [Bool.and_eq_true, decide_eq_true_eq, decide_eq_true_eq, le_scale_iff, scale_le_iff, hvalue,
      hhigh]
  · rw [Bool.and_eq_true, decide_eq_true_eq, decide_eq_true_eq, ← not_le, ← not_le, le_scale_iff,
      scale_le_iff, hvalue, hhigh, not_le, not_le]

/-- How often a unit goes into a number, rounded to the nearest. -/
def nearestMultiple (n unit : Nat) : Nat :=
  if 2 * (n % unit) < unit then n / unit
  else if unit < 2 * (n % unit) then n / unit + 1
  else if n / unit % 2 = 0 then n / unit else n / unit + 1

/-- The nearest multiple of a unit is no further away than half of the unit. -/
theorem nearestMultiple_bounds {n unit : Nat} (hunit : 0 < unit) :
    2 * (nearestMultiple n unit * unit) ≤ 2 * n + unit ∧
      2 * n ≤ 2 * (nearestMultiple n unit * unit) + unit := by
  have hdiv : n / unit * unit + n % unit = n := Nat.div_add_mod' n unit
  have hrest : n % unit < unit := Nat.mod_lt _ hunit
  have hnext : (n / unit + 1) * unit = n / unit * unit + unit := Nat.succ_mul ..
  have hcases : nearestMultiple n unit = n / unit ∧ 2 * (n % unit) ≤ unit ∨
      nearestMultiple n unit = n / unit + 1 ∧ unit ≤ 2 * (n % unit) := by
    unfold nearestMultiple
    split_ifs <;> omega
  rcases hcases with ⟨h, hle⟩ | ⟨h, hle⟩
  · rw [h]
    omega
  · rw [h, hnext]
    omega

/-- The grid point nearest to a double, in units of a power of ten. -/
def gridPoint (m : Nat) (q s : Int) : Nat :=
  nearestMultiple (m * (scaleFactors s (-q)).2) (scaleFactors s (-q)).1

/-- Two grid points are tried: the nearest, and the one on the other side of the double. -/
theorem withDigits?_eq (m : Nat) (q p : Int) (count : Nat) :
    ∃ other, withDigits? m q p count =
      if roundsBack (lowEnd m q) (4 * m + 2) (m % 2 = 0) (p - count + 1) q
        (gridPoint m q (p - count + 1)) then some ⟨gridPoint m q (p - count + 1), p - count + 1⟩
      else if roundsBack (lowEnd m q) (4 * m + 2) (m % 2 = 0) (p - count + 1) q other then
        some ⟨other, p - count + 1⟩
      else none :=
  ⟨_, rfl⟩

/-- Every decimal that is found is in the interval. -/
theorem rounds_of_withDigits? {p : Int} {count : Nat} {d : Decimal}
    (h : withDigits? m q p count = some d) : Rounds m q d.value := by
  obtain ⟨other, heq⟩ := withDigits?_eq m q p count
  rw [heq] at h
  split_ifs at h with hnearest hother
  · cases h
    exact (roundsBack_iff ..).mp hnearest
  · cases h
    exact (roundsBack_iff ..).mp hother

/-- The grid point is no further away from the double than half a unit of the grid. -/
theorem gridPoint_bounds (m : Nat) (q s : Int) :
    2 * (gridPoint m q s * ((10 : ℚ) ^ s * 2 ^ (-q))) ≤ 2 * m + 10 ^ s * 2 ^ (-q) ∧
      2 * (m : ℚ) ≤ 2 * (gridPoint m q s * (10 ^ s * 2 ^ (-q))) + 10 ^ s * 2 ^ (-q) := by
  have hdown := scaleFactors_snd_pos s (-q)
  have hup := scaleFactors_fst s (-q)
  have hpos : (0 : ℚ) < (scaleFactors s (-q)).1 := by
    rw [hup]
    positivity
  obtain ⟨habove, hbelow⟩ :=
    nearestMultiple_bounds (n := m * (scaleFactors s (-q)).2) (by exact_mod_cast hpos)
  have habove : (2 * (gridPoint m q s * (scaleFactors s (-q)).1) : ℚ) ≤
      2 * (m * (scaleFactors s (-q)).2) + (scaleFactors s (-q)).1 := by exact_mod_cast habove
  have hbelow : (2 * (m * (scaleFactors s (-q)).2) : ℚ) ≤
      2 * (gridPoint m q s * (scaleFactors s (-q)).1) + (scaleFactors s (-q)).1 := by
    exact_mod_cast hbelow
  rw [hup] at habove hbelow
  constructor
  · refine le_of_mul_le_mul_right ?_ hdown
    linarith
  · refine le_of_mul_le_mul_right ?_ hdown
    linarith

/-- On a grid of seventeen digits the unit is less than that of the double, and less than half of it where
    the double is a power of two. -/
theorem unit_bounds {p : Int} (hgrid : Grid m q) (hp : (10 : ℚ) ^ p ≤ m * 2 ^ q) :
    (10 : ℚ) ^ (p - 16) * 2 ^ (-q) < 1 ∧
      (m = 2 ^ 52 → 2 * ((10 : ℚ) ^ (p - 16) * 2 ^ (-q)) < 1) := by
  have hsplit : (10 : ℚ) ^ (p - 16) * 10 ^ 16 = 10 ^ p := by
    rw [← zpow_natCast, ← zpow_add₀ (by norm_num)]
    congr 1
    omega
  have hunit : (10 : ℚ) ^ (p - 16) * 2 ^ (-q) * 10 ^ 16 ≤ m := by
    calc (10 : ℚ) ^ (p - 16) * 2 ^ (-q) * 10 ^ 16 = 10 ^ p * 2 ^ (-q) := by rw [← hsplit]; ring
      _ ≤ m * 2 ^ q * 2 ^ (-q) := mul_le_mul_of_nonneg_right hp (by positivity)
      _ = m := by rw [mul_assoc, ← zpow_add₀ two_ne_zero, add_neg_cancel, zpow_zero, mul_one]
  have hlt : (m : ℚ) < 2 ^ 53 := by exact_mod_cast hgrid.lt
  constructor
  · linarith
  · intro hpower
    have hpower : (m : ℚ) = 2 ^ 52 := by exact_mod_cast hpower
    linarith

/-- So seventeen digits are enough to get into the interval. -/
theorem exists_withDigits? {p : Int} (hm : 0 < m) (hgrid : Grid m q)
    (hp : (10 : ℚ) ^ p ≤ m * 2 ^ q) : ∃ d, withDigits? m q p 17 = some d := by
  obtain ⟨other, heq⟩ := withDigits?_eq m q p 17
  have hscale : p - (17 : Nat) + 1 = p - 16 := by omega
  rw [hscale] at heq
  obtain ⟨habove, hbelow⟩ := gridPoint_bounds m q (p - 16)
  obtain ⟨hunit, hhalf⟩ := unit_bounds hgrid hp
  have hvalue : Decimal.value ⟨gridPoint m q (p - 16), p - 16⟩ * 2 ^ (2 - q) =
      4 * (gridPoint m q (p - 16) * (10 ^ (p - 16) * 2 ^ (-q))) := by
    have hfour : (2 : ℚ) ^ (2 - q) = 4 * 2 ^ (-q) := by
      rw [sub_eq_add_neg, zpow_add₀ two_ne_zero]
      norm_num
    simp only [Decimal.value, hfour]
    ring
  have hrounds : Rounds m q (Decimal.value ⟨gridPoint m q (p - 16), p - 16⟩) := by
    refine Rounds.of_strict ?_ ?_
    · rw [hvalue]
      by_cases hpower : m = 2 ^ 52 ∧ -1074 < q
      · have hlow : lowEnd m q + 1 = 4 * m := by
          unfold lowEnd
          rw [if_pos hpower]
          omega
        have hlow : (lowEnd m q + 1 : ℚ) = 4 * m := by exact_mod_cast hlow
        linarith [hhalf hpower.1]
      · have hlow : lowEnd m q + 2 = 4 * m := by
          unfold lowEnd
          rw [if_neg hpower]
          omega
        have hlow : (lowEnd m q + 2 : ℚ) = 4 * m := by exact_mod_cast hlow
        linarith
    · rw [hvalue]
      linarith
  rw [heq, if_pos ((roundsBack_iff ..).mpr hrounds)]
  exact ⟨_, rfl⟩

/-- Zeros at the end do not count. -/
theorem value_stripZeros (fuel : Nat) (d : Decimal) : (stripZeros fuel d).value = d.value := by
  induction fuel generalizing d with
  | zero => rfl
  | succ fuel ih =>
    unfold stripZeros
    split
    · next hzero =>
      have hdigits : d.digits / 10 * 10 = d.digits := by omega
      have hcast : ((d.digits / 10 : Nat) : ℚ) * 10 = d.digits := by exact_mod_cast hdigits
      rw [ih, Decimal.value, Decimal.value, zpow_add_one₀ (by norm_num), ← hcast]
      ring
    · rfl

/-- The shortest decimal is in the interval of its double. -/
theorem rounds_shortest (hm : 0 < m) (hgrid : Grid m q) : Rounds m q (shortest m q).value := by
  obtain ⟨d, hd⟩ := exists_withDigits? hm hgrid (pow_magnitude_le hm hgrid)
  have hsome : ((List.range 17).findSome? fun k => withDigits? m q (magnitude m q) (k + 1)).isSome := by
    rw [List.isSome_findSome?, List.any_eq_true]
    exact ⟨16, List.mem_range.mpr (by decide), by rw [hd]; rfl⟩
  obtain ⟨found, hfound⟩ := Option.isSome_iff_exists.mp hsome
  obtain ⟨k, -, hk⟩ := List.exists_of_findSome?_eq_some hfound
  unfold shortest
  rw [value_stripZeros, hfound]
  exact rounds_of_withDigits? hk

end Decimal

end Signoff
