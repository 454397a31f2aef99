import Signoff.Proofs.Formula.Printed
import Signoff.Proofs.Item.Snapshot
import Signoff.Proofs.Number.Shortest

/-! # Every number has a text of its own

    Two finite doubles are written alike only if they are the same, and no double is
    written like an integer:

    * `Binary.parts?_injective`: a finite double is known by its sign, its
      significand and its exponent.
    * `decimalOf`: the number that is read from digits, a point and an exponent.
      `decimalOf_decimalText`: what a decimal is written as is read as its value.
    * `floatText_injective`: so the text tells in whose interval the number lies.
    * `floatText_ne_intText`: a double is written with a point or an exponent.
-/

namespace Signoff

open Formula (Printed Point Exponent Run)

namespace Binary

variable {x y : Float} {p : Parts}

/-- The parts of a double, and the bits that they are taken from. -/
theorem bits_of_parts? (h : parts? x = some p) :
    ∃ field fraction, field < 2047 ∧ fraction < 2 ^ 52 ∧
      x.toBits.toNat = (if p.negative then 2 ^ 63 else 0) + field * 2 ^ 52 + fraction ∧
      (field = 0 ∧ p.significand = fraction ∧ p.exponent = -1074 ∨
        0 < field ∧ p.significand = 2 ^ 52 + fraction ∧ p.exponent = field - 1075) := by
  have hbits : x.toBits.toNat < 2 ^ 64 := x.toBits.toNat_lt
  unfold parts? at h
  extract_lets bits field fraction negative at h
  have hfield : field = bits / 2 ^ 52 % 2048 := rfl
  have hfraction : fraction = bits % 2 ^ 52 := rfl
  have hnegative : negative = (bits / 2 ^ 63 == 1) := rfl
  have hsum : bits = (if negative then 2 ^ 63 else 0) + field * 2 ^ 52 + fraction := by
    rw [hnegative, hfield, hfraction]
    split_ifs with hsign
    · have := beq_iff_eq.mp hsign
      omega
    · have : bits / 2 ^ 63 ≠ 1 := fun hone => hsign (beq_iff_eq.mpr hone)
      omega
  have hsmall : field < 2048 := Nat.mod_lt _ (by decide)
  split_ifs at h with hfull hzero
  · cases h
    exact ⟨field, fraction, by omega, by omega, hsum, .inl ⟨hzero, rfl, rfl⟩⟩
  · cases h
    exact ⟨field, fraction, by omega, by omega, hsum, .inr ⟨by omega, rfl, rfl⟩⟩

/-- The significand and the exponent of a double are those of one. -/
theorem grid_of_parts? (h : parts? x = some p) : Grid p.significand p.exponent := by
  obtain ⟨field, fraction, hfield, hfraction, -, hcases⟩ := bits_of_parts? h
  constructor <;> omega

/-- A double is known by its parts. -/
theorem parts?_injective (hx : parts? x = some p) (hy : parts? y = some p) : x = y := by
  obtain ⟨field, fraction, -, hfraction, hbits, hcases⟩ := bits_of_parts? hx
  obtain ⟨field', fraction', -, hfraction', hbits', hcases'⟩ := bits_of_parts? hy
  have hsame : field = field' ∧ fraction = fraction' := by omega
  apply Float.toBits_inj.mp
  apply UInt64.toNat_inj.mp
  rw [hbits, hbits', hsame.1, hsame.2]

end Binary

namespace NumberText

variable {cs ds ws fs es : List Char} {x y : Float}

/-! ## Reading decimals -/

/-- The exponent that is read behind a mantissa; zero where there is none. -/
def exponentValue : List Char → Int
  | 'e' :: '-' :: ds => -digitsValue ds
  | 'e' :: '+' :: ds => digitsValue ds
  | _ => 0

/-- The digits behind a point, and what follows them. -/
def fractionOf : List Char → List Char × List Char
  | '.' :: rest => (rest.takeWhile Char.isDigit, rest.dropWhile Char.isDigit)
  | rest => ([], rest)

/-- The number that a decimal text without a sign is read as. -/
def decimalOf (cs : List Char) : ℚ :=
  let whole := cs.takeWhile Char.isDigit
  let (fraction, tail) := fractionOf (cs.dropWhile Char.isDigit)
  digitsValue (whole ++ fraction) * 10 ^ (exponentValue tail - fraction.length)

theorem digitsValue_toDigits (n : Nat) : digitsValue (Nat.toDigits 10 n) = n :=
  Nat.ofDigitChars_toDigits (by decide) (by decide)

theorem digitsValue_append (cs ds : List Char) :
    digitsValue (cs ++ ds) = Nat.ofDigitChars 10 ds (digitsValue cs) :=
  Nat.ofDigitChars_append 0

/-- Zeros in front do not count. -/
theorem digitsValue_zeros_append (n : Nat) (ds : List Char) :
    digitsValue (List.replicate n '0' ++ ds) = digitsValue ds := by
  induction n with
  | zero => rfl
  | succ n ih => rw [List.replicate_succ, List.cons_append]; exact ih

/-- Zeros at the end multiply by ten. -/
theorem digitsValue_append_zeros (ds : List Char) (n : Nat) :
    digitsValue (ds ++ List.replicate n '0') = digitsValue ds * 10 ^ n := by
  induction n with
  | zero => simp
  | succ n ih =>
    rw [List.replicate_succ', ← List.append_assoc, digitsValue_append, ih, pow_succ]
    simp only [Nat.ofDigitChars, List.foldl_cons, List.foldl_nil, Nat.sub_self]
    ring

/-- Digits, a point and digits are read as they are written. -/
theorem decimalOf_point (hws : ∀ d ∈ ws, d.isDigit = true) (hfs : ∀ d ∈ fs, d.isDigit = true)
    (hes : ∀ c ∈ es.head?, c.isDigit = false) :
    decimalOf (ws ++ '.' :: (fs ++ es)) =
      digitsValue (ws ++ fs) * 10 ^ (exponentValue es - fs.length) := by
  have hpoint : ∀ c ∈ ('.' :: (fs ++ es)).head?, c.isDigit = false := by simp
  unfold decimalOf
  rw [(Formula.span_digits hws hpoint).1, (Formula.span_digits hws hpoint).2]
  simp only [fractionOf]
  rw [(Formula.span_digits hfs hes).1, (Formula.span_digits hfs hes).2]

/-- So are digits without a point. -/
theorem decimalOf_whole (hws : ∀ d ∈ ws, d.isDigit = true)
    (hes : ∀ c ∈ es.head?, c.isDigit = false ∧ c ≠ '.') :
    decimalOf (ws ++ es) = digitsValue ws * 10 ^ exponentValue es := by
  have hspan := Formula.span_digits hws fun c hc => (hes c hc).1
  have hnone : fractionOf es = ([], es) := by
    unfold fractionOf
    split
    · next rest => exact absurd rfl (hes '.' rfl).2
    · rfl
  unfold decimalOf
  rw [hspan.1, hspan.2, hnone]
  simp

/-- The exponent behind a mantissa is read back. -/
theorem exponentValue_exponentText (e : Int) : exponentValue (exponentText e).toList = e := by
  have hpadded : digitsValue (padded 2 e.natAbs).toList = e.natAbs := by
    rw [padded, String.toList_ofList, digitsValue_zeros_append, digitsValue_toDigits]
  unfold exponentText
  rw [String.toList_append]
  split_ifs with hneg
  · show -(digitsValue (padded 2 e.natAbs).toList : Int) = e
    rw [hpadded]
    omega
  · show (digitsValue (padded 2 e.natAbs).toList : Int) = e
    rw [hpadded]
    omega

/-- A decimal with a point among its digits, in front of them or behind them is read back. -/
theorem decimalOf_positional {point : Int} (hds : ∀ d ∈ ds, d.isDigit = true) :
    decimalOf (positional ds point).toList = digitsValue ds * 10 ^ (point - ds.length) := by
  have hzeros (n : Nat) : ∀ d ∈ List.replicate n '0', d.isDigit = true := fun _ =>
    Formula.isDigit_of_mem_zeros
  have hzero : ∀ d ∈ ['0'], d.isDigit = true := by simp
  have hnone : ∀ c ∈ ([] : List Char).head?, c.isDigit = false := by simp
  unfold positional
  split_ifs with hsmall
  · have htext : ("0." ++ String.ofList (List.replicate (-point).toNat '0' ++ ds)).toList =
        ['0'] ++ '.' :: ((List.replicate (-point).toNat '0' ++ ds) ++ []) := by simp
    have hvalue : digitsValue (['0'] ++ (List.replicate (-point).toNat '0' ++ ds)) =
        digitsValue ds :=
      (digitsValue_zeros_append 1 _).trans (digitsValue_zeros_append ..)
    rw [htext, decimalOf_point hzero (List.forall_mem_append.mpr ⟨hzeros _, hds⟩) hnone, hvalue]
    congr 2
    simp [exponentValue]
    omega
  · extract_lets whole
    have hwhole : (whole : Int) = point := by omega
    split_ifs with hlong
    · have htext : (String.ofList (ds ++ List.replicate (whole - ds.length) '0') ++ ".0").toList =
          (ds ++ List.replicate (whole - ds.length) '0') ++ '.' :: (['0'] ++ []) := by simp
      have hvalue : digitsValue ((ds ++ List.replicate (whole - ds.length) '0') ++ ['0']) =
          digitsValue ds * 10 ^ (whole - ds.length) * 10 := by
        rw [← digitsValue_append_zeros]
        exact digitsValue_append_zeros _ 1
      have hscale : (10 : ℚ) ^ (whole - ds.length) * 10 * 10 ^ (-1 : ℤ) =
          10 ^ (point - (ds.length : Int)) := by
        rw [← pow_succ, ← zpow_natCast, ← zpow_add₀ (by norm_num)]
        congr 1
        omega
      rw [htext, decimalOf_point (List.forall_mem_append.mpr ⟨hds, hzeros _⟩) hzero hnone, hvalue,
        ← hscale]
      push_cast
      simp only [exponentValue, List.length_singleton]
      ring
    · have htext : (String.ofList (ds.take whole) ++ "." ++ String.ofList (ds.drop whole)).toList =
          ds.take whole ++ '.' :: (ds.drop whole ++ []) := by simp
      rw [htext, decimalOf_point (fun d hd => hds d (List.mem_of_mem_take hd))
        (fun d hd => hds d (List.mem_of_mem_drop hd)) hnone, List.take_append_drop]
      congr 2
      simp [exponentValue]
      omega

/-- What a decimal is written as is read as its value. -/
theorem decimalOf_decimalText (d : Decimal) :
    decimalOf (decimalText 16 false d).toList = d.value := by
  have hdigits : ∀ c ∈ Nat.toDigits 10 d.digits, c.isDigit = true := fun _ =>
    Nat.isDigit_of_mem_toDigits (by decide) (by decide)
  have hne : Nat.toDigits 10 d.digits ≠ [] := Nat.toDigits_ne_nil
  have hlength : 0 < (Nat.toDigits 10 d.digits).length := List.length_pos_iff.mpr hne
  unfold decimalText
  extract_lets digits point exponent fraction mantissa
  split_ifs with hpositional
  · rw [decimalOf_positional hdigits, digitsValue_toDigits, Decimal.value]
    congr 2
    simp [point, digits]
  · have hfirst : ∀ c ∈ digits.take 1, c.isDigit = true := fun c hc =>
      hdigits c (List.mem_of_mem_take hc)
    have hrest : ∀ c ∈ fraction, c.isDigit = true := fun c hc => hdigits c (List.mem_of_mem_drop hc)
    have hjoined : digitsValue (digits.take 1 ++ fraction) = d.digits := by
      rw [List.take_append_drop, digitsValue_toDigits]
    have hhead : ∀ c ∈ (exponentText exponent).toList.head?, c.isDigit = false ∧ c ≠ '.' := by
      unfold exponentText
      split_ifs <;> simp
    have hlast : fraction.length = (Nat.toDigits 10 d.digits).length - 1 := List.length_drop
    cases hfraction : fraction with
    | nil =>
      have hmantissa : mantissa.toList = digits.take 1 := by simp [mantissa, hfraction]
      rw [hfraction, List.append_nil] at hjoined
      rw [hfraction, List.length_nil] at hlast
      rw [String.toList_append, hmantissa, decimalOf_whole hfirst hhead, hjoined,
        exponentValue_exponentText, Decimal.value]
      congr 2
      simp only [exponent, point, digits]
      omega
    | cons c tail =>
      have hmantissa : mantissa.toList = digits.take 1 ++ '.' :: fraction := by
        simp [mantissa, hfraction]
      rw [String.toList_append, hmantissa, List.append_assoc, List.cons_append,
        decimalOf_point hfirst hrest fun c hc => (hhead c hc).1, hjoined, exponentValue_exponentText,
        Decimal.value]
      congr 2
      simp only [exponent, point, digits]
      omega

end NumberText

/-! ## The characters of numbers -/

namespace Formula

variable {cs ps es whole : List Char} {fraction : Option (List Char)} {e : Option Int} {c : Char}

/-- The characters that numbers are written with. -/
def IsFigure (c : Char) : Prop := c.isDigit = true ∨ c ∈ ['-', '+', '.', 'e', 'E']

/-- What stands behind the digits of a double: a point, or the letter of an exponent. -/
def IsMark (c : Char) : Prop := c = '.' ∨ c = 'e' ∨ c = 'E'

theorem Run.isFigure (hrun : Run Char.isDigit cs whole) (hjoint : '_' ∉ cs) : ∀ c ∈ cs, IsFigure c := by
  obtain ⟨rfl, hdigits⟩ := hrun.eq_digits hjoint
  exact fun c hc => .inl (hdigits c hc)

theorem Point.isFigure (hpoint : Point ps fraction) (hjoint : '_' ∉ ps) : ∀ c ∈ ps, IsFigure c := by
  have hdot : IsFigure '.' := .inr (by decide)
  cases hpoint with
  | absent => simp
  | bare => simpa using hdot
  | digits hrun =>
    exact List.forall_mem_cons.mpr
      ⟨hdot, hrun.isFigure fun h => hjoint (List.mem_cons_of_mem _ h)⟩

theorem Exponent.isFigure (he : Exponent es e) (hjoint : '_' ∉ es) : ∀ c ∈ es, IsFigure c := by
  have hletter {c : Char} (hc : c = 'e' ∨ c = 'E') : IsFigure c := by
    rcases hc with rfl | rfl <;> exact .inr (by decide)
  cases he with
  | absent => simp
  | plain hc hrun =>
    exact List.forall_mem_cons.mpr
      ⟨hletter hc, hrun.isFigure fun h => hjoint (List.mem_cons_of_mem _ h)⟩
  | plus hc hrun | minus hc hrun =>
    refine List.forall_mem_cons.mpr ⟨hletter hc, List.forall_mem_cons.mpr ⟨.inr (by decide), ?_⟩⟩
    exact hrun.isFigure fun h => hjoint (List.mem_cons_of_mem _ (List.mem_cons_of_mem _ h))

/-- A printed number has figures only. It begins with a digit, and it has a mark. -/
theorem Printed.figures {text : List Char} {value : Bool → Float} (h : Printed text value) :
    (∀ c ∈ text, IsFigure c) ∧ (∃ c ∈ text.head?, c.isDigit = true) ∧
      ∃ c ∈ text, IsMark c := by
  cases h with
  | @intro cs ps es whole fraction e hrun hpoint he hfloat hjoint =>
  simp only [List.mem_append, not_or] at hjoint
  obtain ⟨hcs, hps, hes⟩ := hjoint
  refine ⟨?_, ?_, ?_⟩
  · exact List.forall_mem_append.mpr ⟨hrun.isFigure hcs,
      List.forall_mem_append.mpr ⟨hpoint.isFigure hps, he.isFigure hes⟩⟩
  · obtain ⟨c, tail, rfl, hc⟩ := hrun.exists_cons
    exact ⟨c, rfl, hc⟩
  · rcases hfloat with hfraction | hexponent
    · refine ⟨'.', ?_, .inl rfl⟩
      cases hpoint <;> simp_all
    · cases he with
      | absent => cases hexponent
      | plain hc | plus hc | minus hc => exact ⟨_, by simp, .inr hc⟩

end Formula

namespace NumberText

variable {x y : Float} {p p' : Binary.Parts}

/-! ## Doubles -/

/-- What a finite double is written as behind its sign. -/
def bodyOf (p : Binary.Parts) : List Char :=
  if p.significand = 0 then ['0', '.', '0']
  else (decimalText 16 false (Decimal.shortest p.significand p.exponent)).toList

theorem toList_floatText (h : Binary.parts? x = some p) :
    (floatText x).toList = Formula.signText p.negative ++ bodyOf p := by
  have hsign : (if p.negative = true then "-" else "").toList = Formula.signText p.negative := by
    cases p.negative <;> rfl
  unfold floatText bodyOf
  rw [h]
  simp only
  by_cases hzero : p.significand = 0
  · rw [if_pos hzero, if_pos hzero, String.toList_append, hsign]
    rfl
  · rw [if_neg hzero, if_neg hzero, String.toList_append, hsign]

theorem printed_bodyOf (p : Binary.Parts) : ∃ value, Printed (bodyOf p) value := by
  unfold bodyOf
  split_ifs
  · have hzero : ∀ d ∈ ['0'], d.isDigit = true := by simp
    exact Formula.printed_of_digits hzero (by simp) hzero (by simp)
  · exact Formula.printed_decimalText _

/-- The text of a double is read as a number in its interval, and that of zero as zero. -/
theorem decimalOf_bodyOf (h : Binary.parts? x = some p) :
    p.significand = 0 ∧ decimalOf (bodyOf p) = 0 ∨
      0 < p.significand ∧ Binary.Rounds p.significand p.exponent (decimalOf (bodyOf p)) := by
  unfold bodyOf
  split_ifs with hzero
  · refine .inl ⟨hzero, ?_⟩
    have hdigit : ∀ d ∈ ['0'], d.isDigit = true := by simp
    have hread : decimalOf ['0', '.', '0'] =
        digitsValue (['0'] ++ ['0']) * 10 ^ (exponentValue [] - ['0'].length) :=
      decimalOf_point hdigit hdigit (by simp)
    have hvalue : digitsValue (['0'] ++ ['0']) = 0 := by decide
    rw [hread, hvalue, Nat.cast_zero, zero_mul]
  · have hpos : 0 < p.significand := Nat.pos_of_ne_zero hzero
    rw [decimalOf_decimalText]
    exact .inr ⟨hpos, Decimal.rounds_shortest hpos (Binary.grid_of_parts? h)⟩

/-- Two finite doubles with the same text behind their signs have the same significand and exponent. -/
theorem magnitude_eq_of_bodyOf (hx : Binary.parts? x = some p) (hy : Binary.parts? y = some p')
    (h : bodyOf p = bodyOf p') : p.significand = p'.significand ∧ p.exponent = p'.exponent := by
  have hgrid := Binary.grid_of_parts? hx
  have hgrid' := Binary.grid_of_parts? hy
  have hcases := decimalOf_bodyOf hx
  rw [h] at hcases
  rcases hcases with ⟨hzero, hvalue⟩ | ⟨hpos, hrounds⟩ <;>
    rcases decimalOf_bodyOf hy with ⟨hzero', hvalue'⟩ | ⟨hpos', hrounds'⟩
  · -- Zero has the smallest exponent.
    have hsmall : ¬ -1074 < p.exponent := fun hlt => by have := hgrid.normal hlt; omega
    have hsmall' : ¬ -1074 < p'.exponent := fun hlt => by have := hgrid'.normal hlt; omega
    have hge := hgrid.ge
    have hge' := hgrid'.ge
    omega
  · exact absurd hvalue (hrounds'.pos hpos').ne'
  · exact absurd hvalue' (hrounds.pos hpos).ne'
  · exact hrounds.unique hgrid hgrid' hrounds'

theorem exists_parts (hx : x.isFinite = true) : ∃ p, Binary.parts? x = some p :=
  Option.isSome_iff_exists.mp ((Binary.isSome_parts? x).trans hx)

/-- Two finite doubles are written alike only if they are the same. -/
theorem floatText_injective (hx : x.isFinite = true) (hy : y.isFinite = true)
    (h : floatText x = floatText y) : x = y := by
  obtain ⟨p, hp⟩ := exists_parts hx
  obtain ⟨p', hp'⟩ := exists_parts hy
  have hlist := congrArg String.toList h
  rw [toList_floatText hp, toList_floatText hp'] at hlist
  -- A sign is told apart from what follows it, as that begins with a digit.
  obtain ⟨_, hprinted⟩ := printed_bodyOf p
  obtain ⟨_, hprinted'⟩ := printed_bodyOf p'
  have hparts := congrArg takeSign hlist
  rw [Formula.takeSign_signText _ hprinted.figures.2.1,
    Formula.takeSign_signText _ hprinted'.figures.2.1] at hparts
  obtain ⟨hsign, hbody⟩ := Prod.mk.inj hparts
  obtain ⟨hsignificand, hexponent⟩ := magnitude_eq_of_bodyOf hp hp' hbody
  have hpp' : p = p' := by
    cases p
    cases p'
    simp_all
  exact Binary.parts?_injective hp (hpp' ▸ hp')

/-- A finite double is written with figures, and one of them is a mark. -/
theorem figures_floatText (hx : x.isFinite = true) :
    (∀ c ∈ (floatText x).toList, Formula.IsFigure c) ∧
      ∃ c ∈ (floatText x).toList, Formula.IsMark c := by
  obtain ⟨p, hp⟩ := exists_parts hx
  obtain ⟨_, hprinted⟩ := printed_bodyOf p
  obtain ⟨hfigures, -, c, hc, hmark⟩ := hprinted.figures
  rw [toList_floatText hp]
  refine ⟨List.forall_mem_append.mpr ⟨?_, hfigures⟩, c, List.mem_append_right _ hc, hmark⟩
  intro d hd
  cases hnegative : p.negative with
  | false => simp [Formula.signText, hnegative] at hd
  | true =>
    obtain rfl : d = '-' := by simpa [Formula.signText, hnegative] using hd
    exact .inr (by decide)

/-- An integer is written with figures, and none of them is a mark. -/
theorem figures_intText (n : Int) :
    ∀ c ∈ (intText n).toList, Formula.IsFigure c ∧ ¬ Formula.IsMark c := by
  intro c hc
  rcases isDigit_or_sign hc with hdigit | rfl
  · refine ⟨.inl hdigit, ?_⟩
    rintro (rfl | rfl | rfl) <;> cases hdigit
  · exact ⟨.inr (by decide), by simp [Formula.IsMark]⟩

/-- So no double is written like an integer. -/
theorem floatText_ne_intText (hx : x.isFinite = true) (n : Int) : floatText x ≠ intText n := by
  intro h
  obtain ⟨-, c, hc, hmark⟩ := figures_floatText hx
  rw [h] at hc
  exact (figures_intText n c hc).2 hmark

end NumberText

end Signoff
