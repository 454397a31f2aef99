import Mathlib
import Signoff.Formula.Expr
import Signoff.Formula.Lexer

/-! # Number literals

    How the numbers of a formula are written, and that each is read up to its end:

    * `Run`, `Point`, `Exponent`: the parts of a number. Digits may be joined by
      single underscores.
    * `IsLiteral`: a text that is a number, and the number: an integer in decimal or in
      another base, or a double with a point or an exponent.
    * `number?_of_isLiteral`: in front of anything that may follow a number, the whole
      of it is read as its token.
-/

namespace Signoff.Formula

open NumberText (digitsValue ofDecimal)

/-! ## How numbers are written -/

/-- Digits with single underscores between them, and the digits alone. -/
inductive Run (isDigit : Char → Bool) : List Char → List Char → Prop where
  | single {c : Char} (hc : isDigit c = true) : Run isDigit [c] [c]
  | next {c : Char} {cs ds : List Char} (hc : isDigit c = true) (hrun : Run isDigit cs ds) :
      Run isDigit (c :: cs) (c :: ds)
  | joined {c : Char} {cs ds : List Char} (hc : isDigit c = true) (hrun : Run isDigit cs ds) :
      Run isDigit (c :: '_' :: cs) (c :: ds)

/-- What stands behind the whole digits of a decimal number: no point, a bare one, or one with the
    digits of a fraction. -/
inductive Point : List Char → Option (List Char) → Prop where
  | absent : Point [] none
  | bare : Point ['.'] (some [])
  | digits {cs ds : List Char} (hrun : Run Char.isDigit cs ds) : Point ('.' :: cs) (some ds)

/-- The exponent of a decimal number: nothing, or a letter, perhaps a sign, and digits. -/
inductive Exponent : List Char → Option Int → Prop where
  | absent : Exponent [] none
  | plain {e : Char} {cs ds : List Char} (he : e = 'e' ∨ e = 'E') (hrun : Run Char.isDigit cs ds) :
      Exponent (e :: cs) (some (digitsValue ds))
  | plus {e : Char} {cs ds : List Char} (he : e = 'e' ∨ e = 'E') (hrun : Run Char.isDigit cs ds) :
      Exponent (e :: '+' :: cs) (some (digitsValue ds))
  | minus {e : Char} {cs ds : List Char} (he : e = 'e' ∨ e = 'E') (hrun : Run Char.isDigit cs ds) :
      Exponent (e :: '-' :: cs) (some (-digitsValue ds))

/-- The letters that announce a base, and the base. -/
def bases : List (Char × Nat) :=
  [('x', 16), ('X', 16), ('o', 8), ('O', 8), ('b', 2), ('B', 2)]

/-- Is the character a digit in the base? -/
def isBaseDigit (base : Nat) (c : Char) : Bool := (baseDigit? base c).isSome

/-- The value of digits in a base. -/
def basedValue (base : Nat) (ds : List Char) : Nat :=
  ds.foldl (fun n c => base * n + (baseDigit? base c).getD 0) 0

/-- The double nearest to a decimal number. -/
def decimalValue (negative : Bool) (whole : List Char) (fraction : Option (List Char))
    (e : Int) : Float :=
  ofDecimal negative (digitsValue (whole ++ fraction.getD [])) (e - (fraction.getD []).length)

/-- A text that is a number, and the number. -/
inductive IsLiteral : List Char → Amount → Prop where
  /-- An integer in decimal. Only zero begins with a zero. -/
  | whole {cs ds : List Char} (hrun : Run Char.isDigit cs ds)
      (hlead : ds.head? = some '0' → ∀ d ∈ ds, d = '0')
      (hsmall : (ds.dropWhile (· == '0')).length ≤ 4300) : IsLiteral cs (.int (digitsValue ds))
  /-- An integer in another base. -/
  | based {letter : Char} {base : Nat} {joint cs ds : List Char} (hbase : (letter, base) ∈ bases)
      (hjoint : joint = [] ∨ joint = ['_']) (hrun : Run (isBaseDigit base) cs ds) :
      IsLiteral ('0' :: letter :: (joint ++ cs)) (.int (basedValue base ds))
  /-- A decimal number with a point, an exponent, or both. -/
  | float {cs ps es whole : List Char} {fraction : Option (List Char)} {e : Option Int}
      (hrun : Run Char.isDigit cs whole) (hpoint : Point ps fraction) (hexponent : Exponent es e)
      (hfloat : fraction.isSome = true ∨ e.isSome = true) :
      IsLiteral (cs ++ (ps ++ es)) (.float (decimalValue false whole fraction (e.getD 0)))
  /-- A decimal number that begins with its point. -/
  | fraction {cs es fraction : List Char} {e : Option Int} (hrun : Run Char.isDigit cs fraction)
      (hexponent : Exponent es e) :
      IsLiteral ('.' :: cs ++ es) (.float (decimalValue false [] (some fraction) (e.getD 0)))

/-- Text that may stand behind a number: it does not go on as a word or with a point. -/
def Follows (rest : List Char) : Prop := ∀ c ∈ rest.head?, isWordChar c = false ∧ c ≠ '.'

/-- The token of a number that is not negative. -/
def Amount.token : Amount → Token
  | .int n => .int n.toNat
  | .float x => .float x

/-! ## Digits -/

variable {isDigit : Char → Bool} {cs ds rest : List Char} {c : Char} {base : Nat} {letter : Char}

theorem isAlphanum_of_isDigit (hc : c.isDigit = true) : c.isAlphanum = true := by
  simp [Char.isAlphanum, hc]

theorem isWordChar_of_isDigit (hc : c.isDigit = true) : isWordChar c = true := by
  simp [isWordChar, isAlphanum_of_isDigit hc]

/-- The bases are not above sixteen. -/
theorem le_of_mem_bases (hbase : (letter, base) ∈ bases) : base ≤ 16 := by
  have hall : ∀ p ∈ bases, p.2 ≤ 16 := by decide
  exact hall _ hbase

/-- The digits of a base are figures and letters. -/
theorem isAlphanum_of_isBaseDigit (hbase : base ≤ 16) (hc : isBaseDigit base c = true) :
    c.isAlphanum = true := by
  have hnone : ¬ 16 < base := by omega
  simp only [isBaseDigit, baseDigit?] at hc
  by_cases hdigit : c.isDigit = true
  · exact isAlphanum_of_isDigit hdigit
  by_cases hlower : 'a' ≤ c ∧ c ≤ 'f'
  · have hle : c ≤ 'z' := Char.le_trans hlower.2 (by decide)
    have hlower : c.isLower = true := by simpa [Char.isLower] using ⟨hlower.1, hle⟩
    simp [Char.isAlphanum, Char.isAlpha, hlower]
  by_cases hupper : 'A' ≤ c ∧ c ≤ 'F'
  · have hle : c ≤ 'Z' := Char.le_trans hupper.2 (by decide)
    have hupper : c.isUpper = true := by simpa [Char.isUpper] using ⟨hupper.1, hle⟩
    simp [Char.isAlphanum, Char.isAlpha, hupper]
  · simp [hdigit, hlower, hupper, hnone] at hc

theorem isWordChar_of_isBaseDigit (hbase : base ≤ 16) (hc : isBaseDigit base c = true) :
    isWordChar c = true := by
  simp [isWordChar, isAlphanum_of_isBaseDigit hbase hc]

/-- A run of digits is read up to its end. -/
theorem digitRun?_of_run (hjoint : isDigit '_' = false) (hrun : Run isDigit cs ds)
    (hrest : ∀ c ∈ rest.head?, isDigit c = false ∧ c ≠ '_') :
    digitRun? isDigit (cs ++ rest) = some (ds, rest) := by
  have hnot (c : Char) (hc : isDigit c = true) : c ≠ '_' := by
    rintro rfl
    simp [hjoint] at hc
  have hend : digitRun? isDigit rest = some ([], rest) := by
    cases rest with
    | nil => rfl
    | cons c rest => simp [digitRun?, hrest c rfl]
  induction hrun with
  | single hc => simp [digitRun?, hc, hnot _ hc, hend]
  | next hc hrun ih => simp [digitRun?, hc, hnot _ hc, ih]
  | joined hc hrun ih => cases hrun <;> simp_all [digitRun?]

/-- A run begins with a digit. -/
theorem Run.exists_cons (hrun : Run isDigit cs ds) :
    ∃ c tail, cs = c :: tail ∧ isDigit c = true := by
  cases hrun with
  | single hc => exact ⟨_, _, rfl, hc⟩
  | next hc hrun => exact ⟨_, _, rfl, hc⟩
  | joined hc hrun => exact ⟨_, _, rfl, hc⟩

/-! ## Exponents -/

theorem Follows.not_digit (hrest : Follows rest)
    (hword : ∀ c, isDigit c = true → isWordChar c = true) :
    ∀ c ∈ rest.head?, isDigit c = false ∧ c ≠ '_' := by
  intro c hc
  obtain ⟨hnot, -⟩ := hrest c hc
  constructor
  · exact Bool.eq_false_iff.mpr fun hdigit => by simp [hword c hdigit] at hnot
  · rintro rfl
    simp [isWordChar] at hnot

theorem Follows.head?_ne (hrest : Follows rest) (hc : isWordChar c = true) : rest.head? ≠ some c := by
  intro hhead
  simp [(hrest c hhead).1] at hc

theorem Follows.mayFollowNumber (hrest : Follows rest) : mayFollowNumber rest = true := by
  have hword : rest.head?.any isWordChar = false := by
    cases hhead : rest.head? with
    | none => rfl
    | some c => simpa using (hrest c hhead).1
  simp [Formula.mayFollowNumber, hword]

/-- An exponent is read up to its end. -/
theorem exponent?_of_exponent {es : List Char} {e : Option Int} (he : Exponent es e)
    (hrest : Follows rest) : exponent? (es ++ rest) = some (e, rest) := by
  have hnot := hrest.not_digit fun _ => isWordChar_of_isDigit
  cases he with
  | absent =>
    cases rest with
    | nil => rfl
    | cons c rest =>
      have hlower : c ≠ 'e' := fun h => hrest.head?_ne (c := 'e') (by decide) (by simp [h])
      have hupper : c ≠ 'E' := fun h => hrest.head?_ne (c := 'E') (by decide) (by simp [h])
      simp [exponent?, hlower, hupper]
  | plain he hrun =>
    have hread := digitRun?_of_run (by decide) hrun hnot
    obtain ⟨c, tail, rfl, hc⟩ := hrun.exists_cons
    have hsign : c ≠ '+' ∧ c ≠ '-' := by constructor <;> (rintro rfl; simp at hc)
    simp only [List.cons_append] at hread
    -- Two characters are looked at for a sign, so a single digit at the end is a case of its own.
    cases htail : tail ++ rest <;> simp_all [exponent?, exponent?.plainExponent]
  | plus he hrun | minus he hrun =>
    have hread := digitRun?_of_run (by decide) hrun hnot
    obtain ⟨c, tail, rfl, hc⟩ := hrun.exists_cons
    simp only [List.cons_append] at hread
    simp [exponent?, he, hc, hread]

/-! ## Numbers -/

variable {ps es : List Char} {whole : List Char} {fraction : Option (List Char)} {e : Option Int}

/-- Neither a digit nor a point goes on in front of the exponent of a number. -/
theorem Exponent.not_digit (he : Exponent es e) (hrest : Follows rest) :
    ∀ c ∈ (es ++ rest).head?, (c.isDigit = false ∧ c ≠ '_') ∧ c ≠ '.' := by
  intro c hc
  cases he with
  | absent => exact ⟨hrest.not_digit (fun _ => isWordChar_of_isDigit) c hc, (hrest c hc).2⟩
  | plain he | plus he | minus he =>
    obtain rfl : _ = c := Option.some.inj hc
    rcases he with rfl | rfl <;> decide

/-- The part of a decimal number behind its whole digits is read up to its end. -/
theorem numberTail?_eq_finish (hpoint : Point ps fraction) (he : Exponent es e)
    (hrest : Follows rest) :
    numberTail? whole (ps ++ (es ++ rest)) = numberTail?.finish whole fraction e rest := by
  have hhead := he.not_digit hrest
  unfold numberTail?
  extract_lets behind
  have hbehind : behind (fraction, es ++ rest) = numberTail?.finish whole fraction e rest := by
    simp only [behind, exponent?_of_exponent he hrest, Option.bind_eq_bind, Option.bind_some]
    cases rest with
    | nil => rfl
    | cons j after =>
      have hlower : j ≠ 'j' := fun h => hrest.head?_ne (c := 'j') (by decide) (by simp [h])
      have hupper : j ≠ 'J' := fun h => hrest.head?_ne (c := 'J') (by decide) (by simp [h])
      simp [hlower, hupper]
  -- From here on only the first character behind the point matters.
  generalize es ++ rest = text at hhead hbehind
  cases hpoint with
  | absent =>
    rw [List.nil_append]
    split
    next => exact absurd rfl (hhead '.' rfl).2
    next => exact hbehind
  | bare =>
    have hnot : text.head?.any Char.isDigit = false := by
      cases hc : text.head? with
      | none => rfl
      | some c => exact (hhead c hc).1.1
    simpa [hnot] using hbehind
  | digits hrun =>
    have hread := digitRun?_of_run (by decide) hrun fun c hc => (hhead c hc).1
    obtain ⟨c, tail, rfl, hc⟩ := hrun.exists_cons
    rw [List.cons_append] at hread
    simpa [hc, hread] using hbehind

/-- A text that does not begin with the prefix of a base is read as a decimal number. -/
theorem number?_eq_decimal
    (hbase : ∀ letter tail base, cs = '0' :: letter :: tail → (letter, base) ∉ bases) :
    number? cs = number?.decimal cs := by
  unfold number?
  split
  next letter tail =>
    have hnone (base : Nat) := hbase letter tail base rfl
    have h16 := hnone 16
    have h8 := hnone 8
    have h2 := hnone 2
    simp only [bases, List.mem_cons, Prod.mk.injEq, List.not_mem_nil, or_false, not_or] at h16 h8 h2
    rw [if_neg (by simp_all), if_neg (by simp_all), if_neg (by simp_all)]
  next => rfl

/-- Behind the first digit of a decimal number no base is announced. -/
theorem not_mem_bases (hrun : Run Char.isDigit cs ds) (hpoint : Point ps fraction)
    (he : Exponent es e) (hrest : Follows rest) {tail : List Char}
    (hcs : cs ++ (ps ++ (es ++ rest)) = c :: letter :: tail) : (letter, base) ∉ bases := by
  intro hmem
  -- The second character is a digit, an underscore, the point, the letter of the exponent, or what
  -- follows the number. None of them announces a base.
  have hletters : ∀ p ∈ bases,
      isWordChar p.1 = true ∧ p.1.isDigit = false ∧ p.1 ∉ ['_', '.', 'e', 'E'] := by decide
  obtain ⟨hword, hdigit, hother⟩ := hletters _ hmem
  cases hrun with
  | single hc =>
    cases hpoint with
    | absent =>
      cases he with
      | absent =>
        obtain rfl : rest = letter :: tail := List.tail_eq_of_cons_eq hcs
        simp [(hrest letter rfl).1] at hword
      | plain he | plus he | minus he =>
        obtain rfl : _ = letter := List.head_eq_of_cons_eq (List.tail_eq_of_cons_eq hcs)
        rcases he with rfl | rfl <;> simp at hother
    | bare | digits hrun =>
      obtain rfl : '.' = letter := List.head_eq_of_cons_eq (List.tail_eq_of_cons_eq hcs)
      simp at hother
  | next hc hrun =>
    obtain ⟨d, rest', rfl, hd⟩ := hrun.exists_cons
    obtain rfl : d = letter := List.head_eq_of_cons_eq (List.tail_eq_of_cons_eq hcs)
    simp [hd] at hdigit
  | joined hc hrun =>
    obtain rfl : '_' = letter := List.head_eq_of_cons_eq (List.tail_eq_of_cons_eq hcs)
    simp at hother

/-- A digit does not follow the whole digits of a decimal number. -/
theorem Point.not_digit (hpoint : Point ps fraction) (he : Exponent es e) (hrest : Follows rest) :
    ∀ c ∈ (ps ++ (es ++ rest)).head?, c.isDigit = false ∧ c ≠ '_' := by
  intro c hc
  cases hpoint with
  | absent => exact (he.not_digit hrest c hc).1
  | bare | digits hrun =>
    obtain rfl : '.' = c := Option.some.inj hc
    decide

/-- A decimal number is read up to its end. -/
theorem number?_of_decimal (hrun : Run Char.isDigit cs whole) (hpoint : Point ps fraction)
    (he : Exponent es e) (hrest : Follows rest) :
    number? (cs ++ (ps ++ (es ++ rest))) = numberTail?.finish whole fraction e rest := by
  rw [number?_eq_decimal fun letter tail base => not_mem_bases hrun hpoint he hrest]
  have hread := digitRun?_of_run (by decide) hrun (hpoint.not_digit he hrest)
  obtain ⟨c, tail, rfl, hc⟩ := hrun.exists_cons
  rw [List.cons_append] at hread
  simp [number?.decimal, hc, hread, numberTail?_eq_finish hpoint he hrest]

/-- The token of a decimal number with a point or an exponent. -/
theorem finish_of_float (hfloat : fraction.isSome = true ∨ e.isSome = true) (hrest : Follows rest) :
    numberTail?.finish whole fraction e rest =
      some (.float (decimalValue false whole fraction (e.getD 0)), rest) := by
  cases fraction with
  | some fs => simp [numberTail?.finish, hrest.mayFollowNumber, decimalValue]
  | none => cases e with
    | some n => simp [numberTail?.finish, hrest.mayFollowNumber, decimalValue]
    | none => simp at hfloat

/-- A number in another base is read up to its end. -/
theorem basedInt?_of_run {joint : List Char} (hbase : base ≤ 16)
    (hjoint : joint = [] ∨ joint = ['_']) (hrun : Run (isBaseDigit base) cs ds) (hrest : Follows rest) :
    basedInt? base (joint ++ cs ++ rest) = some (.int (basedValue base ds), rest) := by
  have hunder : isBaseDigit base '_' = false := by
    have hnone : ¬ 16 < base := by omega
    simp [isBaseDigit, baseDigit?, hnone]
  have hnot := hrest.not_digit fun c => isWordChar_of_isBaseDigit hbase
  have hread := digitRun?_of_run hunder hrun hnot
  obtain ⟨c, tail, rfl, hc⟩ := hrun.exists_cons
  have hend : rest.head?.any Char.isDigit = false := by
    cases hd : rest.head? with
    | none => rfl
    | some d => exact (hrest.not_digit (fun _ => isWordChar_of_isDigit) d hd).1
  replace hread : digitRun? (fun c => (baseDigit? base c).isSome) (c :: (tail ++ rest)) =
    some (ds, rest) := hread
  replace hc : (baseDigit? base c).isSome = true := hc
  have hstart : c ≠ '_' := by
    rintro rfl
    simp [isBaseDigit, hc] at hunder
  rcases hjoint with rfl | rfl
  · simp [basedInt?, hstart, hc, hread, hrest.mayFollowNumber, hend, basedValue]
  · simp [basedInt?, hc, hread, hrest.mayFollowNumber, hend, basedValue]

/-- A number is read up to its end. -/
theorem number?_of_isLiteral {a : Amount} (ha : IsLiteral cs a) (hrest : Follows rest) :
    number? (cs ++ rest) = some (a.token, rest) := by
  cases ha with
  | @whole cs ds hrun hlead hsmall =>
    have hread := number?_of_decimal hrun .absent .absent hrest
    simp only [List.nil_append] at hread
    rw [hread]
    simpa [numberTail?.finish, hrest.mayFollowNumber, hsmall, Amount.token] using hlead
  | @based letter base joint cs ds hbase hjoint hrun =>
    have hread := basedInt?_of_run (le_of_mem_bases hbase) hjoint hrun hrest
    simp only [bases, List.mem_cons, Prod.mk.injEq, List.not_mem_nil, or_false] at hbase
    rcases hbase with ⟨rfl, rfl⟩ | ⟨rfl, rfl⟩ | ⟨rfl, rfl⟩ | ⟨rfl, rfl⟩ | ⟨rfl, rfl⟩ | ⟨rfl, rfl⟩ <;>
      simpa [number?, Amount.token] using hread
  | float hrun hpoint he hfloat =>
    rw [List.append_assoc, List.append_assoc, number?_of_decimal hrun hpoint he hrest,
      finish_of_float hfloat hrest]
    rfl
  | @fraction cs es fraction e hrun he =>
    have hpoint : numberTail? [] ('.' :: cs ++ (es ++ rest)) =
        numberTail?.finish [] (some fraction) e rest :=
      numberTail?_eq_finish (.digits hrun) he hrest
    rw [finish_of_float (.inl rfl) hrest] at hpoint
    rw [number?_eq_decimal (by simp)]
    simpa [number?.decimal, Amount.token] using hpoint

/-! ## Characters of numbers -/

/-- The characters from the opening parenthesis to the last letter. Arithmetic is written with these
    and with white space, which is none of them; nor are braces and line ends. -/
def IsGraphic (c : Char) : Prop := 40 ≤ c.toNat ∧ c.toNat ≤ 122

instance (c : Char) : Decidable (IsGraphic c) := inferInstanceAs (Decidable (_ ∧ _))

theorem isGraphic_of_isAlphanum (hc : c.isAlphanum = true) : IsGraphic c := by
  simp only [Char.isAlphanum, Char.isAlpha, Char.isUpper, Char.isLower, Char.isDigit, Bool.or_eq_true,
    Bool.and_eq_true, decide_eq_true_eq, ge_iff_le, UInt32.le_iff_toNat_le] at hc
  change ((65 ≤ c.toNat ∧ c.toNat ≤ 90) ∨ (97 ≤ c.toNat ∧ c.toNat ≤ 122)) ∨
    (48 ≤ c.toNat ∧ c.toNat ≤ 57) at hc
  unfold IsGraphic
  omega

theorem Run.isGraphic (hdigit : ∀ c, isDigit c = true → c.isAlphanum = true)
    (hrun : Run isDigit cs ds) : ∀ c ∈ cs, IsGraphic c := by
  have hgraphic (c : Char) (hc : isDigit c = true) := isGraphic_of_isAlphanum (hdigit c hc)
  induction hrun with
  | single hc => simpa using hgraphic _ hc
  | next hc hrun ih => simpa using ⟨hgraphic _ hc, ih⟩
  | joined hc hrun ih => simpa using ⟨hgraphic _ hc, by decide, ih⟩

theorem Point.isGraphic (hpoint : Point ps fraction) : ∀ c ∈ ps, IsGraphic c := by
  cases hpoint with
  | absent => simp
  | bare => simpa using by decide
  | digits hrun => simpa using ⟨by decide, hrun.isGraphic fun _ => isAlphanum_of_isDigit⟩

theorem Exponent.isGraphic (he : Exponent es e) : ∀ c ∈ es, IsGraphic c := by
  cases he with
  | absent => simp
  | plain he hrun | plus he hrun | minus he hrun =>
    have hdigits := hrun.isGraphic fun _ => isAlphanum_of_isDigit
    rcases he with rfl | rfl <;> simp only [List.forall_mem_cons] <;>
      first
      | exact ⟨by decide, hdigits⟩
      | exact ⟨by decide, by decide, hdigits⟩

/-- A number begins with a digit, or with a point and a digit. -/
theorem IsLiteral.exists_cons {a : Amount} (ha : IsLiteral cs a) :
    ∃ c tail, cs = c :: tail ∧
      (c.isDigit = true ∨ c = '.' ∧ ∃ d more, tail = d :: more ∧ d.isDigit = true) := by
  cases ha with
  | whole hrun =>
    obtain ⟨c, tail, rfl, hc⟩ := hrun.exists_cons
    exact ⟨c, tail, rfl, .inl hc⟩
  | based => exact ⟨'0', _, rfl, .inl (by decide)⟩
  | float hrun =>
    obtain ⟨c, tail, rfl, hc⟩ := hrun.exists_cons
    exact ⟨c, _, rfl, .inl hc⟩
  | fraction hrun =>
    obtain ⟨d, more, rfl, hd⟩ := hrun.exists_cons
    exact ⟨'.', _, rfl, .inr ⟨rfl, d, _, rfl, hd⟩⟩

theorem IsLiteral.isGraphic {a : Amount} (ha : IsLiteral cs a) : ∀ c ∈ cs, IsGraphic c := by
  cases ha with
  | whole hrun => exact hrun.isGraphic fun _ => isAlphanum_of_isDigit
  | based hbase hjoint hrun =>
    have hdigits := hrun.isGraphic fun _ => isAlphanum_of_isBaseDigit (le_of_mem_bases hbase)
    have hletter : ∀ p ∈ bases, IsGraphic p.1 := by decide
    rcases hjoint with rfl | rfl
    · simpa using ⟨by decide, hletter _ hbase, hdigits⟩
    · simpa using ⟨by decide, hletter _ hbase, by decide, hdigits⟩
  | float hrun hpoint he =>
    have hdigits := hrun.isGraphic fun _ => isAlphanum_of_isDigit
    simp only [List.forall_mem_append]
    exact ⟨hdigits, hpoint.isGraphic, he.isGraphic⟩
  | fraction hrun he =>
    have hdigits := (Point.digits hrun).isGraphic
    simp only [List.forall_mem_append]
    exact ⟨hdigits, he.isGraphic⟩

end Signoff.Formula
