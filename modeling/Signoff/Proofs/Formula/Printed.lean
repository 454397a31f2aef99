import Signoff.Number.Read
import Signoff.Proofs.Formula.Literal
import Signoff.Proofs.Number.Sign

/-! # Printed numbers

    The text of a finite double is a number of a formula, and it stands for the double
    again, as long as the double is read back from it:

    * `Printed`: the decimal numbers that doubles are printed as.
    * `Printed.eq_of_readFloat?`: reading one back gives its value.
    * `printed_floatText`: a finite double is printed as one, behind its sign.
    * `literal_floatText`: so a double that is read back is the number that its text is
      in a formula, or its opposite if the text has a minus sign.
-/

namespace Signoff

open NumberText (digitsValue ofDecimal)

namespace NumberText

/-- ASCII digits stay as they are, and no other ASCII character is a digit. -/
theorem asciiDigits_of_ascii {cs : List Char} (hcs : ∀ c ∈ cs, c.toNat < 128) : asciiDigits cs = cs := by
  have hcode : ∀ n < 128, asciiDigits [Char.ofNat n] = [Char.ofNat n] := by decide +kernel
  induction cs with
  | nil => rfl
  | cons c cs ih =>
    obtain ⟨hc, hcs⟩ := List.forall_mem_cons.mp hcs
    have hfirst : asciiDigits [c] = [c] := by simpa using hcode c.toNat hc
    calc asciiDigits (c :: cs) = asciiDigits [c] ++ asciiDigits cs := rfl
      _ = c :: cs := by rw [hfirst, ih hcs, List.singleton_append]

theorem dropUnderscores?_of_not_mem {cs : List Char} (hcs : '_' ∉ cs) (last : Bool) :
    dropUnderscores? last cs = some cs := by
  induction cs generalizing last with
  | nil => rfl
  | cons c cs ih =>
    have hc : c ≠ '_' := fun h => hcs (by simp [h])
    simp [dropUnderscores?, ih (fun h => hcs (List.mem_cons_of_mem _ h))]

end NumberText

namespace Text

/-- White space in front of a text is dropped, up to its first character that is none. -/
theorem dropWhile_isBlank {lead text : List Char} (hlead : ∀ c ∈ lead, isBlank c = true)
    (hhead : ∃ c ∈ text.head?, isBlank c = false) : (lead ++ text).dropWhile isBlank = text := by
  obtain ⟨c, hc, hsolid⟩ := hhead
  rw [List.dropWhile_append_of_pos hlead]
  cases text with
  | nil => simp at hc
  | cons d text =>
    obtain rfl : d = c := Option.some.inj hc
    simp [hsolid]

/-- The white space around a text is taken off it. -/
theorem trimList_append {lead text trail : List Char} (hlead : ∀ c ∈ lead, isBlank c = true)
    (htrail : ∀ c ∈ trail, isBlank c = true) (hhead : ∃ c ∈ text.head?, isBlank c = false)
    (hlast : ∃ c ∈ text.getLast?, isBlank c = false) : trimList (lead ++ (text ++ trail)) = text := by
  have hfront : ∃ c ∈ (text ++ trail).head?, isBlank c = false := by
    obtain ⟨c, hc, hsolid⟩ := hhead
    exact ⟨c, by simp_all, hsolid⟩
  rw [trimList, dropWhile_isBlank hlead hfront, List.reverse_append,
    dropWhile_isBlank (by simpa using htrail) (by simpa using hlast), List.reverse_reverse]

end Text

namespace Formula

variable {cs ps es whole : List Char} {fraction : Option (List Char)} {e : Option Int} {x : Float}

theorem IsGraphic.not_blank {c : Char} (hc : IsGraphic c) : Text.isBlank c = false := by
  unfold IsGraphic at hc
  rw [Bool.eq_false_iff]
  intro hblank
  simp [Text.isBlank, Text.blankRanges, Text.inRanges] at hblank
  omega

/-! ## Numbers as they are printed -/

/-- A decimal number as doubles are printed: without underscores, and with a point or an exponent.
    Its value depends on the sign in front of it. -/
inductive Printed : List Char → (Bool → Float) → Prop where
  | intro {cs ps es whole : List Char} {fraction : Option (List Char)} {e : Option Int}
      (hrun : Run Char.isDigit cs whole) (hpoint : Point ps fraction) (he : Exponent es e)
      (hfloat : fraction.isSome = true ∨ e.isSome = true) (hjoint : '_' ∉ cs ++ (ps ++ es)) :
      Printed (cs ++ (ps ++ es)) fun negative =>
        decimalValue negative whole fraction (e.getD 0)

/-- The sign in front of a number. -/
def signText (negative : Bool) : List Char := if negative then ['-'] else []

/-- A run without underscores is its digits. -/
theorem Run.eq_digits (hrun : Run Char.isDigit cs whole) (hjoint : '_' ∉ cs) :
    cs = whole ∧ ∀ d ∈ whole, d.isDigit = true := by
  induction hrun with
  | single hc => simpa using hc
  | next hc hrun ih =>
    obtain ⟨rfl, hdigits⟩ := ih fun h => hjoint (List.mem_cons_of_mem _ h)
    simpa using ⟨hc, hdigits⟩
  | joined hc hrun ih => simp at hjoint

/-- Digits in front of what is none are taken off as a whole. -/
theorem span_digits {ds text : List Char} (hds : ∀ d ∈ ds, d.isDigit = true)
    (htext : ∀ c ∈ text.head?, c.isDigit = false) :
    (ds ++ text).takeWhile Char.isDigit = ds ∧ (ds ++ text).dropWhile Char.isDigit = text := by
  rw [List.takeWhile_append_of_pos hds, List.dropWhile_append_of_pos hds]
  cases text with
  | nil => simp
  | cons c text => simp [htext c rfl]

/-- The digits, the fraction and the exponent of a number are read back. -/
theorem unsigned?_eq (hrun : Run Char.isDigit cs whole) (hpoint : Point ps fraction)
    (he : Exponent es e) (hjoint : '_' ∉ cs ++ (ps ++ es)) (negative : Bool) :
    NumberText.unsigned? negative (cs ++ (ps ++ es)) =
      (NumberText.exponentOf? es).map (decimalValue negative whole fraction) := by
  simp only [List.mem_append, not_or] at hjoint
  obtain ⟨rfl, hdigits⟩ := hrun.eq_digits hjoint.1
  have hend : Follows [] := by simp [Follows]
  have hes : ∀ c ∈ es.head?, c.isDigit = false ∧ c ≠ '.' := fun c hc =>
    have hboth := he.not_digit hend c (by simpa using hc)
    ⟨hboth.1.1, hboth.2⟩
  have hps : ∀ c ∈ (ps ++ es).head?, c.isDigit = false := fun c hc =>
    (hpoint.not_digit he hend c (by simpa using hc)).1
  have hne : cs ≠ [] := by
    obtain ⟨c, tail, rfl, -⟩ := hrun.exists_cons
    simp
  unfold NumberText.unsigned? decimalValue
  rw [(span_digits hdigits hps).1, (span_digits hdigits hps).2]
  cases hpoint with
  | absent =>
    cases hcs : es with
    | nil => simp [hne]
    | cons c tail =>
      have hc : c ≠ '.' := (hes c (by simp [hcs])).2
      simp [hne, hc]
  | bare =>
    obtain ⟨htaken, hleft⟩ := span_digits (List.forall_mem_nil _) fun c hc => (hes c hc).1
    rw [List.nil_append] at htaken hleft
    simp [hne, htaken, hleft]
  | digits hrun =>
    obtain ⟨rfl, hdigits⟩ := hrun.eq_digits (by simpa using hjoint.2.1)
    have hspan := span_digits hdigits fun c hc => (hes c hc).1
    simp [hne, hspan.1, hspan.2]

/-- A sign is taken off, and nothing else. -/
theorem takeSign_signText {text : List Char} (negative : Bool)
    (htext : ∃ c ∈ text.head?, c.isDigit = true) :
    NumberText.takeSign (signText negative ++ text) = (negative, text) := by
  obtain ⟨c, hc, hdigit⟩ := htext
  cases text with
  | nil => simp at hc
  | cons d text =>
    obtain rfl : d = c := Option.some.inj hc
    have hplus : d ≠ '+' := by rintro rfl; simp at hdigit
    have hminus : d ≠ '-' := by rintro rfl; simp at hdigit
    cases negative <;> simp [signText, NumberText.takeSign, hplus, hminus]

/-- The exponent of a number is read back. -/
theorem exponentOf?_eq {n : Int} (he : Exponent es e) (hjoint : '_' ∉ es)
    (hread : NumberText.exponentOf? es = some n) : n = e.getD 0 := by
  cases he with
  | absent => simpa [NumberText.exponentOf?] using hread.symm
  | plain he hrun =>
    obtain ⟨rfl, -⟩ := hrun.eq_digits fun h => hjoint (by simp [h])
    obtain ⟨c, tail, rfl, hc⟩ := hrun.exists_cons
    have hsign : NumberText.takeSign (c :: tail) = (false, c :: tail) :=
      takeSign_signText false ⟨c, rfl, hc⟩
    simp only [NumberText.exponentOf?, he, if_true, hsign, Bool.false_eq_true, if_false] at hread
    split_ifs at hread
    simpa using hread.symm
  | plus he hrun | minus he hrun =>
    obtain ⟨rfl, -⟩ := hrun.eq_digits fun h => hjoint (by simp [h])
    simp only [NumberText.exponentOf?, he, if_true, NumberText.takeSign, Bool.false_eq_true,
      if_false] at hread
    split_ifs at hread
    simpa using hread.symm

/-- Digits are no name of a value that is no finite number. -/
theorem named?_eq_none {text : List Char} (htext : ∃ c ∈ text.head?, c.isDigit = true)
    (negative : Bool) : NumberText.named? negative text = none := by
  obtain ⟨c, hc, hdigit⟩ := htext
  cases text with
  | nil => simp at hc
  | cons d text =>
    obtain rfl : d = c := Option.some.inj hc
    have hlower : d.toLower = d := by
      have hle := (Char.isDigit_iff_toNat.mp hdigit).2
      unfold Char.toLower
      rw [dif_neg]
      rintro ⟨hupper, -⟩
      rw [ge_iff_le, UInt32.le_iff_toNat_le] at hupper
      exact absurd (hupper.trans hle) (by decide)
    have hne (word : String) (hword : ∀ c ∈ word.toList.head?, c.isDigit = false) :
        String.ofList ((d :: text).map Char.toLower) ≠ word := by
      rintro rfl
      simp [hlower, hdigit] at hword
    unfold NumberText.named?
    rw [if_neg (by simp only [hne "inf" (by simp), hne "infinity" (by simp), or_self, not_false_eq_true]),
      if_neg (hne "nan" (by simp))]

/-- A text of graphic characters without underscores is read as it is. -/
theorem readFloat?_of_graphic {text : List Char} (hne : text ≠ [])
    (hgraphic : ∀ c ∈ text, IsGraphic c) (hjoint : '_' ∉ text) :
    NumberText.readFloat? (String.ofList text) =
      (NumberText.named? (NumberText.takeSign text).1 (NumberText.takeSign text).2).orElse fun _ =>
        NumberText.unsigned? (NumberText.takeSign text).1 (NumberText.takeSign text).2 := by
  have htrim : Text.trimList text = text := by
    have hends := Text.trimList_append (List.forall_mem_nil _) (List.forall_mem_nil _)
      ⟨text.head hne, List.head?_eq_some_head hne, (hgraphic _ (List.head_mem hne)).not_blank⟩
      ⟨text.getLast hne, List.getLast?_eq_some_getLast hne,
        (hgraphic _ (List.getLast_mem hne)).not_blank⟩
    simpa using hends
  have hascii : NumberText.asciiDigits text = text :=
    NumberText.asciiDigits_of_ascii fun c hc => by have := (hgraphic c hc).2; omega
  simp only [NumberText.readFloat?, String.toList_ofList, htrim, hascii,
    NumberText.dropUnderscores?_of_not_mem hjoint, Option.bind_some]

/-- A printed number is read back as its value. -/
theorem Printed.eq_of_readFloat? {text : List Char} {value : Bool → Float} {negative : Bool}
    (htext : Printed text value)
    (hread : NumberText.readFloat? (String.ofList (signText negative ++ text)) = some x) :
    x = value negative := by
  cases htext with
  | @intro cs ps es whole fraction e hrun hpoint he hfloat hjoint =>
  have hgraphic := (IsLiteral.float hrun hpoint he hfloat).isGraphic
  have hhead : ∃ c ∈ (cs ++ (ps ++ es)).head?, c.isDigit = true := by
    obtain ⟨c, tail, rfl, hc⟩ := hrun.exists_cons
    exact ⟨c, rfl, hc⟩
  have hne : cs ++ (ps ++ es) ≠ [] := by
    rintro hnil
    simp [hnil] at hhead
  have hminus : IsGraphic '-' := by decide
  -- No white space, no underscores, no name such as infinity: the number is read behind its sign.
  rw [readFloat?_of_graphic, takeSign_signText negative hhead, named?_eq_none hhead,
    Option.orElse_none, unsigned?_eq hrun hpoint he hjoint, Option.map_eq_some_iff] at hread
  · obtain ⟨n, hn, rfl⟩ := hread
    rw [exponentOf?_eq he (fun h => hjoint (by simp [h])) hn]
  · simpa using fun _ => hne
  · cases negative
    · simpa [signText] using hgraphic
    · exact List.forall_mem_cons.mpr ⟨hminus, hgraphic⟩
  · cases negative <;> simpa [signText] using hjoint

/-! ## Doubles as they are printed -/

/-- Digits are a run. -/
theorem run_of_digits {ds : List Char} (hne : ds ≠ []) (hds : ∀ d ∈ ds, d.isDigit = true) :
    Run Char.isDigit ds ds := by
  induction ds with
  | nil => exact absurd rfl hne
  | cons d ds ih =>
    obtain ⟨hd, hds⟩ := List.forall_mem_cons.mp hds
    cases ds with
    | nil => exact .single hd
    | cons d' ds => exact .next hd (ih (List.cons_ne_nil _ _) hds)

theorem not_mem_of_digits {ds : List Char} (hds : ∀ d ∈ ds, d.isDigit = true) : '_' ∉ ds :=
  fun h => absurd (hds '_' h) (by decide)

/-- Digits with a point between them are a printed number. -/
theorem printed_of_digits {ws fs : List Char} (hws : ∀ d ∈ ws, d.isDigit = true) (hwne : ws ≠ [])
    (hfs : ∀ d ∈ fs, d.isDigit = true) (hfne : fs ≠ []) :
    ∃ value, Printed (ws ++ '.' :: fs) value := by
  have hjoint : '_' ∉ ws ++ ('.' :: fs ++ []) := by
    simp [not_mem_of_digits hws, not_mem_of_digits hfs]
  have hprinted := Printed.intro (run_of_digits hwne hws) (.digits (run_of_digits hfne hfs)) .absent
    (.inl rfl) hjoint
  rw [List.append_nil] at hprinted
  exact ⟨_, hprinted⟩

theorem isDigit_of_mem_zeros {n : Nat} {d : Char} (hd : d ∈ List.replicate n '0') :
    d.isDigit = true := by
  rw [List.eq_of_mem_replicate hd]
  decide

/-- Digits with the point at any place are a printed number. -/
theorem printed_positional {ds : List Char} (hne : ds ≠ []) (hds : ∀ d ∈ ds, d.isDigit = true)
    (point : Int) : ∃ value, Printed (NumberText.positional ds point).toList value := by
  have hzeros (n : Nat) : ∀ d ∈ List.replicate n '0', d.isDigit = true := fun _ =>
    isDigit_of_mem_zeros
  unfold NumberText.positional
  split_ifs with hsmall
  · have htext : ("0." ++ String.ofList (List.replicate (-point).toNat '0' ++ ds)).toList =
        ['0'] ++ '.' :: (List.replicate (-point).toNat '0' ++ ds) := by simp
    rw [htext]
    exact printed_of_digits (hzeros 1) (by simp) (List.forall_mem_append.mpr ⟨hzeros _, hds⟩)
      (by simp [hne])
  · extract_lets whole
    have hpositive : 0 < whole := by omega
    split_ifs with hlong
    · have htext : (String.ofList (ds ++ List.replicate (whole - ds.length) '0') ++ ".0").toList =
          (ds ++ List.replicate (whole - ds.length) '0') ++ '.' :: ['0'] := by simp
      rw [htext]
      exact printed_of_digits (List.forall_mem_append.mpr ⟨hds, hzeros _⟩) (by simp [hne])
        (hzeros 1) (by simp)
    · have htext : (String.ofList (ds.take whole) ++ "." ++ String.ofList (ds.drop whole)).toList =
          ds.take whole ++ '.' :: ds.drop whole := by simp
      rw [htext]
      refine printed_of_digits (fun d hd => hds d (List.mem_of_mem_take hd)) ?_
        (fun d hd => hds d (List.mem_of_mem_drop hd)) ?_
      · simp [hne, hpositive.ne']
      · simpa using hlong

/-- The exponent of a printed number. -/
theorem exponent_exponentText (n : Int) :
    ∃ e, Exponent (NumberText.exponentText n).toList (some e) ∧
      '_' ∉ (NumberText.exponentText n).toList := by
  have hdigits : ∀ d ∈ (NumberText.padded 2 n.natAbs).toList, d.isDigit = true := by
    simp only [NumberText.padded, String.toList_ofList]
    exact List.forall_mem_append.mpr ⟨fun _ => isDigit_of_mem_zeros,
      fun _ => Nat.isDigit_of_mem_toDigits (by decide) (by decide)⟩
  have hne : (NumberText.padded 2 n.natAbs).toList ≠ [] := by
    simp [NumberText.padded, Nat.toDigits_ne_nil]
  have hrun := run_of_digits hne hdigits
  have hjoint := not_mem_of_digits hdigits
  unfold NumberText.exponentText
  rw [String.toList_append]
  split_ifs with hneg
  · exact ⟨_, .minus (.inl rfl) hrun, by simpa using hjoint⟩
  · exact ⟨_, .plus (.inl rfl) hrun, by simpa using hjoint⟩

/-- A positive double is printed as a decimal number. -/
theorem printed_decimalText (d : Decimal) :
    ∃ value, Printed (NumberText.decimalText 16 false d).toList value := by
  have hdigits : ∀ c ∈ Nat.toDigits 10 d.digits, c.isDigit = true := fun _ =>
    Nat.isDigit_of_mem_toDigits (by decide) (by decide)
  have hne : Nat.toDigits 10 d.digits ≠ [] := Nat.toDigits_ne_nil
  unfold NumberText.decimalText
  extract_lets digits point exponent fraction mantissa
  split_ifs with hpositional
  · exact printed_positional hne hdigits point
  · obtain ⟨e, he, hjoint⟩ := exponent_exponentText exponent
    have hrun : Run Char.isDigit (digits.take 1) (digits.take 1) :=
      run_of_digits (by simp [digits, hne]) fun d hd => hdigits d (List.mem_of_mem_take hd)
    have hfraction : ∀ d ∈ fraction, d.isDigit = true := fun d hd =>
      hdigits d (List.mem_of_mem_drop hd)
    have hpoint : ∃ ps tail?, mantissa.toList = digits.take 1 ++ ps ∧ Point ps tail? ∧ '_' ∉ ps := by
      cases hcases : fraction with
      | nil => exact ⟨[], none, by simp [mantissa, hcases], .absent, by simp⟩
      | cons d tail =>
        refine ⟨'.' :: fraction, some fraction, by simp [mantissa, hcases], .digits ?_, ?_⟩
        · exact run_of_digits (by simp [hcases]) hfraction
        · simpa using not_mem_of_digits hfraction
    obtain ⟨ps, tail?, hmantissa, hpoint, hnone⟩ := hpoint
    have hfirst := not_mem_of_digits fun d hd => hdigits d (List.mem_of_mem_take (i := 1) hd)
    rw [String.toList_append, hmantissa, List.append_assoc]
    refine ⟨_, .intro hrun hpoint he (.inr rfl) ?_⟩
    simp only [List.mem_append, not_or]
    exact ⟨hfirst, hnone, hjoint⟩

/-- A finite double is printed as a decimal number, behind its sign. -/
theorem printed_floatText (hx : x.isFinite = true) :
    ∃ negative text value, (NumberText.floatText x).toList = signText negative ++ text ∧
      Printed text value := by
  rw [← Binary.isSome_parts?, Option.isSome_iff_exists] at hx
  obtain ⟨p, hp⟩ := hx
  have hsign : (if p.negative = true then "-" else "").toList = signText p.negative := by
    cases p.negative <;> rfl
  have hbody : ∃ body value, Printed body.toList value ∧
      NumberText.floatText x = (if p.negative = true then "-" else "") ++ body := by
    unfold NumberText.floatText
    rw [hp]
    by_cases hzero : p.significand = 0
    · have hzeros : ∀ d ∈ ['0'], d.isDigit = true := by simp
      obtain ⟨value, hvalue⟩ := printed_of_digits hzeros (by simp) hzeros (by simp)
      exact ⟨"0.0", value, hvalue, by simp [hzero]⟩
    · obtain ⟨value, hvalue⟩ := printed_decimalText (Decimal.shortest p.significand p.exponent)
      exact ⟨_, value, hvalue, by simp [hzero]⟩
  obtain ⟨body, value, hvalue, htext⟩ := hbody
  exact ⟨p.negative, body.toList, value, by rw [htext, String.toList_append, hsign], hvalue⟩

/-- A finite double that its text reads back to is printed as a literal, behind its sign. -/
theorem literal_floatText (hx : x.isFinite = true)
    (hback : NumberText.readFloat? (NumberText.floatText x) = some x) :
    ∃ negative text y, (NumberText.floatText x).toList = signText negative ++ text ∧
      IsLiteral text (.float y) ∧ x = if negative then -y else y := by
  obtain ⟨negative, text, value, htext, hprinted⟩ := printed_floatText hx
  have hvalue : x = value negative := by
    apply hprinted.eq_of_readFloat?
    rwa [← htext, String.ofList_toList]
  -- The literal has no sign. That of the double is put in front of its nearest value.
  refine ⟨negative, text, value false, htext, ?_, ?_⟩
  · cases hprinted with
    | intro hrun hpoint he hfloat hjoint => exact .float hrun hpoint he hfloat
  · rw [hvalue]
    cases negative with
    | false => rfl
    | true =>
      cases hprinted with
      | intro hrun hpoint he hfloat hjoint => exact NumberText.neg_ofDecimal _ _

end Formula

end Signoff
