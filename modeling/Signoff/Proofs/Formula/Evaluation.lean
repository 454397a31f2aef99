import Signoff.Proofs.Formula.Outcome
import Signoff.Proofs.Formula.Writing

/-! # Evaluation of written terms

    A term that is written as a formula is evaluated as the term, whatever the numbers of
    its fields are:

    * `tokens?_of_isOperand`, `parse?_of_isOperand`: the text of an operand is cut, and read.
    * `pieces_source`: a text is cut into the pieces again that it was made of.
    * `Stands`: the operand that a name stands for: zero, or the number of the field.
    * `refused_of_notNumeric`, `evaluateWithin_of_stands`: a written formula with a field that is
      no number, and one whose fields have operands.
    * `evaluate_written`: the formula gives the value of the term, where the limits leave room
      for its text and its calls. It is refused if a field is no number, unless a field is too
      large for a double.
    * `evaluateWithin_ones`: a long sum has no value, for want of room alone.
-/

namespace Signoff.Formula

variable {depth calls : Nat} {rank : Rank} {value : Except Failure Amount} {cs : List Char} {c : Char}
  {t : Term} {ps : List Piece}

/-! ## Tokens of a text -/

theorem mem_unifyLines (hc : c ∈ unifyLines cs) : c ∈ cs ∨ c = '\n' := by
  fun_induction unifyLines cs <;> simp_all <;> tauto

/-- A text that begins with an operand has no lines in front of it, and is not indented. -/
theorem dropLeadingLines_of_starts {fuel : Nat} (hc : Starts c) :
    dropLeadingLines (fuel + 1) (c :: cs) = some (c :: cs) := by
  have hother : c ≠ '\\' ∧ c ≠ ' ' ∧ c ≠ '\t' ∧ c ≠ '#' := by
    refine ⟨?_, ?_, ?_, ?_⟩ <;> (rintro rfl; simp [Starts] at hc)
  obtain ⟨hjoin, hspace, htab, hcomment⟩ := hother
  have hline := hc.ne_lineEnd.1
  have hfeed : c.toNat ≠ 12 := by
    have hgraphic := hc.isGraphic.1
    omega
  have hcolumn : indentation? (cs.length + 1 + 1) 0 0 (c :: cs) = some (0, c :: cs) := by
    simp [indentation?, hjoin, hspace, htab, hfeed]
  simp [dropLeadingLines, hcolumn, hcomment, hline]

/-- A text of arithmetic is cut into tokens that spell its value. -/
theorem tokens?_of_isOperand (h : IsOperand 0 rank value calls cs) :
    ∃ e ts, tokens? cs = some { tokens := ts } ∧ Spells rank e ts ∧
      e.value = value ∧ e.depth = calls := by
  obtain ⟨e, ts, hspells, hown, hlexes⟩ := h.spelled
  refine ⟨e, ts, ?_, hspells, hown⟩
  obtain ⟨steps, hless, hcut⟩ := hlexes [] [] rfl (by simp)
  rw [List.append_nil] at hless hcut
  have hnull : (unifyLines cs).any (·.toNat == 0) = false := by
    rw [List.any_eq_false]
    intro c hc
    rcases mem_unifyLines hc with hc | rfl
    · simpa using h.chars c hc
    · decide
  have hstart : dropLeadingLines ((unifyLines cs).length + 1) (unifyLines cs) =
      some (unifyLines cs) := by
    obtain ⟨c, tail, rfl, hc⟩ := h.starts
    rw [unifyLines_cons hc.ne_lineEnd.2]
    exact dropLeadingLines_of_starts hc
  -- Each step of cutting takes a character, so there is fuel left for the end of the text.
  obtain ⟨fuel, hfuel⟩ : ∃ fuel, 2 * (unifyLines cs).length + 2 = fuel + 1 + steps :=
    ⟨2 * (unifyLines cs).length + 1 - steps, by omega⟩
  have hall : cut? (2 * (unifyLines cs).length + 2) [] (unifyLines cs) = some { tokens := ts } := by
    rw [hfuel, hcut]
    simp [unifyLines, cut?, Tokens.behind]
  simp [tokens?, hnull, hstart, hall]

/-- A text of arithmetic is the expression of its value. -/
theorem parse?_of_isOperand (h : IsOperand 0 .sum value calls cs) :
    ∃ e, Expr.parse? (String.ofList cs) = some e ∧ e.value = value ∧ e.depth = calls := by
  obtain ⟨e, ts, htokens, hspells, hown⟩ := tokens?_of_isOperand h
  refine ⟨e, ?_, hown⟩
  simp [Expr.parse?, parseWithin?, htokens, whole?_of_spells hspells]

/-! ## The pieces of a formula -/

/-- Pieces that a formula can be cut into: its names can be told from its text. -/
def Piece.IsProper : Piece → Prop
  | .plain c => c ≠ '\x7b'
  | .field name => name ≠ "" ∧ '\x7b' ∉ name.toList ∧ '\x7d' ∉ name.toList

/-- A name in braces is read up to the closing one. -/
theorem fieldName?_of_isProper {name : String} (hname : (Piece.field name).IsProper)
    (cs : List Char) :
    fieldName? (name.toList ++ '\x7d' :: cs) = some (name, cs) := by
  obtain ⟨hne, hopening, hclosing⟩ := hname
  have hall : ∀ c ∈ name.toList, (c != '\x7b' && c != '\x7d') = true := by
    intro c hc
    simp only [Bool.and_eq_true, bne_iff_ne]
    constructor <;> (rintro rfl; contradiction)
  unfold fieldName?
  rw [List.takeWhile_append_of_pos hall, List.dropWhile_append_of_pos hall]
  simp [hne]

/-- The text of pieces is cut into them again. -/
theorem pieces_source {fuel : Nat} (hps : ∀ p ∈ ps, p.IsProper) (hfuel : (source ps).length < fuel) :
    pieces fuel (source ps) = ps := by
  induction ps generalizing fuel with
  | nil =>
    obtain ⟨fuel, rfl⟩ : ∃ f, fuel = f + 1 := ⟨fuel - 1, by omega⟩
    simp [source, pieces]
  | cons p ps ih =>
    obtain ⟨hp, hrest⟩ := List.forall_mem_cons.mp hps
    obtain ⟨fuel, rfl⟩ : ∃ f, fuel = f + 1 := ⟨fuel - 1, by omega⟩
    cases p with
    | plain c =>
      have hsource : source (.plain c :: ps) = c :: source ps := by simp [source]
      have hc : c ≠ '\x7b' := hp
      rw [hsource, List.length_cons] at hfuel
      have hlater : pieces fuel (source ps) = ps := ih hrest (by omega)
      simp [hsource, pieces, hlater]
    | field name =>
      have hsource : source (.field name :: ps) = '\x7b' :: (name.toList ++ '\x7d' :: source ps) := by
        simp [source]
      rw [hsource] at hfuel ⊢
      simp only [List.length_cons, List.length_append] at hfuel
      have hlater : pieces fuel (source ps) = ps := ih hrest (by omega)
      simp [pieces, fieldName?_of_isProper hp, hlater]

theorem isProper_plain (hcs : ∀ c ∈ cs, c ≠ '\x7b') : ∀ p ∈ plain cs, p.IsProper := by
  simpa [plain, Piece.IsProper] using hcs

theorem isProper_gap {gap : List Char} (hgap : ∀ c ∈ gap, IsGap depth c) :
    ∀ p ∈ plain gap, p.IsProper := by
  refine isProper_plain fun c hc => ?_
  rcases hgap c hc with rfl | rfl | rfl | ⟨-, rfl | rfl⟩ <;> simp

/-- A term is written in pieces that its text is cut into again. -/
theorem Writes.isProper (ht : Writes depth rank t ps) : ∀ p ∈ ps, p.IsProper := by
  induction ht with
  | number ha =>
    refine isProper_plain ?_
    rintro c hc rfl
    exact absurd (ha.isGraphic _ hc).2 (by decide)
  | field hne hbraces => simpa [Piece.IsProper] using ⟨hne, hbraces⟩
  | group hdepth hbefore ht hafter ih =>
    simp only [List.forall_mem_append]
    exact ⟨⟨isProper_plain (by simp), ⟨isProper_gap hbefore, ih⟩, isProper_gap hafter⟩,
      isProper_plain (by simp)⟩
  | signed sign hgap ht ih =>
    simp only [List.forall_mem_append]
    exact ⟨isProper_plain (by cases sign <;> simp [Sign.char]), isProper_gap hgap, ih⟩
  | binary op hl hbefore hafter hr ihl ihr =>
    simp only [List.forall_mem_append]
    exact ⟨ihl, isProper_gap hbefore, isProper_plain (by cases op <;> simp [Operator.char]),
      isProper_gap hafter, ihr⟩
  | looser ht ih => exact ih

/-- The names of a term are those of the pieces that it is written in. -/
theorem Writes.mem_fields (ht : Writes depth rank t ps) {name : String} :
    Piece.field name ∈ ps ↔ name ∈ t.fields := by
  have hplain (cs : List Char) : Piece.field name ∉ plain cs := by simp [plain]
  induction ht with
  | number ha => simp [hplain, Term.fields]
  | field => simp [Term.fields]
  | group hdepth hbefore ht hafter ih => simp [hplain, ih]
  | signed sign hgap ht ih => simp [hplain, ih, Term.fields]
  | binary op hl hbefore hafter hr ihl ihr => simp [hplain, ihl, ihr, Term.fields]
  | looser ht ih => exact ih

/-! ## Formulas -/

/-- The operand that a name stands for in a snapshot: zero if there is no value, else the value's
    number. -/
inductive Stands (snapshot : Fields) (name : String) : Amount → Prop where
  | missing (hmissing : (fieldValue snapshot name).isMissing = true) : Stands snapshot name (.int 0)
  | present {x : Float} (hpresent : (fieldValue snapshot name).isMissing = false)
      (hnumber : (fieldValue snapshot name).number? = .ok (some x)) (hfinite : x.isFinite = true)
      (hback : NumberText.readFloat? (NumberText.floatText x) = some x) :
      Stands snapshot name (.float x)

variable {formula : String} {snapshot : Fields} {name : String} {a : Amount}

theorem Stands.isOwn (h : Stands snapshot name a) : IsOwn a := by
  cases h with
  | missing => exact .missing
  | present hpresent hnumber hfinite hback => exact .present hfinite hback

theorem Stands.pieceText (h : Stands snapshot name a) :
    pieceText formula snapshot (.field name) = .ok a.text := by
  cases h with
  | missing hmissing =>
    simp only [Formula.pieceText, hmissing]
    rfl
  | present hpresent hnumber =>
    simp only [Formula.pieceText, hpresent, hnumber]
    rfl

/-- Operands take the place of the names. -/
theorem mapM_pieceText (formula : String) {operand : String → Amount}
    (hps : ∀ name, .field name ∈ ps → Stands snapshot name (operand name)) :
    ∃ texts, ps.mapM (pieceText formula snapshot) = .ok texts ∧
      (String.join texts).toList = image operand ps := by
  induction ps with
  | nil => exact ⟨[], rfl, rfl⟩
  | cons p ps ih =>
    obtain ⟨texts, htexts, hjoin⟩ := ih fun name hname => hps name (List.mem_cons_of_mem _ hname)
    obtain ⟨text, htext, htoList⟩ : ∃ text, pieceText formula snapshot p = .ok text ∧
        text.toList = image operand [p] := by
      cases p with
      | plain c => exact ⟨String.singleton c, rfl, by simp [image]⟩
      | field name => exact ⟨_, (hps name (List.mem_cons_self ..)).pieceText, by simp [image]⟩
    refine ⟨text :: texts, ?_, ?_⟩
    · rw [List.mapM_cons, htext, htexts]
      rfl
    · rw [show p :: ps = [p] ++ ps from rfl, image_append, ← htoList, ← hjoin]
      simp [String.toList_join]

/-- The pieces of a written formula, with the white space around it. -/
theorem pieces_written {lead trail : List Char} (ht : Writes 0 .sum t ps)
    (hlead : ∀ c ∈ lead, Text.isBlank c = true) (htrail : ∀ c ∈ trail, Text.isBlank c = true)
    (hformula : formula.toList = lead ++ (source ps ++ trail)) :
    pieces (formula.length + 1) formula.toList = plain lead ++ (ps ++ plain trail) := by
  have hblank {cs : List Char} (hcs : ∀ c ∈ cs, Text.isBlank c = true) :
      ∀ p ∈ plain cs, p.IsProper := by
    refine isProper_plain ?_
    rintro c hc rfl
    exact absurd (hcs _ hc) (by decide)
  have hsource : formula.toList = source (plain lead ++ (ps ++ plain trail)) := by
    simp [hformula, source, plain, List.flatMap_map]
  rw [hsource]
  refine pieces_source ?_ ?_
  · simp only [List.forall_mem_append]
    exact ⟨hblank hlead, ht.isProper, hblank htrail⟩
  · rw [← hsource, String.length_toList]
    omega

section Written

variable {lead trail : List Char} {limits : Limits} (ht : Writes 0 .sum t ps)
  (hlead : ∀ c ∈ lead, Text.isBlank c = true) (htrail : ∀ c ∈ trail, Text.isBlank c = true)
  (hformula : formula.toList = lead ++ (source ps ++ trail))

include ht hlead htrail hformula

/-- The fields of a written formula are those of its term. -/
theorem mem_pieces_written :
    .field name ∈ pieces (formula.length + 1) formula.toList ↔ name ∈ t.fields := by
  rw [pieces_written ht hlead htrail hformula]
  simp [ht.mem_fields, plain]

/-- A written formula is refused for a field that is no number, if none is too large for a double. -/
theorem refused_of_notNumeric (hnumeric : ∃ name ∈ t.fields, NotNumeric (fieldValue snapshot name))
    (hsmall : ∀ name ∈ t.fields, ¬ (fieldValue snapshot name).IsTooLarge) :
    ∃ name ∈ t.fields, NotNumeric (fieldValue snapshot name) ∧
      evaluateWithin limits formula snapshot =
        .error (refusal formula ("\x7b" ++ name ++ "\x7d is not numeric") []) := by
  obtain ⟨name, hname, hnumeric⟩ := hnumeric
  -- The first name without a text decides. It need not be the one that was given.
  cases hmap : (pieces (formula.length + 1) formula.toList).mapM (pieceText formula snapshot) with
  | ok texts =>
    have hpiece := (mem_pieces_written ht hlead htrail hformula).mpr hname
    obtain ⟨text, htext⟩ := Result.forall_of_mapM hmap _ hpiece
    rw [pieceText_error_iff.mpr (.inr ⟨hnumeric, rfl⟩)] at htext
    cases htext
  | error fault =>
    obtain ⟨piece, hpiece, herror⟩ := Result.exists_of_mapM_error hmap
    cases piece with
    | plain c => cases herror
    | field name =>
      have hname := (mem_pieces_written ht hlead htrail hformula).mp hpiece
      rcases pieceText_error_iff.mp herror with ⟨hlarge, -⟩ | ⟨hnumeric, rfl⟩
      · exact absurd hlarge (hsmall name hname)
      · refine ⟨name, hname, hnumeric, ?_⟩
        rw [evaluateWithin, substitute, hmap]
        rfl

variable {operand : String → Amount}

/-- With operands for its fields, the text of a written formula is an expression with the value and the
    calls of the term. -/
theorem exists_expression_of_stands (hstands : ∀ name ∈ t.fields, Stands snapshot name (operand name)) :
    ∃ text e, substitute formula snapshot = .ok text ∧
      Text.trim text = String.ofList (image operand ps) ∧ Expr.parse? (Text.trim text) = some e ∧
      e.value = t.value operand ∧ e.depth = t.calls operand := by
  have hpieces := pieces_written ht hlead htrail hformula
  obtain ⟨texts, htexts, hjoin⟩ := mapM_pieceText formula fun name hname =>
    hstands name ((mem_pieces_written ht hlead htrail hformula).mp hname)
  have hoperand := ht.isOperand fun name hname => (hstands name hname).isOwn
  obtain ⟨e, hparse, hown⟩ := parse?_of_isOperand hoperand
  -- An operand neither begins nor ends with white space, so just what is around it is trimmed.
  have htrim : Text.trim (String.join texts) = String.ofList (image operand ps) := by
    rw [hpieces, image_append, image_append, image_plain, image_plain] at hjoin
    obtain ⟨c, tail, hhead, hc⟩ := hoperand.starts
    obtain ⟨body, d, hlast, hd⟩ := hoperand.ends
    rw [Text.trim, hjoin, Text.trimList_append hlead htrail]
    · exact ⟨c, by simp [hhead], hc.isGraphic.not_blank⟩
    · exact ⟨d, by simp [hlast], hd.not_blank⟩
  refine ⟨String.join texts, e, ?_, htrim, htrim ▸ hparse, hown⟩
  rw [substitute, htexts]
  rfl

/-- So the formula comes to the value of the term, where the limits leave room for it. -/
theorem evaluateWithin_of_stands (hstands : ∀ name ∈ t.fields, Stands snapshot name (operand name)) :
    (∀ resource, limits.exhausts (String.ofList (image operand ps)) = some resource →
      evaluateWithin limits formula snapshot = .error (.exhausted resource)) ∧
    (limits.exhausts (String.ofList (image operand ps)) = none →
      (t.calls operand ≤ limits.calls →
        evaluateWithin limits formula snapshot = match t.value operand with
          | .ok a => .ok a.normalize
          | .error failure => .error (failureFault formula failure)) ∧
      (limits.calls < t.calls operand →
        ∃ failure, (failure = .tooDeep ∨ t.value operand = .error failure) ∧
          evaluateWithin limits formula snapshot = .error (failureFault formula failure))) := by
  obtain ⟨text, e, htext, htrim, hparse, hvalue, hcalls⟩ :=
    exists_expression_of_stands ht hlead htrail hformula hstands
  rw [← htrim, ← hvalue, ← hcalls]
  constructor
  · intro resource hexhausts
    exact evaluateWithin_of_exhausts htext hexhausts
  · intro hexhausts
    rw [evaluateWithin_of_parse? htext hexhausts hparse]
    rcases valueWithin_cases e limits.calls with ⟨hdepth, hwithin⟩ | ⟨hdepth, failure, hwithin, hcause⟩
    · rw [hwithin]
      exact ⟨fun _ => rfl, fun hdeep => absurd hdepth (Nat.not_le.mpr hdeep)⟩
    · refine ⟨fun hroom => absurd hroom (Nat.not_le.mpr hdepth), fun _ => ⟨failure, hcause, ?_⟩⟩
      rw [hwithin]

end Written

/-- A term that is written as a formula, with white space around it: if a field is there that is no
    number, the formula is refused for one such field, unless a field is too large for a double.
    And if each field stands for an operand, the formula comes to the value of the term, provided
    that the limits leave room for the text with the operands and for the calls of the term. If
    they do not, that is what it fails for, or for a failure of the term that comes first. -/
theorem evaluate_written {formula : String} {lead trail : List Char} {t : Term} {ps : List Piece}
    (limits : Limits) (snapshot : Fields) (ht : Writes 0 .sum t ps)
    (hlead : ∀ c ∈ lead, Text.isBlank c = true) (htrail : ∀ c ∈ trail, Text.isBlank c = true)
    (hformula : formula.toList = lead ++ (source ps ++ trail)) :
    ((∃ name ∈ t.fields, NotNumeric (fieldValue snapshot name)) →
      (∀ name ∈ t.fields, ¬ (fieldValue snapshot name).IsTooLarge) →
      ∃ name ∈ t.fields, NotNumeric (fieldValue snapshot name) ∧
        evaluateWithin limits formula snapshot =
          .error (refusal formula ("\x7b" ++ name ++ "\x7d is not numeric") [])) ∧
    ∀ operand : String → Amount, (∀ name ∈ t.fields, Stands snapshot name (operand name)) →
      (∀ resource, limits.exhausts (String.ofList (image operand ps)) = some resource →
        evaluateWithin limits formula snapshot = .error (.exhausted resource)) ∧
      (limits.exhausts (String.ofList (image operand ps)) = none →
        (t.calls operand ≤ limits.calls →
          evaluateWithin limits formula snapshot = match t.value operand with
            | .ok a => .ok a.normalize
            | .error failure => .error (failureFault formula failure)) ∧
        (limits.calls < t.calls operand →
          ∃ failure, (failure = .tooDeep ∨ t.value operand = .error failure) ∧
            evaluateWithin limits formula snapshot = .error (failureFault formula failure))) := by
  constructor
  · intro hnumeric hsmall
    exact refused_of_notNumeric ht hlead htrail hformula hnumeric hsmall
  · intro operand hstands
    exact evaluateWithin_of_stands ht hlead htrail hformula hstands

/-- A quotient of two names, and how it is written. -/
theorem writes_quotient :
    ∃ ps, Writes 0 .sum (.binary .div (.field "Total") (.signed .minus (.field "rate"))) ps ∧
      ps = .field "Total" :: (plain " / -".toList ++ [.field "rate"]) ∧
      "\x7bTotal\x7d / -\x7brate\x7d".toList = [] ++ (source ps ++ []) := by
  have htotal : Writes 0 .product (.field "Total") [.field "Total"] :=
    .looser (.field (by decide) (by decide))
  have hname : Writes 0 .factor (.field "rate") [.field "rate"] := .field (by decide) (by decide)
  have hrate := Writes.signed .minus (List.forall_mem_nil _) hname
  have hspace : ∀ c ∈ [' '], IsGap 0 c := by simp [IsGap]
  exact ⟨_, .looser (.binary .div htotal hspace hspace hrate), rfl, by decide⟩

/-- A negative number and one in exponent form are each one operand. -/
theorem evaluate_written_quotient :
    evaluate "\x7bTotal\x7d / -\x7brate\x7d" [("total", .text "-2"), ("rate", .float 1e-7)] =
        .ok (.int 20000000) ∧
      evaluate "\x7bTotal\x7d / -\x7brate\x7d" [("total", .text "n/a")] =
        .error (refusal "\x7bTotal\x7d / -\x7brate\x7d" "\x7bTotal\x7d is not numeric" []) := by
  obtain ⟨ps, ht, hps, hformula⟩ := writes_quotient
  constructor
  · let operand (name : String) : Amount := .float (if name = "Total" then -2.0 else 1e-7)
    have hstands : ∀ name ∈ (Term.binary .div (.field "Total")
        (.signed .minus (.field "rate"))).fields,
        Stands [("total", .text "-2"), ("rate", .float 1e-7)] name (operand name) := by
      intro name hname
      have hcases : name = "Total" ∨ name = "rate" := by simpa [Term.fields] using hname
      rcases hcases with rfl | rfl
      · refine .present (x := -2.0) ?_ ?_ ?_ ?_ <;> with_unfolding_all rfl
      · refine .present (x := 1e-7) ?_ ?_ ?_ ?_ <;> with_unfolding_all rfl
    have hnumbers := ((evaluate_written .standard [("total", .text "-2"), ("rate", .float 1e-7)] ht
      (List.forall_mem_nil _) (List.forall_mem_nil _) hformula).2 operand hstands).2
    have htext : String.ofList (image operand ps) = "-2.0 / -1e-07" := by
      subst hps
      decide +kernel
    have hroom : Limits.standard.exhausts (String.ofList (image operand ps)) = none := by
      rw [htext]
      decide +kernel
    have hcalls : (Term.binary .div (.field "Total") (.signed .minus (.field "rate"))).calls operand ≤
        Limits.standard.calls := by decide +kernel
    rw [evaluate, (hnumbers hroom).1 hcalls]
    with_unfolding_all rfl
  · have hnumeric : NotNumeric (fieldValue [("total", .text "n/a")] "Total") := by
      constructor <;> with_unfolding_all rfl
    have hmissing : fieldValue [("total", .text "n/a")] "rate" = .null := by with_unfolding_all rfl
    have hvalues : fieldValue [("total", .text "n/a")] "Total" = .text "n/a" := by
      with_unfolding_all rfl
    obtain ⟨name, hname, hname', hrefused⟩ := (evaluate_written .standard [("total", .text "n/a")] ht
      (List.forall_mem_nil _) (List.forall_mem_nil _) hformula).1
      ⟨"Total", by simp [Term.fields], hnumeric⟩
      (by simp [Term.fields, hmissing, hvalues, Value.IsTooLarge])
    have hcases : name = "Total" ∨ name = "rate" := by simpa [Term.fields] using hname
    rcases hcases with rfl | rfl
    · exact hrefused
    · simp [NotNumeric, hmissing, Value.isMissing] at hname'

/-- A number that is too large is noticed before a later name is: the formula is not refused. -/
theorem large_before_label :
    NotNumeric (fieldValue [("big", .int (Int.pow 10 400)), ("label", .text "n/a")] "label") ∧
      evaluate "\x7bbig\x7d + \x7blabel\x7d" [("big", .int (Int.pow 10 400)), ("label", .text "n/a")] =
        .error (.outOfRange "int too large to convert to float") := by
  refine ⟨⟨by with_unfolding_all rfl, by with_unfolding_all rfl⟩, ?_⟩
  have hpieces :
      pieces ("\x7bbig\x7d + \x7blabel\x7d".length + 1) "\x7bbig\x7d + \x7blabel\x7d".toList =
        .field "big" :: (plain [' ', '+', ' '] ++ [.field "label"]) := by with_unfolding_all rfl
  have hvalue : fieldValue [("big", .int (Int.pow 10 400)), ("label", .text "n/a")] "big" =
      .int (Int.pow 10 400) := by with_unfolding_all rfl
  have hlarge : Binary.ofInt? (Int.pow 10 400) = none := by decide +kernel
  exact evaluate_of_isTooLarge hpieces ⟨_, hvalue, hlarge⟩

/-! ## Long sums -/

variable {limits : Limits} {formula : String} {operand : String → Amount} {n : Nat}

/-- A one, and so many more behind it. -/
def ones : Nat → Term
  | 0 => .number (.int 1)
  | n + 1 => .binary .add (ones n) (.number (.int 1))

/-- How the sum is written. -/
def onesText : Nat → List Char
  | 0 => ['1']
  | n + 1 => onesText n ++ ['+', '1']

theorem writes_ones (n : Nat) : Writes 0 .sum (ones n) (plain (onesText n)) := by
  have hrun : Run Char.isDigit ['1'] ['1'] := .single (by decide)
  have hone : Writes 0 .product (.number (.int 1)) (plain ['1']) :=
    .looser (.number (.whole hrun (by decide) (by decide)))
  induction n with
  | zero => exact .looser hone
  | succ n ih =>
    have hsum := Writes.binary .add ih (List.forall_mem_nil _) (List.forall_mem_nil _) hone
    rw [onesText, plain, List.map_append]
    exact hsum

theorem calls_ones (n : Nat) : (ones n).calls operand = n + 1 := by
  induction n with
  | zero => rfl
  | succ n ih => simp [ones, Term.calls, ih]

theorem fields_ones (n : Nat) : (ones n).fields = [] := by
  induction n with
  | zero => rfl
  | succ n ih => simp [ones, Term.fields, ih]

theorem value_ones (n : Nat) : (ones n).value operand = .ok (.int (n + 1)) := by
  induction n with
  | zero => rfl
  | succ n ih =>
    rw [ones, Term.value, ih]
    rfl

/-- A sum with more terms than calls that can be nested fails for want of room, whatever the snapshot is, even
    where reading it takes no more than there is. Only its depth keeps it from its value. -/
theorem evaluateWithin_ones (snapshot : Fields) (hformula : formula.toList = onesText n)
    (hread : limits.exhausts formula = none) (hdeep : limits.calls ≤ n) :
    evaluateWithin limits formula snapshot = .error (.exhausted .depth) := by
  -- No field is named, so any operands will do.
  let operand (_ : String) : Amount := .int 0
  have hnone : ∀ name ∈ (ones n).fields, Stands snapshot name (operand name) := by
    intro name hname
    rw [fields_ones] at hname
    cases hname
  have htext : String.ofList (image operand (plain (onesText n))) = formula := by
    rw [image_plain, ← hformula, String.ofList_toList]
  have hwritten : formula.toList = [] ++ (source (plain (onesText n)) ++ []) := by
    rw [source_plain, List.append_nil, List.nil_append, hformula]
  obtain ⟨-, hfits⟩ := evaluateWithin_of_stands (writes_ones n) (List.forall_mem_nil _)
    (List.forall_mem_nil _) hwritten hnone
  have hcalls : limits.calls < (ones n).calls operand := by
    rw [calls_ones]
    omega
  obtain ⟨failure, rfl | hfailure, hfault⟩ := (hfits (htext ▸ hread)).2 hcalls
  · exact hfault
  · rw [value_ones] at hfailure
    cases hfailure

end Signoff.Formula
