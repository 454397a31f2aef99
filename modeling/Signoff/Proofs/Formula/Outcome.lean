import Signoff.Formula.Template
import Signoff.Proofs.Formula.Plain
import Signoff.Proofs.Task
import Signoff.Proofs.Value

/-! # Outcomes of formulas

    A formula is evaluated in three steps: numbers take the place of the names, the text
    is read, and the expression is evaluated. Each of them may fail:

    * `pieceText_error_iff`: a name has no text just if its value is too large for a double,
      or is no number (`NotNumeric`).
    * `isArithmetic_of_becomes`: only the text of plain arithmetic has a value.
    * `apply_tooLarge_iff`, `overflows_iff`: an expression is too large just if one of its
      steps converts an integer that no double is near, or divides two integers with such a
      quotient (`OutOfRange`, `Overflows`).
    * `valueWithin_cases`: an expression has its value where there is room for its depth, and
      none where there is not.
    * `evaluate_outcomes`: there is a number, or the formula is refused, or an integer is too
      large, or the formula is nested deeper than the limits allow. Nothing else comes out of a
      formula, whatever the limits are.
-/

namespace Signoff.Formula

variable {op : Operator} {a b : Amount} {e l r : Expr} {failure : Failure} {message : String}

/-! ## Values of expressions -/

theorem value_binary (hl : l.value = .ok a) (hr : r.value = .ok b) :
    (Expr.binary op l r).value = Amount.apply op a b := by
  simp [Expr.value, hl, hr, bind, Except.bind]

theorem value_binary_left (hl : l.value = .error failure) :
    (Expr.binary op l r).value = .error failure := by
  simp [Expr.value, hl, bind, Except.bind]

theorem value_binary_right (hl : l.value = .ok a) (hr : r.value = .error failure) :
    (Expr.binary op l r).value = .error failure := by
  simp [Expr.value, hl, hr, bind, Except.bind]

theorem value_signed_error {sign : Sign} :
    (Expr.signed sign e).value = .error failure ↔ e.value = .error failure := by
  cases sign with
  | plus => rfl
  | minus => cases h : e.value <;> simp [Expr.value, h, Except.map]

/-- Only arithmetic has a value. -/
theorem isPlain_of_value (h : e.value = .ok a) : e.IsPlain := by
  induction e generalizing a with
  | literal => trivial
  | signed sign e ih =>
    cases hvalue : e.value with
    | ok b => exact ih hvalue
    | error failure =>
      rw [value_signed_error.mpr hvalue] at h
      cases h
  | binary op l r ihl ihr =>
    cases hl : l.value with
    | error failure =>
      rw [value_binary_left hl] at h
      cases h
    | ok x =>
      cases hr : r.value with
      | error failure =>
        rw [value_binary_right hl hr] at h
        cases h
      | ok y => exact ⟨ihl hl, ihr hr⟩
  | foreign => cases h

/-- Two numbers that no double can be computed from: one is an integer that is too large, or their
    quotient is. -/
inductive OutOfRange : Operator → Amount → Amount → Prop where
  | left {op : Operator} {n : Int} {x : Float} (hn : Binary.ofInt? n = none) :
      OutOfRange op (.int n) (.float x)
  | right {op : Operator} {n : Int} {x : Float} (hn : Binary.ofInt? n = none) :
      OutOfRange op (.float x) (.int n)
  | quotient {m n : Int} (hn : n ≠ 0) (hquotient : Binary.ofQuotient? m n = none) :
      OutOfRange .div (.int m) (.int n)

/-- A step of the evaluation is out of range. The left operand is evaluated first. -/
inductive Overflows : Expr → Prop where
  | here {op : Operator} {l r : Expr} {a b : Amount} (hl : l.value = .ok a) (hr : r.value = .ok b)
      (hrange : OutOfRange op a b) : Overflows (.binary op l r)
  | signed {sign : Sign} {e : Expr} (he : Overflows e) : Overflows (.signed sign e)
  | left {op : Operator} {l r : Expr} (hl : Overflows l) : Overflows (.binary op l r)
  | right {op : Operator} {l r : Expr} {a : Amount} (hl : l.value = .ok a) (hr : Overflows r) :
      Overflows (.binary op l r)

theorem Amount.toFloat_float (x : Float) : (Amount.float x).toFloat = .ok x := rfl

/-- An integer beside a double is converted first. -/
theorem apply_int_float (op : Operator) (n : Int) (y : Float) :
    Amount.apply op (.int n) (.float y) =
      (Amount.int n).toFloat >>= fun x => Amount.apply op (.float x) (.float y) := by
  cases op <;>
    simp only [Amount.apply, Amount.combine, Amount.divide, Amount.toFloat_float, bind, Except.bind]

theorem apply_float_int (op : Operator) (x : Float) (n : Int) :
    Amount.apply op (.float x) (.int n) =
      (Amount.int n).toFloat >>= fun y => Amount.apply op (.float x) (.float y) := by
  cases op <;>
    simp only [Amount.apply, Amount.combine, Amount.divide, Amount.toFloat_float, bind, Except.bind]

/-- Two doubles fail only where one is divided by zero. -/
theorem apply_floats_error {x y : Float}
    (h : Amount.apply op (.float x) (.float y) = .error failure) : failure = .divisionByZero := by
  cases op with
  | add | sub | mul => cases h
  | div =>
    change (if y == 0.0 then .error .divisionByZero else .ok (.float (x / y)) :
      Except Failure Amount) = _ at h
    split at h
    · exact (Except.error.inj h).symm
    · cases h

/-- A step that converts an integer is too large just if the integer is. -/
theorem converted_tooLarge_iff {n : Int} {f : Float → Except Failure Amount}
    (hf : ∀ x {failure}, f x = .error failure → failure = .divisionByZero) :
    (∃ message, (Amount.int n).toFloat >>= f = .error (.tooLarge message)) ↔
      Binary.ofInt? n = none := by
  cases hn : Binary.ofInt? n with
  | none => exact iff_of_true ⟨_, by simp [Amount.toFloat, hn, bind, Except.bind]; rfl⟩ rfl
  | some x =>
    refine iff_of_false ?_ (by simp)
    rintro ⟨message, h⟩
    have hstep : f x = .error (.tooLarge message) := by
      simpa [Amount.toFloat, hn, bind, Except.bind] using h
    cases hf x hstep

/-- And it fails for no other reason than the division by zero. -/
theorem converted_error {n : Int} {f : Float → Except Failure Amount}
    (hf : ∀ x {failure}, f x = .error failure → failure = .divisionByZero)
    (h : (Amount.int n).toFloat >>= f = .error failure) :
    failure = .divisionByZero ∨ ∃ message, failure = .tooLarge message := by
  cases hn : Binary.ofInt? n with
  | none =>
    have hconvert : (Amount.int n).toFloat =
        .error (.tooLarge "int too large to convert to float") := by
      simp only [Amount.toFloat, hn]
    rw [hconvert] at h
    exact .inr ⟨_, (Except.error.inj h).symm⟩
  | some x =>
    have hconvert : (Amount.int n).toFloat = .ok x := by simp only [Amount.toFloat, hn]
    rw [hconvert] at h
    exact .inl (hf x h)

/-- A quotient of integers is too large just if no double is near it. -/
theorem divide_tooLarge_iff {m n : Int} :
    (∃ message, Amount.divide (.int m) (.int n) = .error (.tooLarge message)) ↔
      n ≠ 0 ∧ Binary.ofQuotient? m n = none := by
  unfold Amount.divide
  by_cases hn : n = 0
  · simp [hn]
  · cases hquotient : Binary.ofQuotient? m n <;> simp [hn, hquotient]

/-- A step is too large just if its numbers are out of range. -/
theorem apply_tooLarge_iff :
    (∃ message, Amount.apply op a b = .error (.tooLarge message)) ↔ OutOfRange op a b := by
  cases a with
  | int m =>
    cases b with
    | int n =>
      cases op with
      | add | sub | mul => exact iff_of_false (fun ⟨_, h⟩ => nomatch h) nofun
      | div =>
        refine divide_tooLarge_iff.trans ⟨fun h => .quotient h.1 h.2, ?_⟩
        rintro (_ | _ | ⟨hn, hquotient⟩)
        exact ⟨hn, hquotient⟩
    | float y =>
      rw [apply_int_float, converted_tooLarge_iff fun x => apply_floats_error]
      exact ⟨.left, fun | .left hn => hn⟩
  | float x =>
    cases b with
    | int n =>
      rw [apply_float_int, converted_tooLarge_iff fun y => apply_floats_error]
      exact ⟨.right, fun | .right hn => hn⟩
    | float y => exact iff_of_false (fun ⟨_, h⟩ => nomatch apply_floats_error h) nofun

/-- A step divides by zero, or is too large: nothing else keeps it from a number. -/
theorem apply_error (h : Amount.apply op a b = .error failure) :
    failure = .divisionByZero ∨ ∃ message, failure = .tooLarge message := by
  cases a with
  | int m =>
    cases b with
    | int n =>
      cases op with
      | add | sub | mul => cases h
      | div =>
        change Amount.divide (.int m) (.int n) = _ at h
        by_cases hn : n = 0
        · exact .inl (by simpa [Amount.divide, hn, eq_comm] using h)
        · cases hquotient : Binary.ofQuotient? m n with
          | some x => simp [Amount.divide, hn, hquotient] at h
          | none => exact .inr ⟨_, by simpa [Amount.divide, hn, hquotient, eq_comm] using h⟩
    | float y =>
      rw [apply_int_float] at h
      exact converted_error (fun x => apply_floats_error) h
  | float x =>
    cases b with
    | int n =>
      rw [apply_float_int] at h
      exact converted_error (fun y => apply_floats_error) h
    | float y => exact .inl (apply_floats_error h)

/-- An expression is too large to be evaluated just if a step of its evaluation is out of range. -/
theorem overflows_iff : Overflows e ↔ ∃ message, e.value = .error (.tooLarge message) := by
  constructor
  · intro h
    induction h with
    | here hl hr hrange =>
      rw [value_binary hl hr]
      exact apply_tooLarge_iff.mpr hrange
    | signed he ih => exact ih.imp fun _ => value_signed_error.mpr
    | left hl ih => exact ih.imp fun _ => value_binary_left
    | right hl hr ih => exact ih.imp fun _ => value_binary_right hl
  · rintro ⟨message, h⟩
    induction e with
    | literal => cases h
    | signed sign e ih => exact .signed (ih (value_signed_error.mp h))
    | binary op l r ihl ihr =>
      cases hl : l.value with
      | error failure =>
        rw [value_binary_left hl] at h
        exact .left (ihl (hl.trans h))
      | ok a =>
        cases hr : r.value with
        | error failure =>
          rw [value_binary_right hl hr] at h
          exact .right hl (ihr (hr.trans h))
        | ok b =>
          rw [value_binary hl hr] at h
          exact .here hl hr (apply_tooLarge_iff.mp ⟨message, h⟩)
    | foreign => cases h

/-! ## Values within a room -/

/-- Without limits nothing is too deep. -/
theorem value_ne_tooDeep : e.value ≠ .error .tooDeep := by
  induction e with
  | literal => nofun
  | signed sign e ih => exact fun h => ih (value_signed_error.mp h)
  | binary op l r ihl ihr =>
    intro h
    cases hl : l.value with
    | error failure =>
      rw [value_binary_left hl] at h
      exact ihl (hl.trans h)
    | ok a =>
      cases hr : r.value with
      | error failure =>
        rw [value_binary_right hl hr] at h
        exact ihr (hr.trans h)
      | ok b =>
        rw [value_binary hl hr] at h
        obtain h | ⟨message, h⟩ := apply_error h <;> cases h
  | foreign => nofun

variable {room : Nat}

theorem valueWithin_binary_left (hl : l.valueWithin room = .error failure) :
    (Expr.binary op l r).valueWithin (room + 1) = .error failure := by
  simp [Expr.valueWithin, hl, bind, Except.bind]

theorem valueWithin_binary_right (hl : l.valueWithin room = .ok a)
    (hr : r.valueWithin room = .error failure) :
    (Expr.binary op l r).valueWithin (room + 1) = .error failure := by
  simp [Expr.valueWithin, hl, hr, bind, Except.bind]

theorem valueWithin_signed_error {sign : Sign} (h : e.valueWithin room = .error failure) :
    (Expr.signed sign e).valueWithin (room + 1) = .error failure := by
  cases sign with
  | plus => exact h
  | minus => simp [Expr.valueWithin, h, Except.map]

/-- The evaluation stops in front of the value: for want of room, or where the value stops too. -/
def StopsWithin (room : Nat) (e : Expr) : Prop :=
  ∃ failure, e.valueWithin room = .error failure ∧
    (failure = .tooDeep ∨ e.value = .error failure)

/-- Where there is room for the depth of an expression it has its value, and elsewhere it has none. -/
theorem valueWithin_cases (e : Expr) (room : Nat) :
    (e.depth ≤ room ∧ e.valueWithin room = e.value) ∨ (room < e.depth ∧ StopsWithin room e) := by
  induction e generalizing room with
  | literal | foreign =>
    cases room with
    | zero => exact .inr ⟨by simp [Expr.depth], .tooDeep, rfl, .inl rfl⟩
    | succ room => exact .inl ⟨by simp [Expr.depth], rfl⟩
  | signed sign e ih =>
    cases room with
    | zero => exact .inr ⟨by simp [Expr.depth], .tooDeep, by cases sign <;> rfl, .inl rfl⟩
    | succ room =>
      rcases ih room with ⟨hdepth, hvalue⟩ | ⟨hdepth, failure, hfailure, hcause⟩
      · refine .inl ⟨Nat.succ_le_succ hdepth, ?_⟩
        cases sign <;> simp only [Expr.valueWithin, Expr.value, hvalue]
      · exact .inr ⟨Nat.succ_lt_succ hdepth, failure, valueWithin_signed_error hfailure,
          hcause.imp_right value_signed_error.mpr⟩
  | binary op l r ihl ihr =>
    cases room with
    | zero => exact .inr ⟨by simp [Expr.depth], .tooDeep, rfl, .inl rfl⟩
    | succ room =>
      rcases ihl room with ⟨hdepthl, hvaluel⟩ | ⟨hdepthl, failure, hfailure, hcause⟩
      · rcases ihr room with ⟨hdepthr, hvaluer⟩ | ⟨hdepthr, failure, hfailure, hcause⟩
        · refine .inl ⟨Nat.succ_le_succ (Nat.max_le.mpr ⟨hdepthl, hdepthr⟩), ?_⟩
          simp only [Expr.valueWithin, Expr.value, hvaluel, hvaluer]
        · have hdeeper : room + 1 < (Expr.binary op l r).depth :=
            Nat.succ_lt_succ (Nat.lt_of_lt_of_le hdepthr (Nat.le_max_right ..))
          -- The left operand comes first, so a failure of its own is the one that shows.
          cases hl : l.value with
          | error failure =>
            exact .inr ⟨hdeeper, failure, valueWithin_binary_left (hvaluel.trans hl),
              .inr (value_binary_left hl)⟩
          | ok a =>
            exact .inr ⟨hdeeper, failure, valueWithin_binary_right (hvaluel.trans hl) hfailure,
              hcause.imp_right (value_binary_right hl)⟩
      · have hdeeper : room + 1 < (Expr.binary op l r).depth :=
          Nat.succ_lt_succ (Nat.lt_of_lt_of_le hdepthl (Nat.le_max_left ..))
        exact .inr ⟨hdeeper, failure, valueWithin_binary_left hfailure,
          hcause.imp_right value_binary_left⟩

/-- The value within a room is the value, and there is room for the depth. -/
theorem valueWithin_eq_ok_iff : e.valueWithin room = .ok a ↔ e.depth ≤ room ∧ e.value = .ok a := by
  rcases valueWithin_cases e room with ⟨hdepth, hvalue⟩ | ⟨hdepth, failure, hfailure, -⟩
  · simp [hdepth, hvalue]
  · simp [hfailure, Nat.not_le.mpr hdepth]

/-- A failure within a room is one of the value, or there is no room for the depth. -/
theorem valueWithin_eq_error (h : e.valueWithin room = .error failure) :
    failure = .tooDeep ∧ room < e.depth ∨ failure ≠ .tooDeep ∧ e.value = .error failure := by
  rcases valueWithin_cases e room with ⟨-, hvalue⟩ | ⟨hdepth, other, hother, hcause⟩
  · have hown : e.value = .error failure := hvalue.symm.trans h
    exact .inr ⟨fun hdeep => value_ne_tooDeep (hdeep ▸ hown), hown⟩
  · obtain rfl : other = failure := Except.error.inj (hother.symm.trans h)
    rcases hcause with rfl | hown
    · exact .inl ⟨rfl, hdepth⟩
    · exact .inr ⟨fun hdeep => value_ne_tooDeep (hdeep ▸ hown), hown⟩

/-! ## Outcomes of formulas -/

/-- The expression that a formula is over a snapshot. -/
def Becomes (formula : String) (snapshot : Fields) (e : Expr) : Prop :=
  ∃ text, substitute formula snapshot = .ok text ∧ Expr.parse? (Text.trim text) = some e

/-- The text of a formula over a snapshot is plain arithmetic: its tokens spell the expression. -/
def IsArithmetic (formula : String) (snapshot : Fields) (e : Expr) : Prop :=
  ∃ text read, substitute formula snapshot = .ok text ∧
    tokens? (Text.trim text).toList = some read ∧ Spells .sum e read.tokens

variable {formula : String} {snapshot : Fields} {fault : Fault} {limits : Limits}

/-- The fields that a formula names. -/
def fieldsOf (formula : String) : List String :=
  (pieces (formula.length + 1) formula.toList).filterMap fun
    | .plain _ => none
    | .field name => some name

/-- A value is there, and it is no number. -/
def NotNumeric (v : Value) : Prop := v.isMissing = false ∧ v.number? = .ok none

/-- What counts as missing is not asked for its number in vain. -/
theorem exists_number?_of_isMissing {v : Value} (h : v.isMissing = true) :
    ∃ x?, v.number? = .ok x? := by
  cases v with
  | bool | int => cases h
  | _ => exact ⟨_, rfl⟩

/-- A name has no text just if its value is too large for a double, or no number. -/
theorem pieceText_error_iff {name : String} :
    pieceText formula snapshot (.field name) = .error fault ↔
      (fieldValue snapshot name).IsTooLarge ∧ fault = .intTooLarge ∨
        NotNumeric (fieldValue snapshot name) ∧
          fault = refusal formula ("\x7b" ++ name ++ "\x7d is not numeric") [] := by
  -- What is missing counts as zero and is never asked for its number, so it is on neither side.
  rw [← Value.number?_eq_error_iff, NotNumeric]
  cases hmissing : (fieldValue snapshot name).isMissing with
  | true =>
    have hzero : pieceText formula snapshot (.field name) = .ok "0" := by
      simp only [pieceText, hmissing]
      rfl
    obtain ⟨x?, hnumber⟩ := exists_number?_of_isMissing hmissing
    simp [hzero, hnumber]
  | false =>
    cases hnumber : (fieldValue snapshot name).number? with
    | error fault =>
      have htext : pieceText formula snapshot (.field name) = .error fault := by
        simp only [pieceText, hmissing, hnumber]
        rfl
      simp [htext]
    | ok x? =>
      cases x? with
      | some x =>
        have htext : pieceText formula snapshot (.field name) = .ok (NumberText.floatText x) := by
          simp only [pieceText, hmissing, hnumber]
          rfl
        simp [htext]
      | none =>
        have htext : pieceText formula snapshot (.field name) =
            .error (refusal formula ("\x7b" ++ name ++ "\x7d is not numeric") []) := by
          simp only [pieceText, hmissing, hnumber]
          rfl
        simp [htext, eq_comm]

/-- The numbers of a snapshot take the place of the names, unless one is too large or no number. -/
theorem substitute_error (h : substitute formula snapshot = .error fault) :
    ∃ name ∈ fieldsOf formula,
      (fieldValue snapshot name).IsTooLarge ∧ fault = .intTooLarge ∨
        fault = refusal formula ("\x7b" ++ name ++ "\x7d is not numeric") [] := by
  rcases Result.bind_eq_error h with h | ⟨texts, -, h⟩
  · obtain ⟨piece, hpiece, h⟩ := Result.exists_of_mapM_error h
    cases piece with
    | plain c => cases h
    | field name =>
      refine ⟨name, List.mem_filterMap.mpr ⟨_, hpiece, rfl⟩, ?_⟩
      exact (pieceText_error_iff.mp h).imp_right And.right
  · cases h

/-- A formula that begins with a name is not evaluated if the value is too large for a double. -/
theorem evaluate_of_isTooLarge {name : String} {ps : List Piece}
    (hpieces : pieces (formula.length + 1) formula.toList = .field name :: ps)
    (hlarge : (fieldValue snapshot name).IsTooLarge) :
    evaluate formula snapshot = .error .intTooLarge := by
  have hfirst : pieceText formula snapshot (.field name) = .error .intTooLarge :=
    pieceText_error_iff.mpr (.inl ⟨hlarge, rfl⟩)
  rw [evaluate, evaluateWithin, substitute, hpieces, List.mapM_cons, hfirst]
  rfl

/-- What has a value is plain arithmetic. -/
theorem isArithmetic_of_becomes (h : Becomes formula snapshot e) (ha : e.value = .ok a) :
    IsArithmetic formula snapshot e := by
  obtain ⟨text, htext, hparse⟩ := h
  rw [Expr.parse?, parseWithin?] at hparse
  obtain ⟨read, hread, hparse⟩ := Option.bind_eq_some_iff.mp hparse
  split at hparse
  · exact ⟨text, read, htext, hread, spells_of_whole? hparse (isPlain_of_value ha)⟩
  · cases hparse

/-- What reading the text runs out of leaves the evaluation. -/
theorem evaluateWithin_of_exhausts {text : String} {resource : Exhaustion}
    (htext : substitute formula snapshot = .ok text)
    (hexhausts : limits.exhausts (Text.trim text) = some resource) :
    evaluateWithin limits formula snapshot = .error (.exhausted resource) := by
  rw [evaluateWithin, htext, Result.ok_bind, hexhausts]

/-- And an expression that is read is evaluated where there is room for it. -/
theorem evaluateWithin_of_parse? {text : String} (htext : substitute formula snapshot = .ok text)
    (hexhausts : limits.exhausts (Text.trim text) = none)
    (hparse : Expr.parse? (Text.trim text) = some e) :
    evaluateWithin limits formula snapshot = match e.valueWithin limits.calls with
      | .ok a => .ok a.normalize
      | .error failure => .error (failureFault formula failure) := by
  rw [evaluateWithin, htext, Result.ok_bind, hexhausts, hparse]
  cases hvalue : e.valueWithin limits.calls with
  | ok a =>
    simp only [hvalue]
    rfl
  | error failure => simp only [hvalue]

/-- The text of a formula over a snapshot is nested deeper than the limits allow: reading it takes
    more than there is, or the expression that is read takes more calls. -/
def TooNested (limits : Limits) (formula : String) (snapshot : Fields) (resource : Exhaustion) :
    Prop :=
  (∃ text, substitute formula snapshot = .ok text ∧
    limits.exhausts (Text.trim text) = some resource) ∨
  resource = .depth ∧ ∃ e, Becomes formula snapshot e ∧ limits.calls < e.depth

/-- A formula comes to a number, and then its text is plain arithmetic for which there is room; or it
    is refused; or an integer that no double is near has to be converted to one; or it is nested
    deeper than the limits allow. -/
theorem evaluate_outcomes (limits : Limits) (formula : String) (snapshot : Fields) :
    (∃ e a, IsArithmetic formula snapshot e ∧ e.depth ≤ limits.calls ∧ e.value = .ok a ∧
      evaluateWithin limits formula snapshot = .ok a.normalize) ∨
    (∃ reason details,
      evaluateWithin limits formula snapshot = .error (refusal formula reason details)) ∨
    (∃ message, evaluateWithin limits formula snapshot = .error (.outOfRange message) ∧
      ((∃ name ∈ fieldsOf formula, (fieldValue snapshot name).IsTooLarge) ∨
        ∃ e, Becomes formula snapshot e ∧ Overflows e)) ∨
    (∃ resource, evaluateWithin limits formula snapshot = .error (.exhausted resource) ∧
      TooNested limits formula snapshot resource) := by
  cases hsubstitute : substitute formula snapshot with
  | error fault =>
    have hevaluate : evaluateWithin limits formula snapshot = .error fault := by
      rw [evaluateWithin, hsubstitute]
      rfl
    obtain ⟨name, hname, ⟨hlarge, rfl⟩ | rfl⟩ := substitute_error hsubstitute
    · exact .inr (.inr (.inl ⟨_, hevaluate, .inl ⟨name, hname, hlarge⟩⟩))
    · exact .inr (.inl ⟨_, _, hevaluate⟩)
  | ok text =>
    cases hexhausts : limits.exhausts (Text.trim text) with
    | some resource =>
      have hevaluate := evaluateWithin_of_exhausts hsubstitute hexhausts
      exact .inr (.inr (.inr ⟨resource, hevaluate, .inl ⟨text, hsubstitute, hexhausts⟩⟩))
    | none =>
      cases hparse : Expr.parse? (Text.trim text) with
      | none =>
        have hevaluate : evaluateWithin limits formula snapshot =
            .error (refusal formula formula [("reason", .text "syntax error")]) := by
          rw [evaluateWithin, hsubstitute, Result.ok_bind, hexhausts, hparse]
        exact .inr (.inl ⟨_, _, hevaluate⟩)
      | some e =>
        have hbecomes : Becomes formula snapshot e := ⟨text, hsubstitute, hparse⟩
        have hevaluate := evaluateWithin_of_parse? hsubstitute hexhausts hparse
        cases hvalue : e.valueWithin limits.calls with
        | ok a =>
          obtain ⟨hdepth, hown⟩ := valueWithin_eq_ok_iff.mp hvalue
          rw [hvalue] at hevaluate
          exact .inl ⟨e, a, isArithmetic_of_becomes hbecomes hown, hdepth, hown, hevaluate⟩
        | error failure =>
          -- The division by zero and the foreign element are caught; the overflow and the want of
          -- room are not.
          rw [hvalue] at hevaluate
          rcases valueWithin_eq_error hvalue with ⟨rfl, hdepth⟩ | ⟨hroom, hown⟩
          · exact .inr (.inr (.inr ⟨.depth, hevaluate, .inr ⟨rfl, e, hbecomes, hdepth⟩⟩))
          · cases failure with
            | divisionByZero => exact .inr (.inl ⟨_, _, hevaluate⟩)
            | unsupported element => exact .inr (.inl ⟨_, _, hevaluate⟩)
            | tooLarge message =>
              have hoverflows : Overflows e := overflows_iff.mpr ⟨message, hown⟩
              exact .inr (.inr (.inl ⟨message, hevaluate, .inr ⟨e, hbecomes, hoverflows⟩⟩))
            | tooDeep => exact absurd rfl hroom

/-- One number that is too large is enough for a failure that is no refusal. -/
theorem large_total_overflows :
    evaluate "\x7btotal\x7d" [("total", .int (Int.pow 10 400))] =
      .error (.outOfRange "int too large to convert to float") := by
  have hvalue : fieldValue [("total", .int (Int.pow 10 400))] "total" = .int (Int.pow 10 400) := by
    with_unfolding_all rfl
  have hlarge : Binary.ofInt? (Int.pow 10 400) = none := by decide +kernel
  have hpieces : pieces ("\x7btotal\x7d".length + 1) "\x7btotal\x7d".toList = [.field "total"] := by
    with_unfolding_all rfl
  exact evaluate_of_isTooLarge hpieces ⟨_, hvalue, hlarge⟩

end Signoff.Formula
