import Signoff.Formula.Template
import Signoff.Proofs.Formula.Arithmetic
import Signoff.Proofs.Formula.Lexing
import Signoff.Proofs.Formula.Printed

/-! # Written terms

    A term over the fields of a snapshot can be written as a formula in many ways: with
    any literals for its numbers, any brackets that are not needed, and any white space
    between two tokens. Numbers then take the place of the names:

    * `Term`, `Term.value`: the term and its value, each field being one operand.
    * `Term.calls`: the calls that are nested in one another while it is evaluated.
    * `Writes`: the pieces that a term is written as. Terms of one rank group to the left.
    * `IsOperand`: a text that is cut into tokens that spell a value, and how deep its
      expression is.
    * `isOperand_text`: a number in place of a name is one operand, also one with a sign or
      an exponent, so it does not change how the term groups.
    * `Writes.isOperand`: the text of a term spells its value.
-/

namespace Signoff.Formula

/-! ## Terms -/

/-- A term over the fields of a snapshot. -/
inductive Term where
  | number (a : Amount)
  | field (name : String)
  | signed (sign : Sign) (operand : Term)
  | binary (op : Operator) (left right : Term)

/-- The value of a term, each field being one operand. -/
def Term.value (operand : String → Amount) : Term → Except Failure Amount
  | .number a => .ok a
  | .field name => .ok (operand name)
  | .signed .plus t => t.value operand
  | .signed .minus t => (t.value operand).map Amount.negate
  | .binary op l r => do
    let a ← l.value operand
    let b ← r.value operand
    Amount.apply op a b

/-- The calls for a number in place of a name: a sign in front takes one of its own. -/
def Amount.calls (a : Amount) : Nat := if a.text.toList.head? = some '-' then 2 else 1

/-- The calls that are nested in one another while a term is evaluated. Brackets take none. -/
def Term.calls (operand : String → Amount) : Term → Nat
  | .number _ => 1
  | .field name => (operand name).calls
  | .signed _ t => t.calls operand + 1
  | .binary _ l r => max (l.calls operand) (r.calls operand) + 1

/-- How a sign is written. -/
def Sign.char : Sign → Char
  | .plus => '+'
  | .minus => '-'

/-- How an operator is written. -/
def Operator.char : Operator → Char
  | .add => '+'
  | .sub => '-'
  | .mul => '*'
  | .div => '/'

/-- Text without names. -/
def plain (cs : List Char) : List Piece := cs.map .plain

/-- The pieces that a term of the rank is written as, where `depth` brackets are open. Between two
    tokens there may be white space. -/
inductive Writes : Nat → Rank → Term → List Piece → Prop where
  | number {depth : Nat} {a : Amount} {cs : List Char} (ha : IsLiteral cs a) :
      Writes depth .factor (.number a) (plain cs)
  | field {depth : Nat} {name : String} (hne : name ≠ "")
      (hbraces : '\x7b' ∉ name.toList ∧ '\x7d' ∉ name.toList) :
      Writes depth .factor (.field name) [.field name]
  | group {depth : Nat} {t : Term} {ps : List Piece} {before after : List Char} (hdepth : depth < 200)
      (hbefore : ∀ c ∈ before, IsGap (depth + 1) c) (ht : Writes (depth + 1) .sum t ps)
      (hafter : ∀ c ∈ after, IsGap (depth + 1) c) :
      Writes depth .factor t (plain ['('] ++ (plain before ++ ps ++ plain after) ++ plain [')'])
  | signed {depth : Nat} {t : Term} {ps : List Piece} {gap : List Char} (sign : Sign)
      (hgap : ∀ c ∈ gap, IsGap depth c) (ht : Writes depth .factor t ps) :
      Writes depth .factor (.signed sign t) (plain [sign.char] ++ (plain gap ++ ps))
  | binary {depth : Nat} {l r : Term} {ps qs : List Piece} {before after : List Char} (op : Operator)
      (hl : Writes depth op.rank l ps) (hbefore : ∀ c ∈ before, IsGap depth c)
      (hafter : ∀ c ∈ after, IsGap depth c) (hr : Writes depth op.rank.tighter r qs) :
      Writes depth op.rank (.binary op l r)
        (ps ++ (plain before ++ (plain [op.char] ++ (plain after ++ qs))))
  | looser {depth : Nat} {rank : Rank} {t : Term} {ps : List Piece}
      (ht : Writes depth rank.tighter t ps) : Writes depth rank t ps

/-- The text of pieces. -/
def source (ps : List Piece) : List Char :=
  ps.flatMap fun
    | .plain c => [c]
    | .field name => '\x7b' :: (name.toList ++ ['\x7d'])

/-- The text of pieces with operands in place of the names. -/
def image (operand : String → Amount) (ps : List Piece) : List Char :=
  ps.flatMap fun
    | .plain c => [c]
    | .field name => (operand name).text.toList

/-! ## Texts of operands -/

/-- What an operand begins with. -/
def Starts (c : Char) : Prop := c.isDigit = true ∨ c ∈ ['.', '(', '+', '-']

/-- A text of arithmetic with a value: where `depth` brackets are open it is cut into tokens that
    spell an expression with that value, which takes so many calls. -/
structure IsOperand (depth : Nat) (rank : Rank) (value : Except Failure Amount) (calls : Nat)
    (cs : List Char) : Prop where
  starts : ∃ c tail, cs = c :: tail ∧ Starts c
  ends : ∃ body c, cs = body ++ [c] ∧ IsGraphic c
  chars : ∀ c ∈ cs, c.toNat ≠ 0
  spelled : ∃ e ts, Spells rank e ts ∧ (e.value = value ∧ e.depth = calls) ∧
    Lexes EndsOperand depth cs ts

variable {next after : Char → Prop} {depth calls : Nat} {rank : Rank} {value : Except Failure Amount}
  {cs ds gap rest : List Char} {ts us : List Token} {c : Char} {a b : Amount}

theorem Starts.isGraphic (hc : Starts c) : IsGraphic c := by
  rcases hc with hc | hc
  · exact isGraphic_of_isAlphanum (isAlphanum_of_isDigit hc)
  · have hall : ∀ c ∈ ['.', '(', '+', '-'], IsGraphic c := by simp [IsGraphic]
    exact hall c hc

theorem Starts.ne_lineEnd (hc : Starts c) : c ≠ '\n' ∧ c ≠ '\r' := by
  constructor <;> (rintro rfl; simp [Starts] at hc)

theorem Starts.endsSign (hc : Starts c) : EndsSign c := by
  rcases hc with hc | hc
  · rintro hmem
    have hnone : ∀ c ∈ ['=', '>', '*', '/'], c.isDigit = false := by simp
    simp [hnone c hmem] at hc
  · have hall : ∀ c ∈ ['.', '(', '+', '-'], c ∉ ['=', '>', '*', '/'] := by simp
    exact hall c hc

/-- White space may stand behind operands and signs. -/
theorem IsGap.ends (hc : IsGap depth c) : EndsOperand c ∧ EndsSign c ∧ c.toNat ≠ 0 := by
  have hall : ∀ c ∈ [' ', '\t', Char.ofNat 12, '\n', '\r'],
      (isWordChar c = false ∧ c ≠ '.') ∧ c ∉ ['=', '>', '*', '/'] ∧ c.toNat ≠ 0 := by simp [isWordChar]
  apply hall
  rcases hc with rfl | rfl | rfl | ⟨-, rfl | rfl⟩ <;> simp

/-- What holds of all characters of a text, and of the first one behind it, holds of the first one. -/
theorem forall_head_append {p : Char → Prop} (hcs : ∀ c ∈ cs, p c) (hrest : ∀ c ∈ rest.head?, p c) :
    ∀ c ∈ (cs ++ rest).head?, p c := by
  cases cs with
  | nil => exact hrest
  | cons d cs =>
    intro c hc
    obtain rfl : d = c := Option.some.inj hc
    exact hcs d (List.mem_cons_self ..)

/-- White space in front of a text is passed over. -/
theorem Lexes.behind_gap (hgap : ∀ c ∈ gap, IsGap depth c) (hc : c ≠ '\n')
    (hcs : Lexes next depth (c :: cs) ts) : Lexes next depth (gap ++ c :: cs) ts :=
  (lexes_gap hgap).append hcs fun _ _ => by simpa using hc

/-- A sign in front of an operand is a token. -/
theorem Lexes.behind_sign {sign : Char} (hsign : sign ∈ ['+', '-', '*', '/'])
    (hgap : ∀ c ∈ gap, IsGap depth c) (hcs : Lexes next depth cs ts)
    (hstarts : ∃ c tail, cs = c :: tail ∧ Starts c) :
    Lexes next depth (sign :: (gap ++ cs)) (.sign (String.singleton sign) :: ts) := by
  obtain ⟨c, tail, rfl, hc⟩ := hstarts
  refine (lexes_sign hsign).append (hcs.behind_gap hgap hc.ne_lineEnd.1) fun rest _ => ?_
  simp only [List.append_eq, List.append_assoc]
  exact forall_head_append (fun c hc => (hgap c hc).ends.2.1) (by simpa using hc.endsSign)

/-! ### The text of each kind of term -/

theorem isOperand_literal (ha : IsLiteral cs a) : IsOperand depth .factor (.ok a) 1 cs := by
  have hgraphic := ha.isGraphic
  obtain ⟨c, tail, hcs, hc⟩ := ha.exists_cons
  have hne : cs ≠ [] := by simp [hcs]
  have hlast : ∃ body d, cs = body ++ [d] ∧ IsGraphic d :=
    ⟨cs.dropLast, cs.getLast hne, (List.dropLast_append_getLast hne).symm,
      hgraphic _ (List.getLast_mem hne)⟩
  refine ⟨⟨c, tail, hcs, ?_⟩, hlast, fun d hd => ?_, .literal a, [a.token], ?_, ⟨rfl, rfl⟩, lexes_literal ha⟩
  · rcases hc with hc | ⟨rfl, -⟩
    · exact .inl hc
    · exact .inr (by simp)
  · have hle := (hgraphic d hd).1
    omega
  · cases ha with
    | whole | based => exact .int _
    | float | fraction => exact .float _

theorem Sign.text_eq (sign : Sign) : sign.text = String.singleton sign.char := by
  cases sign <;> rfl

theorem Operator.text_eq (op : Operator) : op.text = String.singleton op.char := by
  cases op <;> rfl

/-- An operand with a sign in front. -/
theorem IsOperand.signed {x : Except Failure Amount} (sign : Sign) (hgap : ∀ c ∈ gap, IsGap depth c)
    (h : IsOperand depth .factor value calls cs)
    (hx : x = match sign with | .plus => value | .minus => value.map Amount.negate) :
    IsOperand depth .factor x (calls + 1) (sign.char :: (gap ++ cs)) := by
  obtain ⟨e, ts, hspells, ⟨hvalue, hcalls⟩, hlexes⟩ := h.spelled
  have hsign : sign.char ∈ ['+', '-', '*', '/'] ∧ Starts sign.char ∧ sign.char.toNat ≠ 0 := by
    cases sign <;> simp [Sign.char, Starts]
  obtain ⟨hmem, hstarts, hnull⟩ := hsign
  refine ⟨⟨_, _, rfl, hstarts⟩, ?_, ?_, .signed sign e, _, .signed sign hspells,
    ⟨?_, by rw [Expr.depth, hcalls]⟩, ?_⟩
  · obtain ⟨body, d, rfl, hd⟩ := h.ends
    exact ⟨sign.char :: (gap ++ body), d, by simp, hd⟩
  · simp only [List.forall_mem_cons, List.forall_mem_append]
    exact ⟨hnull, fun c hc => (hgap c hc).ends.2.2, h.chars⟩
  · subst hx
    cases sign <;> simp [Expr.value, hvalue]
  · rw [Sign.text_eq]
    exact hlexes.behind_sign hmem hgap h.starts

/-- An operand in brackets. -/
theorem IsOperand.group {before behind : List Char} (hdepth : depth < 200)
    (hbefore : ∀ c ∈ before, IsGap (depth + 1) c) (h : IsOperand (depth + 1) .sum value calls cs)
    (hbehind : ∀ c ∈ behind, IsGap (depth + 1) c) :
    IsOperand depth .factor value calls ('(' :: ((before ++ (cs ++ behind)) ++ [')'])) := by
  obtain ⟨e, ts, hspells, hvalue, hlexes⟩ := h.spelled
  refine ⟨⟨_, _, rfl, .inr (by simp)⟩, ⟨'(' :: (before ++ (cs ++ behind)), ')', rfl, by decide⟩, ?_,
    e, _, .group hspells, hvalue, ?_⟩
  · have hends {gap : List Char} (hgap : ∀ c ∈ gap, IsGap (depth + 1) c) (c : Char) (hc : c ∈ gap) :
        c.toNat ≠ 0 := (hgap c hc).ends.2.2
    simp only [List.forall_mem_cons, List.forall_mem_append]
    exact ⟨by decide, ⟨hends hbefore, h.chars, hends hbehind⟩, by decide, nofun⟩
  · have hclose : Lexes (· = ')') (depth + 1) (cs ++ behind) (ts ++ []) := by
      refine hlexes.append ((lexes_gap hbehind).imp (by rintro c rfl; decide)) fun rest hrest => ?_
      refine forall_head_append (fun c hc => (hbehind c hc).ends.1) fun c hc => ?_
      obtain rfl := hrest c hc
      exact ⟨by decide, by decide⟩
    rw [List.append_nil] at hclose
    obtain ⟨c, tail, rfl, hc⟩ := h.starts
    exact (hclose.behind_gap hbefore hc.ne_lineEnd.1).group hdepth rfl

/-- Two operands with an operator between them. -/
theorem IsOperand.binary {x y : Except Failure Amount} {m n : Nat} {before behind : List Char}
    (op : Operator) (hl : IsOperand depth op.rank x m cs) (hbefore : ∀ c ∈ before, IsGap depth c)
    (hbehind : ∀ c ∈ behind, IsGap depth c) (hr : IsOperand depth op.rank.tighter y n ds) :
    IsOperand depth op.rank (do
      let a ← x
      let b ← y
      Amount.apply op a b) (max m n + 1) (cs ++ (before ++ op.char :: (behind ++ ds))) := by
  obtain ⟨l, ts, hspellsl, ⟨hvaluel, hcallsl⟩, hlexesl⟩ := hl.spelled
  obtain ⟨r, us, hspellsr, ⟨hvaluer, hcallsr⟩, hlexesr⟩ := hr.spelled
  have hop : op.char ∈ ['+', '-', '*', '/'] ∧ EndsOperand op.char ∧ op.char ≠ '\n' ∧
      op.char.toNat ≠ 0 := by
    cases op <;> simp [Operator.char, EndsOperand, isWordChar]
  obtain ⟨hmem, hends, hline, hnull⟩ := hop
  refine ⟨?_, ?_, ?_, .binary op l r, _, .binary op hspellsl hspellsr,
    ⟨?_, by rw [Expr.depth, hcallsl, hcallsr]⟩, ?_⟩
  · obtain ⟨c, tail, rfl, hc⟩ := hl.starts
    exact ⟨c, _, rfl, hc⟩
  · obtain ⟨body, d, rfl, hd⟩ := hr.ends
    exact ⟨cs ++ (before ++ op.char :: (behind ++ body)), d, by simp, hd⟩
  · simp only [List.forall_mem_cons, List.forall_mem_append]
    exact ⟨hl.chars, fun c hc => (hbefore c hc).ends.2.2, hnull, fun c hc => (hbehind c hc).ends.2.2,
      hr.chars⟩
  · rw [Expr.value, hvaluel, hvaluer]
  · -- White space, the operator, white space and the right operand stand behind the left one.
    have hright := (hlexesr.behind_sign hmem hbehind hr.starts).behind_gap hbefore hline
    rw [Operator.text_eq]
    refine hlexesl.append hright fun rest _ => ?_
    rw [List.append_assoc]
    exact forall_head_append (fun c hc => (hbefore c hc).ends.1) (by simpa using hends)

theorem IsOperand.looser (h : IsOperand depth rank.tighter value calls cs) :
    IsOperand depth rank value calls cs := by
  obtain ⟨e, ts, hspells, hrest⟩ := h.spelled
  exact { h with spelled := ⟨e, ts, .looser hspells, hrest⟩ }

/-! ### The text of a term -/

/-- A number that may stand for a name: zero, or a finite double that is read back from its text. -/
inductive IsOwn : Amount → Prop where
  | missing : IsOwn (.int 0)
  | present {x : Float} (hfinite : x.isFinite = true)
      (hback : NumberText.readFloat? (NumberText.floatText x) = some x) : IsOwn (.float x)

/-- A number in place of a name is one operand, whatever its sign and the form of its text. -/
theorem isOperand_text (ha : IsOwn a) :
    IsOperand depth .factor (.ok a) a.calls a.text.toList := by
  cases ha with
  | missing =>
    have hzero : IsLiteral ['0'] (.int 0) := .whole (.single (by decide)) (by simp) (by simp)
    exact isOperand_literal hzero
  | present hfinite hback =>
    obtain ⟨negative, text, y, htext, hliteral, rfl⟩ := literal_floatText hfinite hback
    have hpositive : IsOperand depth .factor (.ok (.float y)) 1 text := isOperand_literal hliteral
    rw [Amount.calls, Amount.text, htext]
    -- A sign binds tighter than any operator, so the signed literal is a factor as well.
    cases negative with
    | false =>
      have hunsigned : text.head? ≠ some '-' := by
        obtain ⟨c, tail, rfl, hc⟩ := hliteral.exists_cons
        rintro h
        obtain rfl : c = '-' := Option.some.inj h
        simp at hc
      simpa [signText, hunsigned] using hpositive
    | true => exact hpositive.signed .minus (List.forall_mem_nil _) rfl

theorem image_plain (operand : String → Amount) (cs : List Char) : image operand (plain cs) = cs := by
  simp [image, plain, List.flatMap_map]

theorem source_plain (cs : List Char) : source (plain cs) = cs := by
  simp [source, plain, List.flatMap_map]

theorem image_append (operand : String → Amount) (ps qs : List Piece) :
    image operand (ps ++ qs) = image operand ps ++ image operand qs := List.flatMap_append

/-- The names of a term. -/
def Term.fields : Term → List String
  | .number _ => []
  | .field name => [name]
  | .signed _ t => t.fields
  | .binary _ l r => l.fields ++ r.fields

/-- A written term, with numbers in place of its names, is cut into tokens that spell its value. -/
theorem Writes.isOperand {operand : String → Amount} {t : Term} {ps : List Piece}
    (ht : Writes depth rank t ps) (hown : ∀ name ∈ t.fields, IsOwn (operand name)) :
    IsOperand depth rank (t.value operand) (t.calls operand) (image operand ps) := by
  induction ht with
  | number ha =>
    rw [image_plain]
    exact isOperand_literal ha
  | @field depth name hne hbraces =>
    have htext : image operand [.field name] = (operand name).text.toList := by simp [image]
    rw [htext]
    exact isOperand_text (hown name (List.mem_singleton_self _))
  | group hdepth hbefore ht hafter ih =>
    simp only [image_append, image_plain, List.append_assoc, List.singleton_append]
    simpa only [List.append_assoc] using (ih hown).group hdepth hbefore hafter
  | signed sign hgap ht ih =>
    simp only [image_append, image_plain, List.singleton_append]
    refine (ih hown).signed sign hgap ?_
    cases sign <;> rfl
  | binary op hl hbefore hafter hr ihl ihr =>
    simp only [image_append, image_plain, List.singleton_append]
    have hleft := ihl fun name hname => hown name (List.mem_append_left _ hname)
    have hright := ihr fun name hname => hown name (List.mem_append_right _ hname)
    exact hleft.binary op hbefore hafter hright
  | looser ht ih => exact (ih hown).looser

end Signoff.Formula
