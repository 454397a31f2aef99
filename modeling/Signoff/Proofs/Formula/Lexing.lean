import Mathlib.Tactic.Tauto
import Signoff.Proofs.Formula.Literal

/-! # Cutting a text into tokens

    What is cut off the front of a text depends on what stands behind it, and on the
    brackets that are open, where line ends count as white space:

    * `Lexes next depth cs ts`: the text is cut into the tokens, whatever follows that begins
      with a character that satisfies `next`.
    * `Lexes.append`, `Lexes.group`: texts one behind the other, and a text in brackets.
    * `lexes_gap`: white space gives no tokens. `lexes_literal`, `lexes_sign`: a number and
      a sign give one token each.
-/

namespace Signoff.Formula

/-- Tokens in front of those of the rest of a text. -/
def Tokens.behind (ts : List Token) (more : Tokens) : Tokens :=
  { more with tokens := ts ++ more.tokens }

/-- The text is cut into the tokens wherever `depth` brackets are open and a character behind it
    satisfies `next`. Every step of cutting takes a character at least. -/
def Lexes (next : Char → Prop) (depth : Nat) (cs : List Char) (ts : List Token) : Prop :=
  ∀ stack rest, stack.length = depth → (∀ c ∈ rest.head?, next c) →
    ∃ steps, steps + (unifyLines rest).length ≤ (unifyLines (cs ++ rest)).length ∧
      ∀ fuel, cut? (fuel + steps) stack (unifyLines (cs ++ rest)) =
        (cut? fuel stack (unifyLines rest)).map (Tokens.behind ts)

variable {next after : Char → Prop} {depth fuel : Nat} {stack : List String} {c : Char}
  {cs ds rest : List Char} {ts us : List Token}

/-! ## Line ends -/

theorem unifyLines_cons (hc : c ≠ '\r') : unifyLines (c :: rest) = c :: unifyLines rest := by
  simp [unifyLines, hc]

theorem unifyLines_append (hcs : ∀ c ∈ cs, c ≠ '\r') :
    unifyLines (cs ++ rest) = cs ++ unifyLines rest := by
  induction cs with
  | nil => rfl
  | cons c cs ih =>
    obtain ⟨hc, hcs⟩ := List.forall_mem_cons.mp hcs
    rw [List.cons_append, unifyLines_cons hc, ih hcs, List.cons_append]

/-- A text goes on as before, or with a line end. -/
theorem head?_unifyLines (hc : c ∈ (unifyLines rest).head?) : c ∈ rest.head? ∨ c = '\n' := by
  cases rest with
  | nil => exact .inl hc
  | cons d rest =>
    by_cases hd : d = '\r'
    · subst hd
      right
      unfold unifyLines at hc
      split at hc
      · simpa using hc.symm
      · simpa using hc.symm
      next hother heq => exact absurd (List.head_eq_of_cons_eq heq).symm hother
      next heq => cases heq
    · rw [unifyLines_cons hd] at hc
      exact .inl hc

/-! ## Texts in sequence -/

theorem behind_behind (ts us : List Token) (more : Tokens) :
    (more.behind us).behind ts = more.behind (ts ++ us) := by
  simp [Tokens.behind]

theorem Lexes.imp (hcs : Lexes next depth cs ts) (h : ∀ c, after c → next c) :
    Lexes after depth cs ts :=
  fun stack rest hstack hrest => hcs stack rest hstack fun c hc => h c (hrest c hc)

/-- One text behind another is cut into the tokens of both. -/
theorem Lexes.append (hcs : Lexes next depth cs ts) (hds : Lexes after depth ds us)
    (hnext : ∀ rest, (∀ c ∈ rest.head?, after c) → ∀ c ∈ (ds ++ rest).head?, next c) :
    Lexes after depth (cs ++ ds) (ts ++ us) := by
  intro stack rest hstack hrest
  -- The first text is cut in front of the second one, and that in front of the rest.
  obtain ⟨steps, hless, hcut⟩ := hds stack rest hstack hrest
  obtain ⟨steps', hless', hcut'⟩ := hcs stack (ds ++ rest) hstack (hnext rest hrest)
  rw [List.append_assoc]
  refine ⟨steps + steps', by omega, fun fuel => ?_⟩
  calc cut? (fuel + (steps + steps')) stack (unifyLines (cs ++ (ds ++ rest)))
      = (cut? (fuel + steps) stack (unifyLines (ds ++ rest))).map (Tokens.behind ts) := by
        rw [← Nat.add_assoc, hcut']
    _ = ((cut? fuel stack (unifyLines rest)).map (Tokens.behind us)).map (Tokens.behind ts) := by
        rw [hcut]
    _ = (cut? fuel stack (unifyLines rest)).map (Tokens.behind (ts ++ us)) := by
        rw [Option.map_map]
        exact congrFun (congrArg Option.map (funext (behind_behind ts us))) _

/-! ## White space -/

/-- White space between two tokens. Within brackets it may go over lines. -/
def IsGap (depth : Nat) (c : Char) : Prop :=
  c = ' ' ∨ c = '\t' ∨ c = Char.ofNat 12 ∨ 0 < depth ∧ (c = '\n' ∨ c = '\r')

theorem cut?_blank (hc : c = ' ' ∨ c = '\t' ∨ c = Char.ofNat 12) :
    cut? (fuel + 1) stack (c :: rest) = cut? fuel stack rest := by
  rcases hc with rfl | rfl | rfl <;> simp [cut?]

theorem cut?_line (hstack : stack ≠ []) :
    cut? (fuel + 1) stack ('\n' :: rest) = cut? fuel stack rest := by
  simp [cut?, hstack]

theorem lexes_nil : Lexes next depth [] [] := fun stack rest _ _ =>
  ⟨0, by simp, fun fuel => by
    change _ = Option.map id _
    rw [Option.map_id]
    rfl⟩

/-- A line end of any kind is passed over within brackets. -/
theorem lexes_return (hdepth : 0 < depth) (hrest : Lexes (· ≠ '\n') depth cs []) :
    Lexes (· ≠ '\n') depth ('\r' :: cs) [] := by
  intro stack rest hstack hhead
  obtain ⟨steps, hless, hcut⟩ := hrest stack rest hstack hhead
  have hne : stack ≠ [] := List.ne_nil_of_length_pos (by omega)
  -- A return and a line feed behind it are one line end.
  by_cases hline : ∃ text, cs ++ rest = '\n' :: text
  · obtain ⟨text, htext⟩ := hline
    have hsame : unifyLines ('\r' :: cs ++ rest) = unifyLines (cs ++ rest) := by
      rw [List.cons_append, htext]
      simp [unifyLines]
    rw [hsame]
    exact ⟨steps, hless, hcut⟩
  · have hnew : unifyLines ('\r' :: cs ++ rest) = '\n' :: unifyLines (cs ++ rest) := by
      rw [List.cons_append, unifyLines]
      exact fun text htext => hline ⟨text, htext⟩
    rw [hnew]
    refine ⟨steps + 1, by rw [List.length_cons]; omega, fun fuel => ?_⟩
    rw [← Nat.add_assoc, cut?_line hne, hcut]

/-- White space is passed over. -/
theorem lexes_gap (hcs : ∀ c ∈ cs, IsGap depth c) : Lexes (· ≠ '\n') depth cs [] := by
  induction cs with
  | nil => exact lexes_nil
  | cons c cs ih =>
    obtain ⟨hc, hcs⟩ := List.forall_mem_cons.mp hcs
    have hblank (hc : c = ' ' ∨ c = '\t' ∨ c = Char.ofNat 12 ∨ 0 < depth ∧ c = '\n') :
        Lexes (· ≠ '\n') depth (c :: cs) [] := by
      intro stack rest hstack hrest
      obtain ⟨steps, hless, hcut⟩ := ih hcs stack rest hstack hrest
      have hreturn : c ≠ '\r' := by rcases hc with rfl | rfl | rfl | ⟨-, rfl⟩ <;> decide
      rw [List.cons_append, unifyLines_cons hreturn]
      refine ⟨steps + 1, by rw [List.length_cons]; omega, fun fuel => ?_⟩
      rw [← Nat.add_assoc, ← hcut fuel]
      rcases hc with hc | hc | hc | ⟨hdepth, rfl⟩
      · exact cut?_blank (.inl hc)
      · exact cut?_blank (.inr (.inl hc))
      · exact cut?_blank (.inr (.inr hc))
      · exact cut?_line (List.ne_nil_of_length_pos (by omega))
    rcases hc with hc | hc | hc | ⟨hdepth, hc | rfl⟩
    · exact hblank (.inl hc)
    · exact hblank (.inr (.inl hc))
    · exact hblank (.inr (.inr (.inl hc)))
    · exact hblank (.inr (.inr (.inr ⟨hdepth, hc⟩)))
    · exact lexes_return hdepth (ih ‹_›)

/-! ## Tokens -/

/-- What may stand behind an operand. -/
def EndsOperand (c : Char) : Prop := isWordChar c = false ∧ c ≠ '.'

/-- A number is cut off. -/
theorem cut?_number {t : Token} {text : List Char}
    (hc : c.isDigit = true ∨ c = '.' ∧ ∃ d more, cs = d :: more ∧ d.isDigit = true)
    (hnumber : number? (c :: cs) = some (t, text)) :
    cut? (fuel + 1) stack (c :: cs) = (cut? fuel stack text).map (Tokens.behind [t]) := by
  have hstart : (c.isDigit || (c == '.' && cs.head?.any Char.isDigit)) = true := by
    rcases hc with hc | ⟨rfl, d, more, rfl, hd⟩
    · simp [hc]
    · simp [hd]
  have hother : c ∉ ['\\', '#', '\n', ' ', '\t', Char.ofNat 12] := by
    intro hmem
    rcases hc with hc | ⟨rfl, -⟩
    · have hnone : ∀ c ∈ ['\\', '#', '\n', ' ', '\t', Char.ofNat 12], c.isDigit = false := by simp
      simp [hnone c hmem] at hc
    · exact absurd hmem (by decide)
  simp only [List.mem_cons, List.not_mem_nil, or_false, not_or] at hother
  obtain ⟨hjoin, hcomment, hline, hspace, htab, hfeed⟩ := hother
  have hfeed : c.toNat ≠ 12 := fun h => hfeed (by rw [← h, Char.ofNat_toNat])
  simp only [cut?, hspace, htab, hfeed, hstart, hnumber, or_self, if_false, if_true]
  rfl

/-- A number is one token. -/
theorem lexes_literal {a : Amount} (ha : IsLiteral cs a) : Lexes EndsOperand depth cs [a.token] := by
  intro stack rest hstack hrest
  have hfollows : Follows (unifyLines rest) := by
    intro c hc
    rcases head?_unifyLines hc with hc | rfl
    · exact hrest c hc
    · decide
  have hreturn : ∀ c ∈ cs, c ≠ '\r' := by
    rintro c hc rfl
    exact absurd (ha.isGraphic _ hc) (by decide)
  have hnumber := number?_of_isLiteral ha hfollows
  rw [unifyLines_append hreturn]
  obtain ⟨c, tail, rfl, hc⟩ := ha.exists_cons
  refine ⟨1, by simp; omega, fun fuel => ?_⟩
  rw [List.cons_append] at hnumber ⊢
  refine cut?_number ?_ hnumber
  rcases hc with hc | ⟨rfl, d, more, rfl, hd⟩
  · exact .inl hc
  · exact .inr ⟨rfl, d, _, rfl, hd⟩

/-- What may stand behind a sign, so that the sign is no longer one. -/
def EndsSign (c : Char) : Prop := c ∉ ['=', '>', '*', '/']

/-- The signs between operands, and in front of them. -/
theorem find?_sign (hc : c ∈ ['+', '-', '*', '/']) (hrest : ∀ d ∈ rest.head?, EndsSign d) :
    (signs.find? fun s => (afterPrefix? s.toList (c :: rest)).isSome) = some (String.singleton c) := by
  simp only [List.mem_cons, List.not_mem_nil, or_false] at hc
  cases rest with
  | nil => rcases hc with rfl | rfl | rfl | rfl <;> decide
  | cons d rest =>
    have hd : ¬('=' = d) ∧ ¬('>' = d) ∧ ¬('*' = d) ∧ ¬('/' = d) := by
      have hnot := hrest d rfl
      simp only [EndsSign, List.mem_cons, List.not_mem_nil, or_false, not_or] at hnot
      tauto
    rcases hc with rfl | rfl | rfl | rfl <;> simp [signs, afterPrefix?, hd]

/-- A sign is one token. -/
theorem cut?_sign (hc : c ∈ ['+', '-', '*', '/']) (hrest : ∀ d ∈ rest.head?, EndsSign d) :
    cut? (fuel + 1) stack (c :: rest) =
      (cut? fuel stack rest).map (Tokens.behind [.sign (String.singleton c)]) := by
  have hfind := find?_sign hc hrest
  simp only [List.mem_cons, List.not_mem_nil, or_false] at hc
  rcases hc with rfl | rfl | rfl | rfl <;>
    (simp [cut?, hfind, isWordChar, closing?]; rfl)

/-- An opening bracket is one token. -/
theorem cut?_open (hstack : stack.length < 200) :
    cut? (fuel + 1) stack ('(' :: rest) =
      (cut? fuel (")" :: stack) rest).map (Tokens.behind [.sign "("]) := by
  have hfind : (signs.find? fun s => (afterPrefix? s.toList ('(' :: rest)).isSome) = some "(" := by
    simp [signs, afterPrefix?]
  simp [cut?, hfind, isWordChar, closing?, hstack]
  rfl

/-- So is the closing one. -/
theorem cut?_close :
    cut? (fuel + 1) (")" :: stack) (')' :: rest) =
      (cut? fuel stack rest).map (Tokens.behind [.sign ")"]) := by
  have hfind : (signs.find? fun s => (afterPrefix? s.toList (')' :: rest)).isSome) = some ")" := by
    simp [signs, afterPrefix?]
  simp [cut?, hfind, isWordChar, closing?]
  rfl

/-- A sign is one token. -/
theorem lexes_sign (hc : c ∈ ['+', '-', '*', '/']) :
    Lexes EndsSign depth [c] [.sign (String.singleton c)] := by
  intro stack rest hstack hrest
  have hreturn : c ≠ '\r' := by rintro rfl; simp at hc
  rw [List.singleton_append, unifyLines_cons hreturn]
  refine ⟨1, by simp; omega, fun fuel => cut?_sign hc fun d hd => ?_⟩
  rcases head?_unifyLines hd with hd | rfl
  · exact hrest d hd
  · simp [EndsSign]

/-- What stands in brackets is cut into its tokens, between those of the brackets. -/
theorem Lexes.group (hdepth : depth < 200) (hcs : Lexes next (depth + 1) cs ts) (hnext : next ')') :
    Lexes after depth ('(' :: (cs ++ [')'])) (.sign "(" :: (ts ++ [.sign ")"])) := by
  intro stack rest hstack hrest
  have hinner : (")" :: stack).length = depth + 1 := by simp [hstack]
  obtain ⟨steps, hless, hcut⟩ := hcs (")" :: stack) (')' :: rest) hinner (by simpa using hnext)
  have htext : unifyLines ('(' :: (cs ++ [')']) ++ rest) = '(' :: unifyLines (cs ++ ')' :: rest) := by
    rw [← unifyLines_cons (by decide)]
    simp
  have hclose : unifyLines (')' :: rest) = ')' :: unifyLines rest := unifyLines_cons (by decide)
  rw [hclose, List.length_cons] at hless
  rw [htext]
  refine ⟨steps + 2, by rw [List.length_cons]; omega, fun fuel => ?_⟩
  calc cut? (fuel + (steps + 2)) stack ('(' :: unifyLines (cs ++ ')' :: rest))
      = (cut? (fuel + 1 + steps) (")" :: stack) (unifyLines (cs ++ ')' :: rest))).map
          (Tokens.behind [.sign "("]) := by
        rw [← cut?_open (by omega)]
        congr 1
        omega
    _ = (((cut? fuel stack (unifyLines rest)).map (Tokens.behind [.sign ")"])).map
          (Tokens.behind ts)).map (Tokens.behind [.sign "("]) := by
        rw [hcut, hclose, cut?_close]
    _ = (cut? fuel stack (unifyLines rest)).map
          (Tokens.behind (.sign "(" :: (ts ++ [.sign ")"]))) := by
        rw [Option.map_map, Option.map_map]
        refine congrFun (congrArg Option.map (funext fun more => ?_)) _
        simp [Tokens.behind]

end Signoff.Formula
