import Mathlib.Tactic.SplitIfs
import Signoff.Proofs.Formula.Arithmetic

/-! # Plain arithmetic

    The language that formulas are read in has far more constructs than arithmetic. An
    expression without any of the others is spelled by the tokens it was read from, as
    arithmetic:

    * `Expr.IsPlain`: nothing but numbers, signs and the four operators.
    * `Gives`: what a reader gives is spelled by the tokens it used, if it is plain.
      `IsForeign`: it is never plain.
    * `soundLevels_cons`: one level of operators, from the tighter ones.
    * `spells_of_whole?`: the tokens of a plain expression spell it.
-/

namespace Signoff.Formula

/-- Does the expression hold no element that is no arithmetic? -/
def Expr.IsPlain : Expr → Prop
  | .literal _ => True
  | .signed _ e => e.IsPlain
  | .binary _ l r => l.IsPlain ∧ r.IsPlain
  | .foreign _ => False

/-- If what was read from the tokens is plain, then those that were used up spell it. -/
def Gives (rank : Rank) (ts : List Token) (read : Option (Expr × List Token)) : Prop :=
  ∀ e rest, read = some (e, rest) → e.IsPlain → ∃ used, ts = used ++ rest ∧ Spells rank e used

/-- What was read is never plain. -/
def IsForeign (read : Option (Expr × List Token)) : Prop :=
  ∀ e rest, read = some (e, rest) → ¬ e.IsPlain

variable {α : Type} {rank : Rank} {e l r : Expr} {ts us rest : List Token} {fuel : Nat}
  {read : Option (Expr × List Token)}

/-! ## Readers in sequence -/

theorem isForeign_some {element : String} : IsForeign (some (.foreign element, rest)) := by
  intro e rest h hplain
  obtain ⟨rfl, -⟩ := Prod.mk.inj (Option.some.inj h)
  exact hplain

theorem isForeign_bind {x : Option α} {f : α → Option (Expr × List Token)}
    (h : ∀ a, IsForeign (f a)) : IsForeign (x >>= f) := by
  intro e rest hread
  obtain ⟨a, -, hread⟩ := Option.bind_eq_some_iff.mp hread
  exact h a e rest hread

theorem isForeign_map {x : Option α} {element : String} {f : α → List Token} :
    IsForeign (x.map fun a => (.foreign element, f a)) := by
  intro e rest hread
  obtain ⟨a, -, hread⟩ := Option.map_eq_some_iff.mp hread
  exact isForeign_some e rest (congrArg some hread)

theorem isForeign_ite {c : Prop} [Decidable c] {x y : Option (Expr × List Token)}
    (hx : IsForeign x) (hy : IsForeign y) : IsForeign (if c then x else y) := by
  split_ifs
  · exact hx
  · exact hy

theorem IsForeign.gives (h : IsForeign read) : Gives rank ts read :=
  fun e rest hread hplain => absurd hplain (h e rest hread)

theorem gives_none : Gives rank ts none := by
  intro e rest h
  simp at h

theorem gives_ite {c : Prop} [Decidable c] {x y : Option (Expr × List Token)} (hx : Gives rank ts x)
    (hy : Gives rank ts y) : Gives rank ts (if c then x else y) := by
  split_ifs
  · exact hx
  · exact hy

/-- What follows an expression leaves it as it is, or makes it one that is not plain. -/
theorem gives_bind {f : Expr × List Token → Option (Expr × List Token)} (hread : Gives rank ts read)
    (hsame : ∀ {e after r rest}, f (e, after) = some (r, rest) → r.IsPlain → r = e ∧ after = rest) :
    Gives rank ts (read >>= f) := by
  intro r rest h hplain
  obtain ⟨⟨e, after⟩, he, h⟩ := Option.bind_eq_some_iff.mp h
  obtain ⟨rfl, rfl⟩ := hsame h hplain
  exact hread _ _ he hplain

/-- A construct behind an expression that is optional. -/
theorem eq_of_optional {c : Prop} [Decidable c] (h : (if c then read else pure (e, ts)) = some (r, rest))
    (hread : IsForeign read) (hplain : r.IsPlain) : r = e ∧ ts = rest := by
  split_ifs at h
  · exact absurd hplain (hread _ _ h)
  · obtain ⟨rfl, rfl⟩ := Prod.mk.inj (Option.some.inj h)
    exact ⟨rfl, rfl⟩

/-! ## Atoms -/

/-- Neither a mapping nor a set is plain. -/
theorem isForeign_braces? : IsForeign (braces? fuel ts) := by
  obtain _ | fuel := fuel
  · simp [braces?, IsForeign]
  unfold braces?
  refine isForeign_ite isForeign_some <| isForeign_ite isForeign_map <| isForeign_bind fun ⟨_, _, _⟩ =>
    isForeign_ite (isForeign_bind fun ⟨_, _⟩ => isForeign_ite ?_ (isForeign_ite ?_ ?_)) <|
      isForeign_ite ?_ (isForeign_ite ?_ ?_)
  -- A mapping from a comprehension, with further entries, and with one.
  · exact isForeign_bind fun _ => isForeign_bind fun _ => isForeign_some
  · exact isForeign_bind fun _ => isForeign_some
  · exact isForeign_bind fun _ => isForeign_some
  -- A set likewise.
  · exact isForeign_bind fun _ => isForeign_bind fun _ => isForeign_some
  · exact isForeign_bind fun _ => isForeign_some
  · exact isForeign_bind fun _ => isForeign_some

/-- Every expression that is read with less fuel is spelled. -/
def SoundBelow (fuel : Nat) : Prop := ∀ f < fuel, ∀ ts, Gives .sum ts (expression? f ts)

theorem SoundBelow.mono {less : Nat} (h : SoundBelow fuel) (hless : less ≤ fuel) : SoundBelow less :=
  fun f hf => h f (by omega)

theorem eq_cons_of_sign? {s : String} (h : sign? s ts = some rest) : ts = .sign s :: rest := by
  unfold sign? at h
  cases ts with
  | nil => simp [atSign] at h
  | cons t ts => cases t <;> simp_all [atSign]

/-- An item that is plain is an expression. -/
theorem spelled_of_item? {kind : ItemKind} (hbelow : SoundBelow fuel)
    (h : item? fuel ts = some (e, kind, rest)) (hplain : e.IsPlain) :
    ∃ used, ts = used ++ rest ∧ Spells .sum e used := by
  obtain _ | fuel := fuel
  · simp [item?] at h
  simp only [item?] at h
  split_ifs at h with hstar
  · obtain ⟨_, _, h⟩ := Option.map_eq_some_iff.mp h
    obtain ⟨rfl, -⟩ := Prod.mk.inj h
    exact hplain.elim
  obtain _ | fuel := fuel
  · simp [named?] at h
  simp only [named?] at h
  split at h
  · obtain ⟨_, _, h⟩ := Option.map_eq_some_iff.mp h
    obtain ⟨rfl, -⟩ := Prod.mk.inj h
    exact hplain.elim
  · obtain ⟨⟨e', ts'⟩, hread, h⟩ := Option.map_eq_some_iff.mp h
    obtain ⟨rfl, rfl, rfl⟩ : e' = e ∧ .plain = kind ∧ ts' = rest := by simpa using h
    exact hbelow fuel (by omega) ts e' ts' hread hplain

/-- What is plain between parentheses is spelled with them. -/
theorem gives_group? (hbelow : SoundBelow fuel) : Gives .factor (.sign "(" :: ts) (group? fuel ts) := by
  obtain _ | fuel := fuel
  · exact gives_none
  unfold group?
  split
  · exact isForeign_some.gives
  · exact (isForeign_bind fun _ => isForeign_bind fun _ => isForeign_some).gives
  · refine (isForeign_ite isForeign_some <| isForeign_bind fun ⟨_, _, _⟩ => ?_).gives
    dsimp only
    exact isForeign_ite (isForeign_bind fun _ => isForeign_ite (isForeign_bind fun _ => isForeign_some)
        (isForeign_bind fun _ => isForeign_some)) <|
      isForeign_ite (isForeign_bind fun _ => isForeign_some) (isForeign_bind fun _ => isForeign_some)
  · intro r rest hread hplain
    obtain ⟨⟨e, kind, after⟩, hitem, hread⟩ := Option.bind_eq_some_iff.mp hread
    dsimp only at hread
    split_ifs at hread
    · exact absurd hplain ((isForeign_bind fun _ => isForeign_bind fun _ => isForeign_some) _ _ hread)
    · exact absurd hplain ((isForeign_bind fun _ => isForeign_some) _ _ hread)
    · obtain ⟨after', hclose, hread⟩ := Option.bind_eq_some_iff.mp hread
      obtain ⟨rfl, rfl⟩ := Prod.mk.inj (Option.some.inj hread)
      obtain ⟨used, rfl, hspells⟩ := spelled_of_item? (hbelow.mono (by omega)) hitem hplain
      exact ⟨.sign "(" :: (used ++ [.sign ")"]), by simp [eq_cons_of_sign? hclose], .group hspells⟩

/-- A plain atom is a number, or an expression in parentheses. -/
theorem gives_atom? (hbelow : SoundBelow fuel) : Gives .factor ts (atom? fuel ts) := by
  obtain _ | fuel := fuel
  · exact gives_none
  unfold atom?
  split
  · rintro e rest h -
    obtain ⟨rfl, rfl⟩ := Prod.mk.inj (Option.some.inj h)
    exact ⟨[_], rfl, .int _⟩
  · rintro e rest h -
    obtain ⟨rfl, rfl⟩ := Prod.mk.inj (Option.some.inj h)
    exact ⟨[_], rfl, .float _⟩
  · exact isForeign_some.gives
  · exact isForeign_some.gives
  · exact isForeign_some.gives
  · exact isForeign_some.gives
  · exact isForeign_some.gives
  · exact isForeign_some.gives
  · exact gives_ite gives_none isForeign_some.gives
  · exact gives_group? (hbelow.mono (Nat.le_succ fuel))
  · refine (isForeign_ite isForeign_some <| isForeign_bind fun ⟨_, _, _⟩ =>
      isForeign_ite ?_ <| isForeign_ite ?_ ?_).gives
    · exact isForeign_bind fun _ => isForeign_bind fun _ => isForeign_some
    · exact isForeign_bind fun _ => isForeign_some
    · exact isForeign_bind fun _ => isForeign_some
  · exact isForeign_braces?.gives
  · exact gives_none

/-! ## Factors -/

/-- What is plain has no attribute, call or subscript. -/
theorem eq_of_trailers? (h : trailers? fuel e ts = some (r, rest)) (hplain : r.IsPlain) :
    r = e ∧ ts = rest := by
  induction fuel generalizing e ts with
  | zero => simp [trailers?] at h
  | succ fuel ih =>
    have hforeign {element : String} {ts : List Token}
        (h : trailers? fuel (.foreign element) ts = some (r, rest)) : False := by
      obtain ⟨rfl, -⟩ := ih h
      exact hplain
    unfold trailers? at h
    split at h
    · exact (hforeign h).elim
    · simp at h
    · obtain ⟨ts, -, h⟩ := Option.bind_eq_some_iff.mp h
      exact (hforeign h).elim
    · obtain ⟨ts, -, h⟩ := Option.bind_eq_some_iff.mp h
      exact (hforeign h).elim
    · obtain ⟨rfl, rfl⟩ := Prod.mk.inj (Option.some.inj h)
      exact ⟨rfl, rfl⟩

theorem gives_primary? (hbelow : SoundBelow fuel) : Gives .factor ts (primary? fuel ts) := by
  obtain _ | fuel := fuel
  · exact gives_none
  unfold primary?
  exact gives_bind (gives_atom? (hbelow.mono (Nat.le_succ fuel))) eq_of_trailers?

/-- A plain factor has signs in front, and is no power. -/
theorem gives_factor? (hbelow : SoundBelow fuel) : Gives .factor ts (factor? fuel ts) := by
  induction fuel generalizing ts with
  | zero => exact gives_none
  | succ fuel ih =>
    have hless := hbelow.mono (Nat.le_succ fuel)
    have hsigned (sign : Sign) (ts : List Token) : Gives .factor (.sign sign.text :: ts)
        ((factor? fuel ts).map fun read => (.signed sign read.1, read.2)) := by
      intro e rest h hplain
      obtain ⟨⟨operand, after⟩, hread, h⟩ := Option.map_eq_some_iff.mp h
      obtain ⟨rfl, rfl⟩ := Prod.mk.inj h
      obtain ⟨used, rfl, hspells⟩ := ih hless _ _ hread hplain
      exact ⟨_, rfl, .signed sign hspells⟩
    unfold factor?
    split
    · exact hsigned .plus _
    · exact hsigned .minus _
    · exact isForeign_map.gives
    · extract_lets power
      have hpower {e after r rest} (h : power (e, after) = some (r, rest)) (hplain : r.IsPlain) :
          r = e ∧ after = rest :=
        eq_of_optional h (isForeign_bind fun _ => isForeign_some) hplain
      split
      · exact gives_bind isForeign_map.gives hpower
      · exact gives_bind (gives_primary? hless) hpower

/-! ## Levels -/

/-- A reader of operands that spells what is plain. -/
def SoundLevels (rank : Rank) (levels : List (List String)) (fuel : Nat) : Prop :=
  ∀ f ≤ fuel, ∀ ts, Gives rank ts (binary? f levels ts)

theorem soundLevels_nil (hbelow : SoundBelow fuel) : SoundLevels .factor [] fuel := by
  intro f hf ts
  obtain _ | f := f
  · exact gives_none
  · rw [binary?]
    exact gives_factor? (hbelow.mono (by omega))

/-- What an operator joins is plain only if it is one of arithmetic. -/
theorem joined_cases {s : String} (h : (joined s l r).IsPlain) :
    ∃ op : Operator, s = op.text ∧ joined s l r = .binary op l r := by
  unfold joined at h ⊢
  split at h
  · exact ⟨.add, rfl, rfl⟩
  · exact ⟨.sub, rfl, rfl⟩
  · exact ⟨.mul, rfl, rfl⟩
  · exact ⟨.div, rfl, rfl⟩
  · exact h.elim

/-- Operands behind one that is spelled are spelled with it. -/
theorem spelled_of_operands? {ops : List String} {tighter : List (List String)} {inner : Rank}
    (hops : ∀ op : Operator, op.text ∈ ops → op.rank = rank ∧ inner = rank.tighter)
    (hinner : SoundLevels inner tighter fuel) (h : operands? fuel ops tighter l ts = some (e, rest))
    (hplain : e.IsPlain) : l.IsPlain ∧ ∃ used, ts = used ++ rest ∧
      ∀ before, Spells rank l before → Spells rank e (before ++ used) := by
  induction fuel generalizing l ts with
  | zero => simp [operands?] at h
  | succ fuel ih =>
    have hnone (h : some (l, ts) = some (e, rest)) : l.IsPlain ∧ ∃ used, ts = used ++ rest ∧
        ∀ before, Spells rank l before → Spells rank e (before ++ used) := by
      obtain ⟨rfl, rfl⟩ := Prod.mk.inj (Option.some.inj h)
      exact ⟨hplain, [], rfl, fun before hbefore => by rwa [List.append_nil]⟩
    unfold operands? at h
    split at h
    next s after =>
      split_ifs at h with hs
      · obtain ⟨⟨r, behind⟩, hr, h⟩ := Option.bind_eq_some_iff.mp h
        obtain ⟨hjoined, used, rfl, hused⟩ := ih (fun f hf => hinner f (by omega)) h
        obtain ⟨op, rfl, hop⟩ := joined_cases hjoined
        rw [hop] at hjoined hused
        obtain ⟨rfl, rfl⟩ := hops op (by simpa using hs)
        obtain ⟨operand, rfl, hoperand⟩ := hinner fuel (Nat.le_succ fuel) _ _ _ hr hjoined.2
        refine ⟨hjoined.1, .sign op.text :: operand ++ used, by simp, fun before hbefore => ?_⟩
        have hboth := hused _ (.binary op hbefore hoperand)
        simpa using hboth
      · exact hnone h
    next => exact hnone h

/-- A further level spells what is plain, if the tighter ones do. -/
theorem soundLevels_cons {ops : List String} {tighter : List (List String)} {inner : Rank}
    (hops : ∀ op : Operator, op.text ∈ ops → op.rank = rank ∧ inner = rank.tighter)
    (hlift : inner = rank ∨ inner = rank.tighter) (hinner : SoundLevels inner tighter fuel) :
    SoundLevels rank (ops :: tighter) fuel := by
  intro f hf ts
  obtain _ | f := f
  · exact gives_none
  rw [binary?]
  intro e rest h hplain
  obtain ⟨⟨l, after⟩, hl, h⟩ := Option.bind_eq_some_iff.mp h
  obtain ⟨hleft, used, rfl, hused⟩ :=
    spelled_of_operands? hops (fun f hf => hinner f (by omega)) h hplain
  obtain ⟨before, rfl, hbefore⟩ := hinner f (by omega) _ _ _ hl hleft
  have hsame : Spells rank l before := by
    rcases hlift with rfl | rfl
    · exact hbefore
    · exact .looser hbefore
  exact ⟨before ++ used, by simp, hused before hsame⟩

/-- The levels of sums and products are those of arithmetic; no other operator is plain. -/
theorem soundLevels_levels (hbelow : SoundBelow fuel) : SoundLevels .sum levels fuel := by
  have hproduct : SoundLevels .product [productOps] fuel :=
    soundLevels_cons (by intro op; cases op <;> decide) (.inr rfl) (soundLevels_nil hbelow)
  have hsum : SoundLevels .sum [sumOps, productOps] fuel :=
    soundLevels_cons (by intro op; cases op <;> decide) (.inr rfl) hproduct
  have hother {ops : List String} {tighter : List (List String)}
      (hops : ∀ op : Operator, op.text ∉ ops) (h : SoundLevels .sum tighter fuel) :
      SoundLevels .sum (ops :: tighter) fuel :=
    soundLevels_cons (fun op hop => absurd hop (hops op)) (.inl rfl) h
  exact hother (by intro op; cases op <;> decide) <| hother (by intro op; cases op <;> decide) <|
    hother (by intro op; cases op <;> decide) <| hother (by intro op; cases op <;> decide) hsum

/-! ## Expressions -/

/-- What is plain is no comparison. -/
theorem eq_of_comparisons? (h : comparisons? fuel e ts = some (r, rest)) (hplain : r.IsPlain) :
    r = e ∧ ts = rest := by
  induction fuel generalizing e ts with
  | zero => simp [comparisons?] at h
  | succ fuel ih =>
    unfold comparisons? at h
    split at h
    · obtain ⟨rfl, rfl⟩ := Prod.mk.inj (Option.some.inj h)
      exact ⟨rfl, rfl⟩
    · obtain ⟨_, _, h⟩ := Option.bind_eq_some_iff.mp h
      obtain ⟨rfl, -⟩ := ih h
      exact hplain.elim

theorem gives_inversion? (hbelow : SoundBelow fuel) : Gives .sum ts (inversion? fuel ts) := by
  obtain _ | fuel := fuel
  · exact gives_none
  have hlevels := soundLevels_levels (hbelow.mono (Nat.le_succ fuel))
  unfold inversion?
  exact gives_ite (isForeign_bind fun _ => isForeign_some).gives
    (gives_bind (hlevels fuel (Nat.le_refl fuel) ts) eq_of_comparisons?)

theorem gives_conjunction? (hbelow : SoundBelow fuel) : Gives .sum ts (conjunction? fuel ts) := by
  obtain _ | fuel := fuel
  · exact gives_none
  unfold conjunction?
  exact gives_bind (gives_inversion? (hbelow.mono (Nat.le_succ fuel))) fun h =>
    eq_of_optional h (isForeign_bind fun _ => isForeign_some)

theorem gives_disjunction? (hbelow : SoundBelow fuel) : Gives .sum ts (disjunction? fuel ts) := by
  obtain _ | fuel := fuel
  · exact gives_none
  unfold disjunction?
  exact gives_bind (gives_conjunction? (hbelow.mono (Nat.le_succ fuel))) fun h =>
    eq_of_optional h (isForeign_bind fun _ => isForeign_some)

/-- A plain expression is spelled by the tokens that it was read from. -/
theorem gives_expression? (fuel : Nat) (ts : List Token) : Gives .sum ts (expression? fuel ts) := by
  induction fuel using Nat.strongRecOn generalizing ts with
  | _ fuel hbelow =>
    obtain _ | fuel := fuel
    · exact gives_none
    have hless : SoundBelow fuel := fun f hf => hbelow f (Nat.lt_succ_of_lt hf)
    unfold expression?
    split
    · exact (isForeign_bind fun _ => isForeign_bind fun _ => isForeign_some).gives
    · exact gives_bind (gives_disjunction? hless) fun h => eq_of_optional h
        (isForeign_bind fun _ => isForeign_bind fun _ => isForeign_bind fun _ => isForeign_some)

/-- A plain expression that fills the tokens is spelled by them. -/
theorem spells_of_whole? (h : whole? ts = some e) (hplain : e.IsPlain) : Spells .sum e ts := by
  have htuple (h : some (.foreign "Tuple") = some e) : False := by
    obtain rfl := Option.some.inj h
    exact hplain
  obtain ⟨⟨e', rest⟩, hread, h⟩ := Option.bind_eq_some_iff.mp h
  dsimp only at h
  split_ifs at h with hall
  · obtain rfl := Option.some.inj h
    obtain ⟨used, rfl, hspells⟩ := gives_expression? _ _ _ _ hread hplain
    rwa [List.isEmpty_iff.mp hall, List.append_nil]
  · exact (htuple h).elim
  · obtain ⟨_, _, h⟩ := Option.bind_eq_some_iff.mp h
    split_ifs at h
    exact (htuple h).elim

end Signoff.Formula
