import Signoff.Formula.Grammar

/-! # Reading arithmetic

    The parser looks ahead, has a level for every operator of the language, and enough
    fuel for the number of the tokens. What spells arithmetic is read as that arithmetic:

    * `Spells`: the tokens spell the expression, as a sum, a product or a factor.
    * `Reads`: on enough fuel the reader of the rank takes the tokens off what is in
      front of it, up to a token that ends them.
    * `reads_of_spells`: every spelling is read, by induction on it.
    * `whole?_of_spells`: so the tokens of an expression, and no more, give it.
-/

namespace Signoff.Formula

/-! ## The grammar of arithmetic -/

/-- How an expression holds together: a sum of products of factors. -/
inductive Rank where
  | sum
  | product
  | factor
deriving DecidableEq, Repr

/-- The rank of the parts of an expression. -/
def Rank.tighter : Rank → Rank
  | .sum => .product
  | .product => .factor
  | .factor => .factor

/-- The rank of what an operator joins. -/
def Operator.rank : Operator → Rank
  | .add => .sum
  | .sub => .sum
  | .mul => .product
  | .div => .product

/-- How an operator is written. -/
def Operator.text : Operator → String
  | .add => "+"
  | .sub => "-"
  | .mul => "*"
  | .div => "/"

/-- How a sign is written. -/
def Sign.text : Sign → String
  | .plus => "+"
  | .minus => "-"

/-- The tokens that spell an expression of arithmetic. Operators of one rank group to the left. -/
inductive Spells : Rank → Expr → List Token → Prop where
  | int (n : Nat) : Spells .factor (.literal (.int n)) [.int n]
  | float (x : Float) : Spells .factor (.literal (.float x)) [.float x]
  | group {e : Expr} {ts : List Token} (he : Spells .sum e ts) :
      Spells .factor e (.sign "(" :: (ts ++ [.sign ")"]))
  | signed {e : Expr} {ts : List Token} (sign : Sign) (he : Spells .factor e ts) :
      Spells .factor (.signed sign e) (.sign sign.text :: ts)
  | binary {l r : Expr} {ts us : List Token} (op : Operator) (hl : Spells op.rank l ts)
      (hr : Spells op.rank.tighter r us) :
      Spells op.rank (.binary op l r) (ts ++ .sign op.text :: us)
  | looser {rank : Rank} {e : Expr} {ts : List Token} (he : Spells rank.tighter e ts) :
      Spells rank e ts

/-! ## Every spelling is read -/

/-- The operators of products, and those of the language that bind alike. -/
def productOps : List String := ["*", "/", "//", "%", "@"]

/-- The operators of sums. -/
def sumOps : List String := ["+", "-"]

/-- The tokens, if any, go on with one of the signs. -/
def Ends (allowed : List String) (rest : List Token) : Prop :=
  ∀ t ∈ rest.head?, ∃ s ∈ allowed, t = .sign s

/-- A token that arithmetic begins with. -/
def Begins (t : Token) : Prop :=
  (∃ n, t = .int n) ∨ (∃ x, t = .float x) ∨ ∃ s ∈ ["(", "+", "-"], t = .sign s

variable {rank : Rank} {e l r : Expr} {ts us rest : List Token} {fuel : Nat}

theorem Spells.exists_cons (he : Spells rank e ts) : ∃ t more, ts = t :: more ∧ Begins t := by
  induction he with
  | int n => exact ⟨_, _, rfl, .inl ⟨n, rfl⟩⟩
  | float x => exact ⟨_, _, rfl, .inr (.inl ⟨x, rfl⟩)⟩
  | group he ih => exact ⟨_, _, rfl, .inr (.inr ⟨_, by simp, rfl⟩)⟩
  | signed sign he ih => exact ⟨_, _, rfl, .inr (.inr ⟨_, by cases sign <;> simp [Sign.text], rfl⟩)⟩
  | binary op hl hr ihl ihr =>
    obtain ⟨t, more, rfl, ht⟩ := ihl
    exact ⟨t, _, rfl, ht⟩
  | looser he ih => exact ih

/-- What a spelling of the rank comes to, at every place where it may stand. -/
def Reads : Rank → Expr → List Token → Prop
  | .factor, e, ts => ∀ fuel rest, 20 * ts.length ≤ fuel → Ends [")", "+", "-", "*", "/"] rest →
      factor? fuel (ts ++ rest) = some (e, rest)
  | .product, e, ts => ∀ fuel rest, 20 * ts.length + 2 ≤ fuel →
      Ends [")", "+", "-", "*", "/"] rest → ∃ fuel', fuel ≤ fuel' + ts.length + 1 ∧
        binary? fuel [productOps] (ts ++ rest) = operands? fuel' productOps [] e rest
  | .sum, e, ts => ∀ fuel rest, 20 * ts.length + 4 ≤ fuel →
      Ends [")", "+", "-"] rest → ∃ fuel', fuel ≤ fuel' + ts.length + 1 ∧
        binary? fuel [sumOps, productOps] (ts ++ rest) = operands? fuel' sumOps [productOps] e rest

/-- Behind an operand without a further operator of the level nothing more is read. -/
theorem operands?_of_ends {ops allowed : List String} {tighter : List (List String)}
    (hrest : Ends allowed rest) (hops : ∀ s ∈ allowed, s ∉ ops) :
    operands? (fuel + 1) ops tighter e rest = some (e, rest) := by
  cases rest with
  | nil => simp [operands?]
  | cons t rest =>
    obtain ⟨s, hs, rfl⟩ := hrest t rfl
    simp [operands?, hops s hs]

/-- Behind an operand the operator and the next operand are read. -/
theorem operands?_cons {ops : List String} {tighter : List (List String)} {s : String}
    (hs : s ∈ ops) (hr : binary? fuel tighter us = some (r, rest)) :
    operands? (fuel + 1) ops tighter l (.sign s :: us) =
      operands? fuel ops tighter (joined s l r) rest := by
  simp [operands?, hs, hr]

theorem Ends.mono {some all : List String} (hrest : Ends some rest) (hall : ∀ s ∈ some, s ∈ all) :
    Ends all rest := fun t ht =>
  have ⟨s, hs, hst⟩ := hrest t ht
  ⟨s, hall s hs, hst⟩

theorem ends_cons {allowed : List String} {s : String} (hs : s ∈ allowed) :
    Ends allowed (.sign s :: rest) := fun _ ht => ⟨s, hs, (Option.some.inj ht).symm⟩

/-- Behind an atom no attribute, call, subscript or power follows. -/
theorem factor?_of_atom {t : Token} (ht : (∃ n, t = .int n) ∨ (∃ x, t = .float x) ∨ t = .sign "(")
    (hrest : Ends [")", "+", "-", "*", "/"] rest)
    (hatom : atom? (fuel + 1) (t :: us) = some (e, rest)) :
    factor? (fuel + 3) (t :: us) = some (e, rest) := by
  have hend : trailers? (fuel + 1) e rest = some (e, rest) ∧ atSign "**" rest = false := by
    cases rest with
    | nil => simp [trailers?, atSign]
    | cons t rest =>
      obtain ⟨s, hs, rfl⟩ := hrest t rfl
      simp only [List.mem_cons, List.not_mem_nil, or_false] at hs
      rcases hs with rfl | rfl | rfl | rfl | rfl <;> simp [trailers?, atSign]
  have hprimary : primary? (fuel + 2) (t :: us) = some (e, rest) := by
    simp [primary?, hatom, hend.1]
  rcases ht with ⟨n, rfl⟩ | ⟨x, rfl⟩ | rfl <;> simp [factor?, hprimary, hend.2]

/-- An operand without an operator of the level is read as it is. -/
theorem binary?_of_tighter {ops allowed : List String} {tighter : List (List String)}
    (he : binary? (fuel + 1) tighter us = some (e, rest)) (hrest : Ends allowed rest)
    (hops : ∀ s ∈ allowed, s ∉ ops) : binary? (fuel + 2) (ops :: tighter) us = some (e, rest) := by
  simp [binary?, he, operands?_of_ends hrest hops]

/-- What is read as a sum is read as an expression in front of a closing bracket. -/
theorem expression?_of_sum {t : Token} (ht : Begins t) (hrest : Ends [")"] rest)
    (he : binary? (fuel + 1) [sumOps, productOps] (t :: us) = some (e, rest)) :
    expression? (fuel + 9) (t :: us) = some (e, rest) := by
  -- Four levels lie between a comparison and a sum: the bitwise ones and the shifts.
  have hlevels : binary? (fuel + 5) levels (t :: us) = some (e, rest) :=
    binary?_of_tighter (binary?_of_tighter (binary?_of_tighter (binary?_of_tighter he hrest (by decide))
      hrest (by decide)) hrest (by decide)) hrest (by decide)
  have hend : comparisons? (fuel + 5) e rest = some (e, rest) ∧ atKeyword "and" rest = false ∧
      atKeyword "or" rest = false ∧ atKeyword "if" rest = false := by
    cases rest with
    | nil => simp [comparisons?, comparison?, atKeyword]
    | cons t rest =>
      obtain ⟨s, hs, rfl⟩ := hrest t rfl
      obtain rfl : s = ")" := List.mem_singleton.mp hs
      simp [comparisons?, comparison?, atKeyword]
  obtain ⟨hcomparisons, hand, hor, hif⟩ := hend
  have hnot : atKeyword "not" (t :: us) = false := by
    obtain ⟨n, rfl⟩ | ⟨x, rfl⟩ | ⟨s, -, rfl⟩ := ht <;> rfl
  have hinversion : inversion? (fuel + 6) (t :: us) = some (e, rest) := by
    simp [inversion?, hnot, hlevels, hcomparisons]
  have hconjunction : conjunction? (fuel + 7) (t :: us) = some (e, rest) := by
    simp [conjunction?, hinversion, hand]
  have hdisjunction : disjunction? (fuel + 8) (t :: us) = some (e, rest) := by
    simp [disjunction?, hconjunction, hor]
  obtain ⟨n, rfl⟩ | ⟨x, rfl⟩ | ⟨s, -, rfl⟩ := ht <;> simp [expression?, hdisjunction, hif]

/-- A spelled sum is read as an expression in front of a closing bracket, and at the end. -/
theorem expression?_of_reads (hts : ∃ t more, ts = t :: more ∧ Begins t) (he : Reads .sum e ts)
    (hrest : Ends [")"] rest) (hfuel : 20 * ts.length + 13 ≤ fuel) :
    expression? fuel (ts ++ rest) = some (e, rest) := by
  obtain ⟨fuel, rfl⟩ : ∃ f, fuel = f + 9 := ⟨fuel - 9, by omega⟩
  obtain ⟨fuel', hless, hsum⟩ := he (fuel + 1) rest (by omega) (hrest.mono (by decide))
  obtain ⟨fuel', rfl⟩ : ∃ f, fuel' = f + 1 := ⟨fuel' - 1, by omega⟩
  obtain ⟨t, more, rfl, ht⟩ := hts
  rw [List.cons_append] at hsum ⊢
  apply expression?_of_sum ht hrest
  rw [hsum, operands?_of_ends hrest (by decide)]

/-- An expression in brackets is read up to the closing one. -/
theorem group?_of_expression {t : Token} (ht : Begins t)
    (he : expression? fuel (t :: us) = some (e, .sign ")" :: rest)) :
    group? (fuel + 3) (t :: us) = some (e, rest) := by
  have hitem : item? (fuel + 2) (t :: us) = some (e, .plain, .sign ")" :: rest) := by
    obtain ⟨n, rfl⟩ | ⟨x, rfl⟩ | ⟨s, hs, rfl⟩ := ht
    · simp [item?, named?, atSign, he]
    · simp [item?, named?, atSign, he]
    · simp only [List.mem_cons, List.not_mem_nil, or_false] at hs
      obtain rfl | rfl | rfl := hs <;> simp [item?, named?, atSign, he]
  obtain ⟨n, rfl⟩ | ⟨x, rfl⟩ | ⟨s, hs, rfl⟩ := ht
  · simp [group?, hitem, atFor, atSign, sign?]
  · simp [group?, hitem, atFor, atSign, sign?]
  · simp only [List.mem_cons, List.not_mem_nil, or_false] at hs
    obtain rfl | rfl | rfl := hs <;> simp [group?, hitem, atFor, atSign, sign?]

/-- Below all operators there is a factor. -/
theorem binary?_of_factor (he : Reads .factor e ts) (hrest : Ends [")", "+", "-", "*", "/"] rest)
    (hfuel : 20 * ts.length + 1 ≤ fuel) : binary? fuel [] (ts ++ rest) = some (e, rest) := by
  obtain ⟨fuel, rfl⟩ : ∃ f, fuel = f + 1 := ⟨fuel - 1, by omega⟩
  rw [binary?]
  exact he fuel rest (by omega) hrest

/-- A product in front of a sum's operator is read to its end. -/
theorem binary?_of_product (he : Reads .product e ts) (hrest : Ends [")", "+", "-"] rest)
    (hfuel : 20 * ts.length + 2 ≤ fuel) : binary? fuel [productOps] (ts ++ rest) = some (e, rest) := by
  obtain ⟨fuel', hless, hproduct⟩ := he fuel rest hfuel (hrest.mono (by decide))
  obtain ⟨fuel', rfl⟩ : ∃ f, fuel' = f + 1 := ⟨fuel' - 1, by omega⟩
  rw [hproduct, operands?_of_ends hrest (by decide)]

theorem joined_text (op : Operator) : joined op.text l r = .binary op l r := by
  cases op <;> rfl

/-- The operands of one level are read one after the other, and grouped to the left. -/
theorem binary?_of_operands {ops : List String} {tighter : List (List String)} {op : Operator}
    (hop : op.text ∈ ops) (hfuel : 20 * (ts ++ .sign op.text :: us).length + 2 ≤ fuel)
    (hl : ∃ fuel', fuel ≤ fuel' + ts.length + 1 ∧
      binary? fuel (ops :: tighter) (ts ++ .sign op.text :: (us ++ rest)) =
        operands? fuel' ops tighter l (.sign op.text :: (us ++ rest)))
    (hr : ∀ fuel, 20 * us.length + 2 ≤ fuel → binary? fuel tighter (us ++ rest) = some (r, rest)) :
    ∃ fuel', fuel ≤ fuel' + (ts ++ .sign op.text :: us).length + 1 ∧
      binary? fuel (ops :: tighter) ((ts ++ .sign op.text :: us) ++ rest) =
        operands? fuel' ops tighter (.binary op l r) rest := by
  obtain ⟨fuel', hless, hl⟩ := hl
  simp only [List.length_append, List.length_cons] at hfuel ⊢
  obtain ⟨fuel', rfl⟩ : ∃ f, fuel' = f + 1 := ⟨fuel' - 1, by omega⟩
  refine ⟨fuel', by omega, ?_⟩
  rw [List.append_assoc, List.cons_append, hl, operands?_cons hop (hr fuel' (by omega)), joined_text]

/-- Every spelling is read, wherever it may stand. -/
theorem reads_of_spells (he : Spells rank e ts) : Reads rank e ts := by
  -- A token costs at most as much fuel as there are levels of the grammar, which is below 20.
  induction he with
  | int n =>
    intro fuel rest hfuel hrest
    obtain ⟨fuel, rfl⟩ : ∃ f, fuel = f + 3 := ⟨fuel - 3, by simp at hfuel; omega⟩
    exact factor?_of_atom (.inl ⟨n, rfl⟩) hrest (by simp [atom?])
  | float x =>
    intro fuel rest hfuel hrest
    obtain ⟨fuel, rfl⟩ : ∃ f, fuel = f + 3 := ⟨fuel - 3, by simp at hfuel; omega⟩
    exact factor?_of_atom (.inr (.inl ⟨x, rfl⟩)) hrest (by simp [atom?])
  | @group e ts he ih =>
    intro fuel rest hfuel hrest
    simp only [List.length_cons, List.length_append, List.length_nil] at hfuel
    obtain ⟨fuel, rfl⟩ : ∃ f, fuel = f + 6 := ⟨fuel - 6, by omega⟩
    have hinner : expression? fuel (ts ++ .sign ")" :: rest) = some (e, .sign ")" :: rest) :=
      expression?_of_reads he.exists_cons ih (ends_cons (by simp)) (by omega)
    obtain ⟨t, more, rfl, ht⟩ := he.exists_cons
    have hgroup := group?_of_expression ht hinner
    apply factor?_of_atom (.inr (.inr rfl)) hrest
    simpa [atom?] using hgroup
  | @signed e ts sign he ih =>
    intro fuel rest hfuel hrest
    simp only [List.length_cons] at hfuel
    obtain ⟨fuel, rfl⟩ : ∃ f, fuel = f + 1 := ⟨fuel - 1, by omega⟩
    have hoperand := ih fuel rest (by omega) hrest
    cases sign <;> simp [factor?, Sign.text, hoperand]
  | @binary l r ts us op hl hr ihl ihr =>
    -- The left operand leaves the loop over the operands of its level in front of the operator.
    cases op with
    | add | sub =>
      intro fuel rest hfuel hrest
      refine binary?_of_operands (by decide) (by omega) ?_ fun fuel hfuel =>
        binary?_of_product ihr hrest hfuel
      rw [List.length_append] at hfuel
      exact ihl fuel _ (by omega) (ends_cons (by decide))
    | mul | div =>
      intro fuel rest hfuel hrest
      refine binary?_of_operands (by decide) (by omega) ?_ fun fuel hfuel =>
        binary?_of_factor ihr hrest (by omega)
      rw [List.length_append] at hfuel
      exact ihl fuel _ (by omega) (ends_cons (by decide))
  | @looser rank e ts he ih =>
    cases rank with
    | factor => exact ih
    | product =>
      intro fuel rest hfuel hrest
      obtain ⟨fuel, rfl⟩ : ∃ f, fuel = f + 1 := ⟨fuel - 1, by omega⟩
      have hfactor : binary? fuel [] (ts ++ rest) = some (e, rest) :=
        binary?_of_factor ih hrest (by omega)
      exact ⟨fuel, by omega, by simp [binary?, hfactor]⟩
    | sum =>
      intro fuel rest hfuel hrest
      obtain ⟨fuel, rfl⟩ : ∃ f, fuel = f + 1 := ⟨fuel - 1, by omega⟩
      have hproduct : binary? fuel [productOps] (ts ++ rest) = some (e, rest) :=
        binary?_of_product ih hrest (by omega)
      exact ⟨fuel, by omega, by simp [binary?, hproduct]⟩

/-- The tokens that spell a sum are the tokens of that expression. -/
theorem whole?_of_spells (he : Spells .sum e ts) : whole? ts = some e := by
  have hread : expression? (32 * (ts.length + 2)) (ts ++ []) = some (e, []) :=
    expression?_of_reads he.exists_cons (reads_of_spells he) (by simp [Ends]) (by omega)
  rw [List.append_nil] at hread
  simp [whole?, hread]

end Signoff.Formula
