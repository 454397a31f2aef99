import Signoff.Proofs.Task
import Mathlib.Data.List.Forall2

/-! # Tasks side by side

    Two tasks are run in two states that need not be the same:

    * `Result.Both Q`: both results are the same fault, or answers related by `Q`.
    * `Task.Twins R Q`: from states related by `R`, the tasks give such results, and
      the states behind are related by `R` again. This is checked part by part.
-/

namespace Signoff

/-- Both results are the same fault, or answers that `Q` relates. -/
def Result.Both {α β : Type} (Q : α → β → Prop) : Result α → Result β → Prop
  | .ok x, .ok y => Q x y
  | .error fault, .error fault' => fault = fault'
  | _, _ => False

namespace Result.Both

variable {α β γ δ : Type} {Q Q' : α → β → Prop} {P : γ → δ → Prop} {x : Result α} {y : Result β}

/-- The same result twice. -/
theorem of_eq {x y : Result α} (h : y = x) : Both Eq x y := by
  subst h
  cases y <;> rfl

theorem imp (h : Both Q x y) (hQ : ∀ v v', Q v v' → Q' v v') : Both Q' x y := by
  cases x <;> cases y
  · exact h
  · exact h.elim
  · exact h.elim
  · exact hQ _ _ h

theorem bind {f : α → Result γ} {f' : β → Result δ} (h : Both Q x y)
    (hf : ∀ v v', Q v v' → Both P (f v) (f' v')) : Both P (x >>= f) (y >>= f') := by
  cases x <;> cases y
  · exact h
  · exact h.elim
  · exact h.elim
  · exact hf _ _ h

end Result.Both

namespace Task

variable {σ α β γ δ : Type}

/-- From states that `R` relates, both tasks fail alike or give answers that `Q` relates, and the states
    behind are related by `R` again. -/
def Twins (R : σ → σ → Prop) (Q : α → β → Prop) (t : Task σ α) (t' : Task σ β) : Prop :=
  ∀ s s', R s s' → Result.Both Q (t.answer s) (t'.answer s') ∧ R (t.after s) (t'.after s')

namespace Twins

variable {R : σ → σ → Prop} {Q : α → β → Prop} {P : γ → δ → Prop} {t : Task σ α} {t' : Task σ β}

theorem pure {x : α} {y : β} (h : Q x y) :
    Twins R Q (Pure.pure x : Task σ α) (Pure.pure y : Task σ β) :=
  fun _ _ hR => ⟨h, hR⟩

theorem throw (fault : Fault) :
    Twins R Q (MonadExcept.throw fault : Task σ α) (MonadExcept.throw fault : Task σ β) :=
  fun _ _ hR => ⟨rfl, hR⟩

/-- Tasks that change nothing are compared by their answers. -/
theorem reads (ht : Reads t) (ht' : Reads t')
    (h : ∀ s s', R s s' → Result.Both Q (t.answer s) (t'.answer s')) : Twins R Q t t' := by
  intro s s' hR
  refine ⟨h s s' hR, ?_⟩
  have hsame : t.after s = s := ht s
  have hsame' : t'.after s' = s' := ht' s'
  rwa [hsame, hsame']

theorem ofResult {x : Result α} {y : Result β} (h : Result.Both Q x y) :
    Twins R Q (Task.ofResult x : Task σ α) (Task.ofResult y) := by
  refine reads (Keeps.ofResult x) (Keeps.ofResult y) fun s s' _ => ?_
  rwa [answer_ofResult, answer_ofResult]

theorem bind {f : α → Task σ γ} {f' : β → Task σ δ} (ht : Twins R Q t t')
    (hf : ∀ x y, Q x y → Twins R P (f x) (f' y)) : Twins R P (t >>= f) (t' >>= f') := by
  intro s s' hR
  have hfirst := ht s s' hR
  unfold answer after at hfirst ⊢
  rw [exec_bind, exec_bind]
  rcases hexec : t.exec s with ⟨fault | x, s₁⟩ <;>
    rcases hexec' : t'.exec s' with ⟨fault' | y, s₁'⟩ <;> rw [hexec, hexec'] at hfirst
  · exact hfirst
  · exact hfirst.1.elim
  · exact hfirst.1.elim
  · exact hf x y hfirst.1 s₁ s₁' hfirst.2

/-- Behind `get` both states are known. -/
theorem get_bind {f : σ → Task σ γ} {f' : σ → Task σ δ}
    (h : ∀ s s', R s s' → Twins R P (f s) (f' s')) :
    Twins R P (MonadState.get >>= f) (MonadState.get >>= f') :=
  fun s s' hR => h s s' hR s s' hR

/-- States are replaced by related ones. -/
theorem set_bind {s₁ s₁' : σ} {f : PUnit → Task σ γ} {f' : PUnit → Task σ δ} (hset : R s₁ s₁')
    (hf : Twins R P (f ⟨⟩) (f' ⟨⟩)) :
    Twins R P (MonadStateOf.set s₁ >>= f) (MonadStateOf.set s₁' >>= f') :=
  fun _ _ _ => hf s₁ s₁' hset

theorem discard (h : Twins R Q t t') :
    Twins R Eq (Functor.discard t) (Functor.discard t') := by
  have hmap {ε : Type} (t : Task σ ε) : Functor.discard t = t >>= fun _ => Pure.pure () :=
    map_eq_pure_bind _ t
  rw [hmap, hmap]
  exact h.bind fun _ _ _ => pure rfl

theorem ite {c c' : Prop} [Decidable c] [Decidable c'] {u : Task σ α} {u' : Task σ β} (hc : c ↔ c')
    (ht : Twins R Q t t') (hu : Twins R Q u u') :
    Twins R Q (if c then t else u) (if c' then t' else u') := by
  by_cases h : c
  · rw [if_pos h, if_pos (hc.mp h)]
    exact ht
  · rw [if_neg h, if_neg (mt hc.mpr h)]
    exact hu

/-- One after the other for the members of a list. -/
theorem mapM {ε : Type} {f : ε → Task σ α} {f' : ε → Task σ β} (l : List ε)
    (h : ∀ x ∈ l, Twins R Q (f x) (f' x)) : Twins R (List.Forall₂ Q) (l.mapM f) (l.mapM f') := by
  induction l with
  | nil => exact pure .nil
  | cons x rest ih =>
    rw [List.mapM_cons, List.mapM_cons]
    refine (h x (List.mem_cons_self ..)).bind fun y y' hy => ?_
    refine (ih fun z hz => h z (List.mem_cons_of_mem _ hz)).bind fun ys ys' hys => ?_
    exact pure (.cons hy hys)

theorem forM {ε : Type} {f f' : ε → Task σ PUnit} (l : List ε)
    (h : ∀ x ∈ l, Twins R Eq (f x) (f' x)) :
    Twins R Eq (l.forM f) (l.forM f') := by
  induction l with
  | nil => exact pure rfl
  | cons x rest ih =>
    refine (h x (List.mem_cons_self ..)).bind fun _ _ _ => ?_
    exact ih fun z hz => h z (List.mem_cons_of_mem _ hz)

/-- Tasks that always return are compared by what they keep. -/
theorem of_returns {K : σ → σ → Prop} {t t' : Task σ Unit} (ht : Returns t) (ht' : Returns t')
    (hkeeps : Keeps K t) (hkeeps' : Keeps K t')
    (h : ∀ s s' u u', R s s' → K s u → K s' u' → R u u') :
    Twins R Eq t t' := by
  intro s s' hR
  obtain ⟨x, hx⟩ := ht s
  obtain ⟨y, hy⟩ := ht' s'
  refine ⟨?_, h s s' _ _ hR (hkeeps s) (hkeeps' s')⟩
  rw [hx, hy]
  rfl

end Twins

end Task

end Signoff
