import Signoff.Proofs.Task

/-! # The faults of a task

    A task that fails has met one of the faults of its parts. So a bound on the
    faults is checked part by part:

    * `Result.Faults Q`: a result is no fault but one of `Q`.
    * `Task.Faults Q`: the task meets no other faults, wherever it starts.
-/

namespace Signoff

variable {σ α β : Type} {Q : Fault → Prop}

namespace Result

/-- If there is no result, then for a reason of `Q`. -/
def Faults (Q : Fault → Prop) (r : Result α) : Prop := ∀ fault, r = .error fault → Q fault

namespace Faults

theorem ok (x : α) : Faults Q (.ok x : Result α) := nofun

theorem error {fault : Fault} (h : Q fault) : Faults Q (.error fault : Result α) := by
  intro other hother
  cases hother
  exact h

theorem bind {r : Result α} {f : α → Result β} (hr : Faults Q r) (hf : ∀ x, Faults Q (f x)) :
    Faults Q (r >>= f) := by
  intro fault h
  rcases Result.bind_eq_error h with hfirst | ⟨x, -, hsecond⟩
  · exact hr fault hfirst
  · exact hf x fault hsecond

theorem ite {c : Prop} [Decidable c] {r r' : Result α} (h : Faults Q r) (h' : Faults Q r') :
    Faults Q (if c then r else r') := by
  split
  · exact h
  · exact h'

theorem mapM {f : α → Result β} (h : ∀ x, Faults Q (f x)) (l : List α) : Faults Q (l.mapM f) := by
  induction l with
  | nil => exact ok []
  | cons x rest ih =>
    rw [List.mapM_cons]
    exact (h x).bind fun y => ih.bind fun ys => ok (y :: ys)

end Faults

end Result

namespace Task

/-- If the task does not return, then for a reason of `Q`. -/
def Faults (Q : Fault → Prop) (t : Task σ α) : Prop := ∀ s fault, t.answer s = .error fault → Q fault

namespace Faults

theorem pure (x : α) : Faults Q (Pure.pure x : Task σ α) := fun _ _ => nofun

theorem throw {fault : Fault} (h : Q fault) : Faults Q (MonadExcept.throw fault : Task σ α) := by
  intro s other hother
  cases hother
  exact h

theorem get : Faults Q (MonadState.get : Task σ σ) := fun _ _ => nofun

theorem modify (f : σ → σ) : Faults Q (modify f : Task σ PUnit) := fun _ _ => nofun

theorem set (s : σ) : Faults Q (MonadStateOf.set s : Task σ PUnit) := fun _ _ => nofun

theorem ofResult {r : Result α} (h : r.Faults Q) : Faults Q (Task.ofResult r : Task σ α) := by
  intro s fault hfault
  rw [answer_ofResult] at hfault
  exact h fault hfault

/-- What follows needs to be looked at for possible answers only. -/
theorem bind_where {t : Task σ α} {f : α → Task σ β} {P : α → Prop} (ht : Faults Q t)
    (hP : ∀ s x, t.answer s = .ok x → P x) (hf : ∀ x, P x → Faults Q (f x)) : Faults Q (t >>= f) := by
  intro s fault h
  unfold answer at h
  rw [exec_bind] at h
  rcases hexec : t.exec s with ⟨e | x, s'⟩
  · rw [hexec] at h
    cases h
    exact ht s fault (congrArg Prod.fst hexec)
  · rw [hexec] at h
    exact hf x (hP s x (congrArg Prod.fst hexec)) s' fault h

theorem bind {t : Task σ α} {f : α → Task σ β} (ht : Faults Q t) (hf : ∀ x, Faults Q (f x)) :
    Faults Q (t >>= f) :=
  ht.bind_where (P := fun _ => True) (fun _ _ _ => trivial) fun x _ => hf x

theorem map {t : Task σ α} {f : α → β} (ht : Faults Q t) : Faults Q (f <$> t) := by
  rw [map_eq_pure_bind]
  exact ht.bind fun x => pure (f x)

theorem discard {t : Task σ α} (ht : Faults Q t) : Faults Q (Functor.discard t) :=
  ht.map

theorem ite {c : Prop} [Decidable c] {t u : Task σ α} (ht : Faults Q t) (hu : Faults Q u) :
    Faults Q (if c then t else u) := by
  split
  · exact ht
  · exact hu

theorem forIn {f : α → β → Task σ (ForInStep β)} (l : List α)
    (h : ∀ x ∈ l, ∀ b, Faults Q (f x b)) (b : β) : Faults Q (ForIn.forIn l b f) := by
  induction l generalizing b with
  | nil => exact pure b
  | cons x rest ih =>
    rw [List.forIn_cons]
    refine (h x (List.mem_cons_self ..) b).bind fun step => ?_
    cases step with
    | done b' => exact pure b'
    | yield b' => exact ih (fun z hz => h z (List.mem_cons_of_mem _ hz)) b'

end Faults

end Task

end Signoff
