import Signoff.Proofs.Task

/-! # Tasks and a part of the state

    A task may depend on a part of the state only, and fail without a trace in
    another part:

    * `Task.Commutes f`: where `f` has changed the state, the task does the same,
      and the change stays.
    * `Task.AtomicAt g s`: where the task fails from `s`, what `g` shows is as in
      front.
    * `Task.ReturnsOn I`: from every state with `I` the task returns, and `I`
      holds behind.
-/

namespace Signoff.Task

variable {σ α β γ : Type}

/-! ## Tasks that commute with a change -/

/-- The task answers the same where `f` has changed the state, and the change stays. -/
def Commutes (f : σ → σ) (t : Task σ α) : Prop := ∀ s, t.exec (f s) = (t.answer s, f (t.after s))

namespace Commutes

variable {f : σ → σ} {t : Task σ α}

theorem after_eq (h : Commutes f t) (s : σ) : t.after (f s) = f (t.after s) := by
  rw [after, h s]

theorem pure (x : α) : Commutes f (Pure.pure x : Task σ α) := fun _ => rfl

theorem throw (e : Fault) : Commutes f (MonadExcept.throw e : Task σ α) := fun _ => rfl

theorem ofResult (r : Result α) : Commutes f (Task.ofResult r : Task σ α) := by
  intro s
  rw [answer, after, exec_ofResult, exec_ofResult]

theorem modify {g : σ → σ} (h : ∀ s, g (f s) = f (g s)) :
    Commutes f (modify g : Task σ PUnit) := by
  intro s
  show (Except.ok PUnit.unit, g (f s)) = (Except.ok PUnit.unit, f (g s))
  rw [h s]

theorem bind {k : α → Task σ β} (ht : Commutes f t) (hk : ∀ x, Commutes f (k x)) :
    Commutes f (t >>= k) := by
  intro s
  have hs := ht s
  unfold answer after at hs ⊢
  rw [exec_bind, exec_bind, hs]
  rcases t.exec s with ⟨fault | x, s'⟩
  · rfl
  · exact hk x s'

/-- What reads the state goes on from it in the same way. -/
theorem get_bind {k : σ → Task σ β}
    (h : ∀ s, (k (f s)).exec (f s) = ((k s).answer s, f ((k s).after s))) :
    Commutes f (MonadState.get >>= k) := h

/-- What only reads a part of the state that the change leaves alone. -/
theorem get_of_eq {k : σ → Task σ β} (hk : ∀ s, k (f s) = k s) (h : ∀ s, Commutes f (k s)) :
    Commutes f (MonadState.get >>= k) := by
  apply get_bind
  intro s
  rw [hk s]
  exact h s s

/-- A state is read and then replaced. -/
theorem get_set {g : σ → σ} {k : σ → Task σ β} (hg : ∀ s, g (f s) = f (g s))
    (hk : ∀ s, k (f s) = k s) (h : ∀ s, Commutes f (k s)) :
    Commutes f (MonadState.get >>= fun s => set (g s) >>= fun _ => k s) := by
  apply get_bind
  intro s
  show (k (f s)).exec (g (f s)) = ((k s).answer (g s), f ((k s).after (g s)))
  rw [hk s, hg s]
  exact h s (g s)

theorem map (ht : Commutes f t) (g : α → β) : Commutes f (g <$> t) := by
  rw [map_eq_pure_bind]
  exact ht.bind fun x => pure (g x)

theorem discard (ht : Commutes f t) : Commutes f (Functor.discard t) := ht.map _

theorem ite {c : Prop} [Decidable c] {t u : Task σ α} (ht : Commutes f t) (hu : Commutes f u) :
    Commutes f (if c then t else u) := by
  split
  · exact ht
  · exact hu

theorem forIn {k : α → β → Task σ (ForInStep β)} (l : List α)
    (h : ∀ x ∈ l, ∀ b, Commutes f (k x b)) (b : β) : Commutes f (ForIn.forIn l b k) := by
  induction l generalizing b with
  | nil => exact pure b
  | cons x rest ih =>
    rw [List.forIn_cons]
    apply (h x (List.mem_cons_self ..) b).bind
    intro step
    cases step with
    | done b' => exact pure b'
    | yield b' => exact ih (fun z hz => h z (List.mem_cons_of_mem _ hz)) b'

end Commutes

/-! ## Tasks that fail without a trace -/

/-- Where the task fails from `s`, what `g` shows is as in front. -/
def AtomicAt (g : σ → γ) (s : σ) (t : Task σ α) : Prop :=
  ∀ fault, t.answer s = .error fault → g (t.after s) = g s

namespace AtomicAt

variable {g : σ → γ} {s : σ} {t : Task σ α}

theorem of_keeps (h : Keeps (Same g) t) : AtomicAt g s t := fun _ _ => h s

theorem of_returns (h : ∃ x, t.answer s = .ok x) : AtomicAt g s t := by
  intro fault hfault
  obtain ⟨x, hx⟩ := h
  rw [hx] at hfault
  cases hfault

/-- The task goes on behind a part that only reads. -/
theorem reads_bind {k : α → Task σ β} (ht : Reads t)
    (hk : ∀ x, t.answer s = .ok x → AtomicAt g s (k x)) : AtomicAt g s (t >>= k) := by
  intro fault hfault
  unfold answer at hfault
  unfold after
  rw [ht.exec_bind] at hfault ⊢
  cases hx : t.answer s with
  | error e => rfl
  | ok x =>
    rw [hx] at hfault
    exact hk x hx fault hfault

/-- What follows the writes does not fail. -/
theorem bind {k : α → Task σ β} (ht : AtomicAt g s t)
    (hk : ∀ x, t.answer s = .ok x → ∃ y, (k x).answer (t.after s) = .ok y) :
    AtomicAt g s (t >>= k) := by
  intro fault hfault
  unfold answer at hfault
  unfold after
  rw [exec_bind] at hfault ⊢
  rcases hexec : t.exec s with ⟨e | x, s'⟩
  · have herror : t.answer s = .error e := by rw [answer, hexec]
    have hsame := ht e herror
    rwa [after, hexec] at hsame
  · obtain ⟨y, hy⟩ := hk x (by rw [answer, hexec])
    rw [after, hexec] at hy
    rw [hexec] at hfault
    cases hy.symm.trans hfault

theorem discard (ht : AtomicAt g s t) : AtomicAt g s (Functor.discard t) := by
  have hmap : Functor.discard t = t >>= fun _ => Pure.pure () := map_eq_pure_bind _ t
  rw [hmap]
  exact ht.bind fun _ _ => ⟨(), rfl⟩

end AtomicAt

/-! ## Tasks that return from some states -/

/-- From every state with `I` the task returns, and `I` holds behind. -/
def ReturnsOn (I : σ → Prop) (t : Task σ α) : Prop :=
  ∀ s, I s → (∃ x, t.answer s = .ok x) ∧ I (t.after s)

namespace ReturnsOn

variable {I : σ → Prop} {t : Task σ α}

theorem pure (x : α) : ReturnsOn I (Pure.pure x : Task σ α) := fun _ hI => ⟨⟨x, rfl⟩, hI⟩

theorem bind {k : α → Task σ β} (ht : ReturnsOn I t) (hk : ∀ x, ReturnsOn I (k x)) :
    ReturnsOn I (t >>= k) := by
  intro s hI
  obtain ⟨⟨x, hx⟩, hI'⟩ := ht s hI
  have hexec : (t >>= k).exec s = (k x).exec (t.after s) := exec_bind_ok (Prod.ext hx rfl)
  unfold answer after
  rw [hexec]
  exact hk x (t.after s) hI'

theorem forIn {k : α → β → Task σ (ForInStep β)} (l : List α)
    (h : ∀ x ∈ l, ∀ b, ReturnsOn I (k x b)) (b : β) : ReturnsOn I (ForIn.forIn l b k) := by
  induction l generalizing b with
  | nil => exact pure b
  | cons x rest ih =>
    rw [List.forIn_cons]
    apply (h x (List.mem_cons_self ..) b).bind
    intro step
    cases step with
    | done b' => exact pure b'
    | yield b' => exact ih (fun z hz => h z (List.mem_cons_of_mem _ hz)) b'

end ReturnsOn

end Signoff.Task
