import Signoff.Site.Basic
import Mathlib.Order.Defs.Unbundled

/-! # Running tasks

    A task takes a state to an answer and a state behind it, whether it returns
    or fails. This module follows a task step by step:

    * `Task.exec`: the answer and the state behind; `Task.answer` and
      `Task.after` are its two parts.
    * `Task.Keeps R`: the task takes every state to one related to it by `R`.
      With a reflexive and transitive `R` this is checked part by part.
    * `Task.Reads`: the task changes nothing.
    * `Task.Returns`: the task does not fail.
    * `Task.Agree g`: two tasks give the same answer, and behind them `g` shows
      the same. A part that both of them have in front makes no difference.
-/

namespace Signoff

theorem Result.ok_bind {α β : Type} (x : α) (f : α → Result β) :
    ((.ok x : Result α) >>= f) = f x := rfl

theorem Result.error_bind {α β : Type} (fault : Fault) (f : α → Result β) :
    ((.error fault : Result α) >>= f) = .error fault := rfl

/-- A result that follows from another one. -/
theorem Result.bind_eq_ok {α β : Type} {x : Result α} {f : α → Result β} {y : β}
    (h : x >>= f = .ok y) : ∃ v, x = .ok v ∧ f v = .ok y := by
  cases x with
  | error fault => cases h
  | ok v => exact ⟨v, rfl, h⟩

theorem Result.bind_eq_error {α β : Type} {x : Result α} {f : α → Result β} {fault : Fault}
    (h : x >>= f = .error fault) : x = .error fault ∨ ∃ v, x = .ok v ∧ f v = .error fault := by
  cases x with
  | error _ =>
    cases h
    exact .inl rfl
  | ok v => exact .inr ⟨v, rfl, h⟩

/-- There is no result where there is no room for its calls, or where it is a fault itself. -/
theorem Result.within_eq_error_iff {α : Type} {room calls : Nat} {result : Result α} {fault : Fault} :
    Result.within room calls result = .error fault ↔
      room < calls ∧ fault = .exhausted .depth ∨ calls ≤ room ∧ result = .error fault := by
  unfold Result.within
  by_cases hroom : calls ≤ room
  · simp [hroom, Nat.not_lt.mpr hroom]
  · simp [hroom, Nat.lt_of_not_le hroom, eq_comm]

/-- Every result of a list comes from a member of the list. -/
theorem Result.exists_of_mapM {α β : Type} {f : α → Result β} {l : List α} {ys : List β}
    (h : l.mapM f = .ok ys) {y : β} (hy : y ∈ ys) : ∃ x ∈ l, f x = .ok y := by
  induction l generalizing ys with
  | nil =>
    cases h
    cases hy
  | cons x rest ih =>
    rw [List.mapM_cons] at h
    obtain ⟨z, hz, h⟩ := Result.bind_eq_ok h
    obtain ⟨zs, hzs, h⟩ := Result.bind_eq_ok h
    cases h
    rcases List.mem_cons.mp hy with rfl | hy
    · exact ⟨x, List.mem_cons_self .., hz⟩
    · obtain ⟨x', hx', hf⟩ := ih hzs hy
      exact ⟨x', List.mem_cons_of_mem _ hx', hf⟩

/-- Every member of the list has its result. -/
theorem Result.forall_of_mapM {α β : Type} {f : α → Result β} {l : List α} {ys : List β}
    (h : l.mapM f = .ok ys) : ∀ x ∈ l, ∃ y, f x = .ok y := by
  induction l generalizing ys with
  | nil => nofun
  | cons x rest ih =>
    rw [List.mapM_cons] at h
    obtain ⟨y, hy, h⟩ := Result.bind_eq_ok h
    obtain ⟨ys, hys, -⟩ := Result.bind_eq_ok h
    exact List.forall_mem_cons.mpr ⟨⟨y, hy⟩, ih hys⟩

/-- Results of a list fail with the fault of a member. -/
theorem Result.exists_of_mapM_error {α β : Type} {f : α → Result β} {l : List α} {fault : Fault}
    (h : l.mapM f = .error fault) : ∃ x ∈ l, f x = .error fault := by
  induction l with
  | nil => cases h
  | cons x rest ih =>
    rw [List.mapM_cons] at h
    rcases Result.bind_eq_error h with hx | ⟨y, -, h⟩
    · exact ⟨x, List.mem_cons_self .., hx⟩
    · rcases Result.bind_eq_error h with hrest | ⟨ys, -, h⟩
      · obtain ⟨x', hx', hf⟩ := ih hrest
        exact ⟨x', List.mem_cons_of_mem _ hx', hf⟩
      · cases h

/-- A test of the members of a list fails for one of them, or picks those that it holds for. -/
theorem Result.filterM_cases {α : Type} (p : α → Result Bool) (l : List α) :
    (∃ x ∈ l, ∃ fault, p x = .error fault ∧ l.filterM p = .error fault) ∨
      ∃ ys, l.filterM p = .ok ys ∧ ∀ x, x ∈ ys ↔ x ∈ l ∧ p x = .ok true := by
  have haux (acc : List α) :
      (∃ x ∈ l, ∃ fault, p x = .error fault ∧ l.filterAuxM p acc = .error fault) ∨
        ∃ ys, l.filterAuxM p acc = .ok ys ∧ ∀ x, x ∈ ys ↔ x ∈ acc ∨ x ∈ l ∧ p x = .ok true := by
    induction l generalizing acc with
    | nil => exact .inr ⟨acc, rfl, by simp⟩
    | cons first rest ih =>
      rw [List.filterAuxM]
      cases hfirst : p first with
      | error fault => exact .inl ⟨first, List.mem_cons_self .., fault, hfirst, rfl⟩
      | ok isMet =>
        rcases ih (bif isMet then first :: acc else acc) with ⟨x, hx, fault, hfault, herror⟩ | ⟨ys, hok, hys⟩
        · exact .inl ⟨x, List.mem_cons_of_mem _ hx, fault, hfault, herror⟩
        · refine .inr ⟨ys, hok, fun x => (hys x).trans ?_⟩
          -- The first member is picked if the test holds for it.
          cases isMet with
          | true => grind
          | false => grind
  unfold List.filterM
  rcases haux [] with ⟨x, hx, fault, hfault, herror⟩ | ⟨ys, hok, hys⟩
  · exact .inl ⟨x, hx, fault, hfault, by rw [herror]; rfl⟩
  · refine .inr ⟨ys.reverse, by rw [hok]; rfl, fun x => ?_⟩
    rw [List.mem_reverse, hys x]
    simp

namespace Task

variable {σ α β : Type}

/-! ## Execution -/

/-- The answer of a task, and the state behind it. -/
def exec (t : Task σ α) (s : σ) : Result α × σ := t.run.run s

/-- What a task answers. -/
def answer (t : Task σ α) (s : σ) : Result α := (t.exec s).1

/-- The state behind a task, also behind one that fails. -/
def after (t : Task σ α) (s : σ) : σ := (t.exec s).2

@[simp] theorem exec_pure (x : α) (s : σ) : (pure x : Task σ α).exec s = (.ok x, s) := rfl

@[simp] theorem exec_throw (e : Fault) (s : σ) :
    (throw e : Task σ α).exec s = (.error e, s) := rfl

@[simp] theorem exec_get (s : σ) : (get : Task σ σ).exec s = (.ok s, s) := rfl

@[simp] theorem exec_set (s s' : σ) : (set s' : Task σ PUnit).exec s = (.ok ⟨⟩, s') := rfl

@[simp] theorem exec_modify (f : σ → σ) (s : σ) :
    (modify f : Task σ PUnit).exec s = (.ok ⟨⟩, f s) := rfl

@[simp] theorem exec_ofResult (r : Result α) (s : σ) :
    (Task.ofResult r : Task σ α).exec s = (r, s) := by
  cases r <;> rfl

@[simp] theorem exec_attempt (t : Task σ α) (s : σ) :
    (Task.attempt t).exec s = (.ok (t.exec s).1, (t.exec s).2) := rfl

@[simp] theorem exec_within (t : OfficeTask α) (s : Site) :
    (Site.within t).exec s = ((t.exec s.office).1, { s with office := (t.exec s.office).2 }) :=
  rfl

@[simp] theorem answer_pure (x : α) (s : σ) : (pure x : Task σ α).answer s = .ok x := rfl

@[simp] theorem answer_ofResult (r : Result α) (s : σ) :
    (Task.ofResult r : Task σ α).answer s = r := by
  rw [answer, exec_ofResult]

@[simp] theorem answer_within (t : OfficeTask α) (s : Site) :
    (Site.within t).answer s = t.answer s.office := rfl

theorem exec_bind (t : Task σ α) (f : α → Task σ β) (s : σ) :
    (t >>= f).exec s = match t.exec s with
      | (.ok x, s') => (f x).exec s'
      | (.error e, s') => (.error e, s') := by
  simp only [exec, ExceptT.run_bind, StateT.run_bind]
  rcases StateT.run (ExceptT.run t) s with ⟨x | e, s'⟩ <;> rfl

theorem exec_bind_ok {t : Task σ α} {f : α → Task σ β} {s s' : σ} {x : α}
    (h : t.exec s = (.ok x, s')) : (t >>= f).exec s = (f x).exec s' := by
  rw [exec_bind, h]

/-- A task that fails in its first part ends there. -/
theorem after_bind_of_error {t : Task σ α} {s : σ} {fault : Fault} (h : t.answer s = .error fault)
    (f : α → Task σ β) : (t >>= f).after s = t.after s := by
  have hexec : t.exec s = (.error fault, t.after s) := Prod.ext h rfl
  rw [after, exec_bind, hexec]

theorem answer_bind_of_exec {t : Task σ α} {s s' : σ} {r : Result α} (h : t.exec s = (r, s'))
    (f : α → Task σ β) : (t >>= f).answer s = r >>= fun x => (f x).answer s' := by
  rw [answer, exec_bind, h]
  cases r <;> rfl

theorem answer_bind (t : Task σ α) (f : α → Task σ β) (s : σ) :
    (t >>= f).answer s = t.answer s >>= fun x => (f x).answer (t.after s) :=
  answer_bind_of_exec rfl f

@[simp] theorem exec_get_bind (f : σ → Task σ β) (s : σ) :
    (get >>= f).exec s = (f s).exec s := rfl

@[simp] theorem answer_get_bind (f : σ → Task σ β) (s : σ) :
    (get >>= f).answer s = (f s).answer s := rfl

@[simp] theorem after_get_bind (f : σ → Task σ β) (s : σ) :
    (get >>= f).after s = (f s).after s := rfl

@[simp] theorem exec_set_bind (f : PUnit → Task σ β) (s s' : σ) :
    (set s' >>= f).exec s = (f ⟨⟩).exec s' := rfl

theorem exec_map (f : α → β) (t : Task σ α) (s : σ) :
    (f <$> t).exec s = match t.exec s with
      | (.ok x, s') => (.ok (f x), s')
      | (.error e, s') => (.error e, s') := by
  rw [map_eq_pure_bind, exec_bind]
  rfl

theorem exec_discard (t : Task σ α) (s : σ) :
    (discard t).exec s = match t.exec s with
      | (.ok _, s') => (.ok (), s')
      | (.error e, s') => (.error e, s') :=
  exec_map (fun _ => ()) t s

theorem after_discard (t : Task σ α) (s : σ) : (discard t).after s = t.after s := by
  rw [after, exec_discard, after]
  rcases t.exec s with ⟨e | x, s'⟩ <;> rfl

theorem answer_discard_eq_error {t : Task σ α} {s : σ} {fault : Fault}
    (h : (discard t).answer s = .error fault) : t.answer s = .error fault := by
  rw [answer, exec_discard] at h
  rw [answer]
  rcases ht : t.exec s with ⟨e | x, s'⟩
  · rw [ht] at h
    cases h
    rfl
  · rw [ht] at h
    cases h

theorem exec_forM_cons (f : α → Task σ PUnit) (x : α) (l : List α) (s : σ) :
    ((x :: l).forM f).exec s = (f x >>= fun _ => l.forM f).exec s := rfl

/-- A task that returns has returned in its first part. -/
theorem bind_eq_ok {t : Task σ α} {f : α → Task σ β} {s s' : σ} {y : β}
    (h : (t >>= f).exec s = (.ok y, s')) :
    ∃ x s₁, t.exec s = (.ok x, s₁) ∧ (f x).exec s₁ = (.ok y, s') := by
  rw [exec_bind] at h
  rcases ht : t.exec s with ⟨e | x, s₁⟩
  · rw [ht] at h
    simp at h
  · rw [ht] at h
    exact ⟨x, s₁, rfl, h⟩

/-! ## Relations between the states in front and behind -/

/-- The task takes every state to one that is related to it. -/
def Keeps (R : σ → σ → Prop) (t : Task σ α) : Prop := ∀ s, R s (t.after s)

/-- Two states agree in what `f` shows of them. -/
def Same {γ : Type} (f : σ → γ) (s s' : σ) : Prop := f s' = f s

/-- What holds in front holds behind. -/
def Stable (P : σ → Prop) (s s' : σ) : Prop := P s → P s'

instance {γ : Type} (f : σ → γ) : Std.Refl (Same f) := ⟨fun _ => rfl⟩

instance {γ : Type} (f : σ → γ) : IsTrans σ (Same f) := ⟨fun _ _ _ h h' => h'.trans h⟩

instance (P : σ → Prop) : Std.Refl (Stable P) := ⟨fun _ => id⟩

instance (P : σ → Prop) : IsTrans σ (Stable P) := ⟨fun _ _ _ h h' => h' ∘ h⟩

namespace Keeps

variable {R : σ → σ → Prop}

theorem of_after_eq {t : Task σ α} [Std.Refl R] (h : ∀ s, t.after s = s) : Keeps R t := by
  intro s
  rw [h s]
  exact Std.Refl.refl s

theorem pure [Std.Refl R] (x : α) : Keeps R (Pure.pure x : Task σ α) :=
  of_after_eq fun _ => rfl

theorem throw [Std.Refl R] (e : Fault) : Keeps R (MonadExcept.throw e : Task σ α) :=
  of_after_eq fun _ => rfl

theorem get [Std.Refl R] : Keeps R (MonadState.get : Task σ σ) :=
  of_after_eq fun _ => rfl

theorem ofResult [Std.Refl R] (r : Result α) : Keeps R (Task.ofResult r : Task σ α) :=
  of_after_eq fun s => by rw [after, exec_ofResult]

theorem modify {f : σ → σ} (h : ∀ s, R s (f s)) :
    Keeps R (modify f : Task σ PUnit) := h

theorem imp {R' : σ → σ → Prop} (hR : ∀ s s', R s s' → R' s s') {t : Task σ α} (h : Keeps R t) :
    Keeps R' t := fun s => hR s _ (h s)

theorem attempt {t : Task σ α} (h : Keeps R t) : Keeps R (Task.attempt t) := h

/-- What follows needs to keep the relation for possible answers only. -/
theorem bind_where [IsTrans σ R] {t : Task σ α} {f : α → Task σ β} {Q : α → Prop} (ht : Keeps R t)
    (hQ : ∀ s x, t.answer s = .ok x → Q x) (hf : ∀ x, Q x → Keeps R (f x)) :
    Keeps R (t >>= f) := by
  intro s
  have hs := ht s
  simp only [after] at hs ⊢
  rw [exec_bind]
  rcases h : t.exec s with ⟨e | x, s'⟩
  · -- The first part failed, so there is no second one.
    rw [h] at hs
    exact hs
  · rw [h] at hs
    have hx : Q x := hQ s x (congrArg Prod.fst h)
    exact IsTrans.trans _ _ _ hs (hf x hx s')

theorem bind [IsTrans σ R] {t : Task σ α} {f : α → Task σ β} (ht : Keeps R t)
    (hf : ∀ x, Keeps R (f x)) : Keeps R (t >>= f) :=
  ht.bind_where (Q := fun _ => True) (fun _ _ _ => trivial) fun x _ => hf x

/-- What follows a task leaves alone is as behind the task. -/
theorem same_after_bind {γ : Type} {g : σ → γ} {t : Task σ α} {f : α → Task σ β} {s : σ}
    (hf : ∀ x, Keeps (Same g) (f x)) : g ((t >>= f).after s) = g (t.after s) := by
  simp only [after]
  rw [exec_bind]
  rcases t.exec s with ⟨e | x, s'⟩
  · rfl
  · exact hf x s'

/-- Behind `get` the state is known. -/
theorem get_bind {f : σ → Task σ β} (h : ∀ s, R s ((f s).after s)) :
    Keeps R (MonadState.get >>= f) := h

/-- A state is read and then replaced. -/
theorem get_set {g : σ → σ} {f : σ → Task σ β} [IsTrans σ R] (hg : ∀ s, R s (g s))
    (hf : ∀ s, Keeps R (f s)) :
    Keeps R (MonadState.get >>= fun s => set (g s) >>= fun _ => f s) := by
  intro s
  exact IsTrans.trans _ _ _ (hg s) (hf s (g s))

theorem map [IsTrans σ R] [Std.Refl R] {t : Task σ α} {f : α → β} (ht : Keeps R t) :
    Keeps R (f <$> t) := by
  rw [map_eq_pure_bind]
  exact ht.bind fun x => pure (f x)

theorem discard [IsTrans σ R] [Std.Refl R] {t : Task σ α} (ht : Keeps R t) :
    Keeps R (Functor.discard t) :=
  ht.map

theorem ite {c : Prop} [Decidable c] {t u : Task σ α} (ht : Keeps R t) (hu : Keeps R u) :
    Keeps R (if c then t else u) := by
  split
  · exact ht
  · exact hu

variable [Std.Refl R] [IsTrans σ R]

theorem mapM {f : α → Task σ β} (l : List α) (h : ∀ x ∈ l, Keeps R (f x)) :
    Keeps R (l.mapM f) := by
  induction l with
  | nil => exact pure []
  | cons x rest ih =>
    rw [List.mapM_cons]
    refine (h x (List.mem_cons_self ..)).bind fun y => ?_
    exact (ih fun z hz => h z (List.mem_cons_of_mem _ hz)).bind fun ys => pure (y :: ys)

theorem forM {f : α → Task σ PUnit} (l : List α) (h : ∀ x ∈ l, Keeps R (f x)) :
    Keeps R (l.forM f) := by
  induction l with
  | nil => exact pure PUnit.unit
  | cons x rest ih =>
    refine (h x (List.mem_cons_self ..)).bind fun _ => ?_
    exact ih fun z hz => h z (List.mem_cons_of_mem _ hz)

theorem foldlM {f : β → α → Task σ β} (l : List α) (h : ∀ b, ∀ x ∈ l, Keeps R (f b x)) (b : β) :
    Keeps R (l.foldlM f b) := by
  induction l generalizing b with
  | nil => exact pure b
  | cons x rest ih =>
    refine (h b x (List.mem_cons_self ..)).bind fun b' => ?_
    exact ih (fun b z hz => h b z (List.mem_cons_of_mem _ hz)) b'

theorem forIn {f : α → β → Task σ (ForInStep β)} (l : List α)
    (h : ∀ x ∈ l, ∀ b, Keeps R (f x b)) (b : β) : Keeps R (ForIn.forIn l b f) := by
  induction l generalizing b with
  | nil => exact pure b
  | cons x rest ih =>
    rw [List.forIn_cons]
    refine (h x (List.mem_cons_self ..) b).bind fun step => ?_
    cases step with
    | done b' => exact pure b'
    | yield b' => exact ih (fun z hz => h z (List.mem_cons_of_mem _ hz)) b'

end Keeps

/-! ## Reading -/

/-- The task changes nothing. -/
abbrev Reads (t : Task σ α) : Prop := Keeps (Same (@id σ)) t

namespace Reads

variable {t : Task σ α}

/-- A task that changes nothing keeps every relation. -/
theorem keeps {R : σ → σ → Prop} [Std.Refl R] (h : Reads t) : Keeps R t :=
  Keeps.of_after_eq h

theorem exec_eq (h : Reads t) (s : σ) : t.exec s = (t.answer s, s) :=
  Prod.ext rfl (h s)

/-- What follows a task that only reads starts from the same state. -/
theorem exec_bind (h : Reads t) (f : α → Task σ β) (s : σ) :
    (t >>= f).exec s = match t.answer s with
      | .ok x => (f x).exec s
      | .error e => (.error e, s) := by
  rw [Task.exec_bind, h.exec_eq s]
  cases t.answer s <;> rfl

theorem answer_bind (h : Reads t) (f : α → Task σ β) (s : σ) :
    (t >>= f).answer s = t.answer s >>= fun x => (f x).answer s :=
  answer_bind_of_exec (h.exec_eq s) f

/-- A task that returns goes on behind a first part that only reads from the same state. -/
theorem bind_eq_ok (h : Reads t) {f : α → Task σ β} {s s' : σ} {y : β}
    (hexec : (t >>= f).exec s = (.ok y, s')) :
    ∃ x, t.answer s = .ok x ∧ (f x).exec s = (.ok y, s') := by
  rw [h.exec_bind] at hexec
  cases hx : t.answer s with
  | error fault =>
    rw [hx] at hexec
    cases hexec
  | ok x =>
    rw [hx] at hexec
    exact ⟨x, rfl, hexec⟩

/-- What follows a task that only reads decides how the states are related. -/
theorem rel_bind {R : σ → σ → Prop} [Std.Refl R] (h : Reads t) {f : α → Task σ β} {s : σ}
    (hf : ∀ x, t.answer s = .ok x → R s ((f x).after s)) : R s ((t >>= f).after s) := by
  unfold after
  rw [h.exec_bind]
  cases hx : t.answer s with
  | error fault => exact Std.Refl.refl s
  | ok x => exact hf x hx

theorem within {t : OfficeTask α} (h : Reads t) : Reads (Site.within t) := by
  intro s
  have hs : t.after s.office = s.office := h s.office
  show { s with office := t.after s.office } = s
  rw [hs]

end Reads

/-! ## Tasks that do not fail -/

/-- The task returns from every state. -/
def Returns (t : Task σ α) : Prop := ∀ s, ∃ x, t.answer s = .ok x

namespace Returns

theorem pure (x : α) : Returns (Pure.pure x : Task σ α) := fun _ => ⟨x, rfl⟩

theorem get : Returns (MonadState.get : Task σ σ) := fun s => ⟨s, rfl⟩

theorem modify (f : σ → σ) : Returns (modify f : Task σ PUnit) := fun _ => ⟨⟨⟩, rfl⟩

theorem set (s : σ) : Returns (MonadStateOf.set s : Task σ PUnit) := fun _ => ⟨⟨⟩, rfl⟩

theorem attempt (t : Task σ α) : Returns (Task.attempt t) := fun s => ⟨(t.exec s).1, rfl⟩

theorem within {t : OfficeTask α} (h : Returns t) : Returns (Site.within t) := fun s => h s.office

theorem bind {t : Task σ α} {f : α → Task σ β} (ht : Returns t) (hf : ∀ x, Returns (f x)) :
    Returns (t >>= f) := by
  intro s
  obtain ⟨x, hx⟩ := ht s
  obtain ⟨y, hy⟩ := hf x (t.after s)
  exact ⟨y, by rw [answer, exec_bind_ok (Prod.ext hx rfl), ← hy]; rfl⟩

theorem discard {t : Task σ α} (ht : Returns t) : Returns (Functor.discard t) := by
  -- `discard` is a map, and so a bind with an answer that is thrown away.
  have hmap : Functor.discard t = t >>= fun _ => Pure.pure () := map_eq_pure_bind _ t
  rw [hmap]
  exact ht.bind fun _ => pure ()

theorem ite {c : Prop} [Decidable c] {t u : Task σ α} (ht : Returns t) (hu : Returns u) :
    Returns (if c then t else u) := by
  split
  · exact ht
  · exact hu

theorem forM {f : α → Task σ PUnit} (l : List α) (h : ∀ x ∈ l, Returns (f x)) :
    Returns (l.forM f) := by
  induction l with
  | nil => exact pure PUnit.unit
  | cons x rest ih =>
    refine (h x (List.mem_cons_self ..)).bind fun _ => ?_
    exact ih fun z hz => h z (List.mem_cons_of_mem _ hz)

/-- What follows a task that returns starts from its answer. -/
theorem after_bind {t : Task σ α} (ht : Returns t) (f : α → Task σ β) (s : σ) :
    ∃ x, (t >>= f).after s = (f x).after (t.after s) := by
  obtain ⟨x, hx⟩ := ht s
  exact ⟨x, by rw [after, exec_bind_ok (Prod.ext hx rfl)]; rfl⟩

end Returns

/-! ## Tasks that agree -/

/-- Two tasks give the same answer, and `g` shows the same of the states behind them. -/
def Agree {γ : Type} (g : σ → γ) (t t' : Task σ α) : Prop :=
  ∀ s, t.answer s = t'.answer s ∧ g (t.after s) = g (t'.after s)

namespace Agree

variable {γ : Type} {g : σ → γ}

theorem refl (t : Task σ α) : Agree g t t := fun _ => ⟨rfl, rfl⟩

/-- Tasks with the same first part go on from the same state, if they go on. -/
theorem bind (t : Task σ α) {f f' : α → Task σ β} (h : ∀ x, Agree g (f x) (f' x)) :
    Agree g (t >>= f) (t >>= f') := by
  intro s
  unfold answer after
  rw [exec_bind, exec_bind]
  rcases t.exec s with ⟨fault | x, s'⟩
  · exact ⟨rfl, rfl⟩
  · exact h x s'

theorem ite {c : Prop} [Decidable c] {t t' u u' : Task σ α} (ht : Agree g t t')
    (hu : Agree g u u') : Agree g (if c then t else u) (if c then t' else u') := by
  split
  · exact ht
  · exact hu

/-- The answers may be turned into others. -/
theorem bind_pure {t t' : Task σ α} (h : Agree g t t') (f : α → β) :
    Agree g (t >>= fun x => pure (f x)) (t' >>= fun x => pure (f x)) := by
  intro s
  obtain ⟨hanswer, hafter⟩ := h s
  simp only [answer, after] at hanswer hafter ⊢
  rw [exec_bind, exec_bind]
  rcases ht : t.exec s with ⟨fault | x, s₁⟩ <;> rcases ht' : t'.exec s with ⟨fault' | x', s₂⟩ <;>
    rw [ht, ht'] at hanswer hafter <;> cases hanswer
  · exact ⟨rfl, hafter⟩
  · exact ⟨rfl, hafter⟩

/-- Tasks that always return, and leave alone what `g` shows. -/
theorem of_returns {t t' : Task σ Unit} (ht : Returns t) (ht' : Returns t')
    (hkeeps : Keeps (Same g) t) (hkeeps' : Keeps (Same g) t') : Agree g t t' := by
  intro s
  obtain ⟨_, hanswer⟩ := ht s
  obtain ⟨_, hanswer'⟩ := ht' s
  have hafter : g (t.after s) = g s := hkeeps s
  have hafter' : g (t'.after s) = g s := hkeeps' s
  exact ⟨hanswer.trans hanswer'.symm, hafter.trans hafter'.symm⟩

end Agree

end Task

end Signoff
