import Signoff.Proofs.Task.Commuting
import Signoff.Web.Envelope

/-! # Refusals

    Of all faults, some are told to the one who asks: these are refusals. A task
    that reads and checks before it writes leaves nothing behind where it is
    refused:

    * `Result.Refused`: the result is a fault that is told.
    * `Task.UnrefusedAt s`: from `s` the task may fail, but is not refused.
    * `Task.SparesAt Q g s`: if `Q` holds of what the task answers from `s`, then what
      `g` shows is as in front.
    * `SparesAt.bind`: to spare the state where it is refused, a task may not be
      refused behind its writes.
-/

namespace Signoff

/-- A key that does not fit is no reason that is told. -/
theorem refusal?_of_checkKey {n : Int} {fault : Fault} (h : checkKey n = .error fault) :
    fault.refusal? = none := by
  unfold checkKey at h
  split at h
  · cases h
  · cases h
    rfl

/-- The result is a fault that is told. -/
def Result.Refused {α : Type} (r : Result α) : Prop :=
  ∃ fault, r = .error fault ∧ fault.refusal?.isSome

namespace Task

variable {σ α β γ : Type} {s : σ}

/-- From `s` the task is not refused. -/
def UnrefusedAt (s : σ) (t : Task σ α) : Prop :=
  ∀ fault, t.answer s = .error fault → fault.refusal? = none

namespace UnrefusedAt

theorem of_returns {t : Task σ α} (h : ∃ x, t.answer s = .ok x) : UnrefusedAt s t := by
  intro fault hfault
  obtain ⟨x, hx⟩ := h
  rw [hx] at hfault
  cases hfault

theorem ofResult {r : Result α} (h : ∀ fault, r = .error fault → fault.refusal? = none) :
    UnrefusedAt s (Task.ofResult r : Task σ α) := by
  intro fault hfault
  rw [answer_ofResult] at hfault
  exact h fault hfault

theorem bind {t : Task σ α} {k : α → Task σ β} (ht : UnrefusedAt s t)
    (hk : ∀ x, t.answer s = .ok x → UnrefusedAt (t.after s) (k x)) : UnrefusedAt s (t >>= k) := by
  intro fault hfault
  rw [answer_bind] at hfault
  rcases Result.bind_eq_error hfault with hfirst | ⟨x, hx, hsecond⟩
  · exact ht fault hfirst
  · exact hk x hx fault hsecond

/-- A part that only reads ends where it has started. -/
theorem reads_bind {t : Task σ α} {k : α → Task σ β} (hreads : Reads t) (ht : UnrefusedAt s t)
    (hk : ∀ x, t.answer s = .ok x → UnrefusedAt s (k x)) : UnrefusedAt s (t >>= k) := by
  refine ht.bind fun x hx => ?_
  have hsame : t.after s = s := hreads s
  rw [hsame]
  exact hk x hx

end UnrefusedAt

/-- If `Q` holds of what the task answers from `s`, then what `g` shows is as in front. -/
def SparesAt (Q : Result α → Prop) (g : σ → γ) (s : σ) (t : Task σ α) : Prop :=
  Q (t.answer s) → g (t.after s) = g s

namespace SparesAt

variable {g : σ → γ} {t : Task σ α} {Q : Result α → Prop} {k : α → Task σ β} {Q' : Result β → Prop}

theorem of_keeps (h : Keeps (Same g) t) : SparesAt Q g s t := fun _ => h s

/-- The task goes on behind a part that leaves alone what `g` shows, -/
theorem same_bind (ht : g (t.after s) = g s)
    (hk : ∀ x, t.answer s = .ok x → SparesAt Q' g (t.after s) (k x)) : SparesAt Q' g s (t >>= k) := by
  intro hQ
  rw [answer_bind] at hQ
  rcases hexec : t.exec s with ⟨e | x, s'⟩
  · rw [after, hexec] at ht
    rw [after, exec_bind, hexec]
    exact ht
  · have hx : t.answer s = .ok x := by rw [answer, hexec]
    rw [hx] at hQ
    have hbehind : (t >>= k).after s = (k x).after (t.after s) := by
      simp only [after, exec_bind, hexec]
    rw [hbehind]
    exact (hk x hx hQ).trans ht

/-- or one that only reads. -/
theorem reads_bind (ht : Reads t) (hk : ∀ x, t.answer s = .ok x → SparesAt Q' g s (k x)) :
    SparesAt Q' g s (t >>= k) := by
  have hsame : t.after s = s := ht s
  refine same_bind (congrArg g hsame) fun x hx => ?_
  rw [hsame]
  exact hk x hx

theorem ite {c : Prop} [Decidable c] {u : Task σ α} (ht : SparesAt Q g s t) (hu : SparesAt Q g s u) :
    SparesAt Q g s (if c then t else u) := by
  split
  · exact ht
  · exact hu

theorem of_atomicAt (h : AtomicAt g s t) : SparesAt Result.Refused g s t := by
  rintro ⟨fault, hfault, -⟩
  exact h fault hfault

theorem of_unrefused (h : UnrefusedAt s t) : SparesAt Result.Refused g s t := by
  rintro ⟨fault, hfault, hrefused⟩
  rw [h fault hfault] at hrefused
  cases hrefused

/-- What follows the writes is not refused. -/
theorem bind (ht : SparesAt Result.Refused g s t)
    (hk : ∀ x, t.answer s = .ok x → UnrefusedAt (t.after s) (k x)) :
    SparesAt Result.Refused g s (t >>= k) := by
  cases hx : t.answer s with
  | ok x =>
    rintro ⟨fault, hfault, hrefused⟩
    rw [answer_bind, hx] at hfault
    rw [hk x hx fault hfault] at hrefused
    cases hrefused
  | error e =>
    -- The first part has failed, and the whole has done no more.
    rintro ⟨fault, hfault, hrefused⟩
    rw [answer_bind, hx] at hfault
    cases hfault
    rw [after_bind_of_error hx]
    exact ht ⟨e, hx, hrefused⟩

end SparesAt

end Task

end Signoff
