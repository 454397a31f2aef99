import Signoff.Job.Session
import Signoff.Proofs.Task

/-! # What sessions leave behind

    A session shows its own writes, and leaves those that were stored. This module
    follows a session step by step:

    * `Session.exec_*`: what a step answers and what it leaves.
    * `Session.Settles R`: the operation leaves nothing that is not stored, and
      takes every site to one that is related to it by `R`. This is checked part by
      part, and `Session.Settles.within` turns it into `Task.Keeps`.
-/

open Signoff.Task (Keeps)

namespace Signoff.Session

variable {α β : Type}

@[simp] theorem stored_opened (s : Site) : (opened s).stored = s := rfl

@[simp] theorem seen_opened (s : Site) : (opened s).seen = s := rfl

/-- Nothing is lost where everything is stored. -/
@[simp] theorem left_opened (s : Site) : (opened s).left = s := rfl

@[simp] theorem jobs_left (w : Session) : w.left.office.jobs = w.stored.office.jobs := rfl

@[simp] theorem exec_draft (t : SiteTask α) (w : Session) :
    (draft t).exec w = ((t.exec w.seen).1, { w with seen := (t.exec w.seen).2 }) := rfl

@[simp] theorem exec_storing (t : SiteTask α) (w : Session) :
    (storing t).exec w = ((t.exec w.seen).1, opened (t.exec w.seen).2) := rfl

@[simp] theorem exec_commit (w : Session) : commit.exec w = (.ok (), opened w.seen) := rfl

@[simp] theorem exec_rollback (w : Session) : rollback.exec w = (.ok (), opened w.left) := rfl

theorem exec_within (t : SessionTask α) (s : Site) :
    (within t).exec s = ((t.exec (opened s)).1, (t.exec (opened s)).2.left) := rfl

/-- The operation leaves nothing to be stored, and a site that is related to the one in front. -/
def Settles (R : Site → Site → Prop) (t : SessionTask α) : Prop :=
  ∀ s, ∃ s', t.after (opened s) = opened s' ∧ R s s'

namespace Settles

variable {R : Site → Site → Prop}

theorem pure [Std.Refl R] (x : α) : Settles R (Pure.pure x : SessionTask α) :=
  fun s => ⟨s, rfl, Std.Refl.refl s⟩

theorem storing {t : SiteTask α} (h : Keeps R t) : Settles R (Session.storing t) :=
  fun s => ⟨t.after s, rfl, h s⟩

theorem rollback [Std.Refl R] : Settles R Session.rollback :=
  fun s => ⟨s, rfl, Std.Refl.refl s⟩

theorem attempt {t : SessionTask α} (h : Settles R t) : Settles R (Task.attempt t) := h

theorem bind [IsTrans Site R] {t : SessionTask α} {f : α → SessionTask β} (ht : Settles R t)
    (hf : ∀ x, Settles R (f x)) : Settles R (t >>= f) := by
  intro s
  obtain ⟨s', hs', hR⟩ := ht s
  simp only [Task.after] at hs' ⊢
  rw [Task.exec_bind]
  rcases h : t.exec (opened s) with ⟨fault | x, w⟩
  · -- The first part failed, so there is no second one.
    rw [h] at hs'
    exact ⟨s', hs', hR⟩
  · rw [h] at hs'
    obtain rfl : w = opened s' := hs'
    obtain ⟨s'', hs'', hR'⟩ := hf x s'
    exact ⟨s'', hs'', IsTrans.trans _ _ _ hR hR'⟩

/-- Behind `get` the session is known. -/
theorem get_bind {f : Session → SessionTask β}
    (h : ∀ s, ∃ s', (f (opened s)).after (opened s) = opened s' ∧ R s s') :
    Settles R (MonadState.get >>= f) := h

/-- An operation in a session of its own that leaves nothing to be stored. -/
theorem within {t : SessionTask α} (h : Settles R t) : Keeps R (Session.within t) := by
  intro s
  obtain ⟨s', hs', hR⟩ := h s
  have hleft : (Session.within t).after s = (t.after (opened s)).left := rfl
  rw [hleft, hs', left_opened]
  exact hR

end Settles
end Signoff.Session
