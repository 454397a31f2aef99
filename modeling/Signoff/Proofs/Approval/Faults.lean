import Signoff.Proofs.Approval.Transitions

/-! # Why decisions fail

    Telling about a decision never fails, so a decision that was written fails
    only where the flow cannot go on behind it:

    * `returns_tell`, `returns_send`: the channels do not fail.
    * `fault_follow`: what follows a decision fails only on an unknown level, as
      long as the workflow says something about the item.
    * `returns_follow`: nor does anything where the level was satisfied before.
    * `checkSequence_of_transition`: so a decision is out of sequence only if the
      check of the sequence has said so.
-/

open Signoff.Task (Keeps Reads Returns)

namespace Signoff

/-! ## Channels -/

namespace Site

theorem returns_current (item : Item) : Returns (current item) :=
  Returns.get.bind fun _ => .pure _

theorem returns_tell (c : Channels) (item : Item) (kind : EventKind) (actor : Option String)
    (note : ApprovalNote) : Returns (c.tell item kind actor note) :=
  (returns_current item).bind fun _ => (c.listener.returns_tell _).within

theorem returns_send (c : Channels) (item : Item) {messages : Subject → List Message}
    (h : ∀ s, ∀ m ∈ messages s, m.notice.IsText) : Returns (c.send item messages) := by
  refine .ite ((returns_current item).bind fun item => Returns.get.bind fun s => ?_) (.pure _)
  refine Returns.forM _ fun m hm => ?_
  exact (Office.returns_notify (h _ m hm) m.user).within.discard

theorem returns_announce (c : Channels) (item : Item) (opened : List Approval)
    (actor : Option String) : Returns (c.announce item opened actor) := by
  refine (Returns.forM _ fun a _ => returns_tell c item _ actor _).bind fun _ => ?_
  refine Returns.forM _ fun level _ => returns_send c item fun s m hm => ?_
  exact s.isText_approvalRequested hm

theorem returns_tellDecided (c : Channels) (item : Item) (a : Approval)
    (actor comments : Option String) (completed : Bool) (opened : List Approval) :
    Returns (Approvals.tellDecided c item a actor comments completed opened) := by
  refine (returns_tell c item _ actor _).bind fun _ => ?_
  refine (returns_send c item fun s m hm => s.isText_approved hm).bind fun _ => ?_
  have hopened : ∀ u : PUnit, Returns
      (c.announce item (opened.filter fun a => a.status == .pending) actor) :=
    fun _ => returns_announce c item _ actor
  exact .ite ((returns_tell c item _ actor _).bind hopened) (hopened ⟨⟩)

theorem returns_tellApproved (c : Channels) (item : Item) (a : Approval)
    (actor comments : Option String) (completed : Bool) (aftermath : Approvals.Aftermath) :
    Returns (Approvals.tellApproved c item a actor comments completed aftermath) := by
  rw [Approvals.tellApproved_eq]
  refine (returns_tellDecided c item a actor comments completed _).bind fun _ => .ite ?_ (.pure _)
  exact returns_send c item fun s m hm => s.isText_allComplete hm

theorem returns_tellRejected (c : Channels) (item : Item) (a : Approval)
    (actor comments : Option String) :
    Returns (Approvals.tellRejected c item a actor comments) := by
  refine (returns_tell c item _ actor _).bind fun _ => returns_send c item fun s m hm => ?_
  split at hm
  · exact s.isText_changesRequested hm
  · exact s.isText_rejected hm

end Site

/-! ## Out of sequence -/

/-- Permissions are denied for other reasons. -/
theorem Access.demand_ne_outOfSequence {o : Office} {actor : Option String} {a : Approval}
    {level previous : String} :
    demand o actor (.approval a) .decideApproval ≠ .error (.outOfSequence level previous) := by
  have helevated (role : Option String) :
      isElevated o role ≠ .error (.outOfSequence level previous) := by
    intro h
    rcases Result.bind_eq_error h with h | ⟨roles, -, h⟩
    · unfold Value.items at h
      split at h <;> cases h
    · split at h <;> cases h
  intro h
  rcases Result.bind_eq_error h with h | ⟨isAllowed, -, h⟩
  · unfold allows at h
    simp only [pure, Except.pure] at h
    split at h
    · split at h
      · cases h
      · split at h
        · cases h
        · exact helevated _ h
    · cases h
  · split at h <;> cases h

namespace Approvals

open Site

variable {s : Site} {key : Int} {requested : Value} {actor comments : Option String}
  {level previous : String}

theorem allowedStatus_ne_outOfSequence {a : Approval} :
    allowedStatus a requested ≠ .error (.outOfSequence level previous) := by
  unfold allowedStatus
  simp only [bind, Except.bind, pure, Except.pure, throw, throwThe, MonadExceptOf.throw]
  split
  · nofun
  · split
    · nofun
    · split <;> nofun

/-- An examination finds a decision out of sequence only by the check of the sequence. -/
theorem checkSequence_of_examine
    (h : (examine key requested actor).answer s = .error (.outOfSequence level previous)) :
    ∃ a, s.approvals.get? key = some a ∧
      checkSequence s a = .error (.outOfSequence level previous) := by
  rw [answer_examine, answer_requireApproval] at h
  rcases Result.bind_eq_error h with h | ⟨a, ha, h⟩
  · rcases Result.bind_eq_error h with h | ⟨_, -, h⟩
    · unfold checkKey at h
      split at h <;> cases h
    · split at h <;> cases h
  · obtain ⟨_, -, ha⟩ := Result.bind_eq_ok ha
    have hfound : s.approvals.get? key = some a := by
      split at ha
      · next found hget =>
        cases ha
        exact hget
      · cases ha
    refine ⟨a, hfound, ?_⟩
    rcases Result.bind_eq_error h with h | ⟨_, -, h⟩
    · exact absurd h Access.demand_ne_outOfSequence
    · rcases Result.bind_eq_error h with h | ⟨next, -, h⟩
      · exact absurd h allowedStatus_ne_outOfSequence
      · split at h
        · rcases Result.bind_eq_error h with h | ⟨_, -, h⟩
          · exact h
          · cases h
        · cases h

/-! ## Behind a decision -/

/-- Items are not missed for being out of sequence. -/
theorem requireItem_ne_outOfSequence {o : Office} {itemId : Int} {archived : Bool} :
    (Office.requireItem itemId archived).answer o ≠ .error (.outOfSequence level previous) := by
  intro h
  rw [Office.answer_requireItem] at h
  rcases Result.bind_eq_error h with h | ⟨_, -, h⟩
  · unfold checkKey at h
    split at h <;> cases h
  · split at h <;> cases h

/-- The fault of rows on levels that nobody knows. -/
def unknownLevel : Fault := .badValue "no level has this name"

variable {item : Item} {w : Workflow} {e : Evaluation} {fault : Fault}

/-- An item with an evaluation stands somewhere. -/
theorem fault_progressOf (heval : s.evaluationOf item = .ok (w, e))
    (h : (progressOf item).answer s = .error fault) : fault = unknownLevel := by
  obtain ⟨hw, he⟩ := workflow?_of_evaluationOf heval
  rw [answer_progressOf] at h
  rcases Result.bind_eq_error h with h | ⟨rows, -, h⟩
  · exact levelRows_eq_error h
  · rw [hw] at h
    change w.progress rows (w.evaluate _) = _ at h
    rw [he] at h
    unfold Workflow.progress at h
    split at h
    · cases h
    · split at h
      · cases h
      · split at h <;> cases h

/-- Opening the next level changes no more than the approvals. -/
theorem evaluationOf_nextOpened (itemId : Int) (other : Item) :
    (s.nextOpened itemId w e).evaluationOf other = s.evaluationOf other := by
  unfold nextOpened
  split
  · split <;> rfl
  · rfl

/-- The flow goes on unless a row is on an unknown level. -/
theorem fault_goOn (hitem : (s.office.items.get? item.id).isSome)
    (heval : s.evaluationOf item = .ok (w, e)) (h : (goOn item).answer s = .error fault) :
    fault = unknownLevel := by
  rw [answer_goOn hitem heval] at h
  rcases Result.bind_eq_error h with h | ⟨opened, -, h⟩
  · unfold nextAsked at h
    split at h
    · cases h
    · rcases Result.bind_eq_error h with h | ⟨rows, -, h⟩
      · exact levelRows_eq_error h
      · split at h <;> cases h
  · split at h
    · rcases Result.bind_eq_error h with h | ⟨progress, -, h⟩
      · refine fault_progressOf (w := w) (e := e) ?_ h
        rw [evaluationOf_nextOpened, heval]
      · cases h
    · cases h

/-- What follows a decision fails only where the flow cannot go on. -/
theorem fault_follow {c : Channels} {wasSatisfied : Bool} {d : Approval}
    (hitem : (s.office.items.get? item.id).isSome) (heval : s.evaluationOf item = .ok (w, e))
    (h : (follow c item w wasSatisfied d actor comments).answer s = .error fault) :
    fault = unknownLevel := by
  have hnever {α : Type} {t : SiteTask α} {s' : Site} (ht : Returns t)
      (h : t.answer s' = .error fault) : fault = unknownLevel := by
    obtain ⟨x, hx⟩ := ht s'
    rw [hx] at h
    cases h
  unfold follow at h
  split at h
  · rw [Task.answer_get_bind] at h
    simp only at h
    split at h
    · rw [Task.answer_bind] at h
      rcases Result.bind_eq_error h with h | ⟨aftermath, -, h⟩
      · exact fault_goOn hitem heval h
      · exact hnever (returns_tellApproved c item d actor comments _ aftermath) h
    · rw [pure_bind] at h
      exact hnever (returns_tellApproved c item d actor comments _ _) h
  · exact hnever (returns_tellRejected c item d actor comments) h
  · exact hnever (.pure _) h

/-- Where the level was satisfied before, nothing that follows a decision fails. -/
theorem returns_follow {c : Channels} {wasSatisfied : Bool} {d : Approval}
    (h : isSatisfied w s d = true → wasSatisfied = true) :
    ∃ u, (follow c item w wasSatisfied d actor comments).answer s = .ok u := by
  unfold follow
  split
  · rw [Task.answer_get_bind]
    have hcompleted : ¬ (!wasSatisfied && isSatisfied w s d) = true := by
      intro hboth
      rw [Bool.and_eq_true] at hboth
      rw [h hboth.2] at hboth
      cases hboth.1
    simp only
    rw [if_neg hcompleted, pure_bind]
    exact returns_tellApproved c item d actor comments _ _ s
  · exact returns_tellRejected c item d actor comments s
  · exact ⟨⟨⟩, rfl⟩

/-- A decision is out of sequence only if the check of the sequence has said so, as long as the workflow
    says something about the item. -/
theorem checkSequence_of_transition {c : Channels}
    (heval : ∀ a item, s.approvals.get? key = some a → s.office.items.get? a.itemId = some item →
      ∃ w e, s.evaluationOf item = .ok (w, e))
    (h : (transition c key requested actor comments).answer s =
      .error (.outOfSequence level previous)) :
    ∃ a, s.approvals.get? key = some a ∧
      checkSequence s a = .error (.outOfSequence level previous) := by
  rcases transition_cases c key requested actor comments s with
    ⟨fault, s', hexec, -, hrefusal⟩ | ⟨a, next, item, w, hdecision, hexec⟩
  · have hfault : fault = .outOfSequence level previous := by
      rw [Task.answer, hexec] at h
      cases h
      rfl
    subst hfault
    -- Of all the reasons to refuse, only the examination looks at the sequence.
    cases hrefusal with
    | examined h => exact checkSequence_of_examine h
    | noItem h => exact absurd h requireItem_ne_outOfSequence
    | @noWorkflow _ a item hfound hitem h =>
      obtain ⟨w, e, hsaid⟩ := heval a item hfound hitem
      rw [(workflow?_of_evaluationOf hsaid).1] at h
      cases h
  · obtain ⟨w', e, hsaid⟩ := heval a item hdecision.found hdecision.itemFound
    have hw : w' = w := by
      have hboth := (workflow?_of_evaluationOf hsaid).1.symm.trans hdecision.workflow
      cases hboth
      rfl
    subst hw
    rw [Task.answer, hexec] at h
    rcases Result.bind_eq_error ((Task.answer_bind _ _ _).symm.trans h) with h | ⟨_, -, h⟩
    · have hid : item.id = a.itemId := hdecision.id_eq
      have hsaid' : ((s.decide (a.decided next comments actor s.office.clock)).lookedUp
          item.boardId).evaluationOf item = .ok (w', e) := by
        rw [evaluationOf_lookedUp]
        exact hsaid
      have hunknown := fault_follow ?_ hsaid' h
      · cases hunknown
      · rw [lookedUp_office, decide_office, hid, hdecision.itemFound]
        rfl
    · cases h

end Approvals

end Signoff
