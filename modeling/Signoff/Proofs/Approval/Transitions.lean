import Signoff.Proofs.Approval.Requests

/-! # What a decision writes

    A decision replaces the row that it decides. When it satisfies the level for
    the first time, the next level is opened besides:

    * `Approvals.Decision`: everything that was found out before the row is
      written.
    * `Approvals.Refusal`: why a decision is refused. Then nothing is written.
    * `transition_cases`: a transition is refused, or comes to its decision.
      `after_of_transition`: one that returns has gone on from there.
    * `answer_goOn`: what going on behind a level finds out.
    * `after_transition`: the approvals behind a transition.
-/

open Signoff.Task (Keeps Reads Same)

namespace Signoff

variable {s : Site} {key : Int} {requested : Value} {actor comments : Option String}
  {a : Approval} {next : Status}

namespace Site

/-- The state in which the flow of an item has gone on behind a level. -/
def goneOn (s : Site) (item : Item) : Site :=
  match s.evaluationOf item with
  | .ok (w, e) => s.nextOpened item.id w e
  | .error _ => s

theorem decide_lookedUp (s : Site) (boardId : Int) (d : Approval) :
    (s.lookedUp boardId).decide d = (s.decide d).lookedUp boardId := by
  unfold lookedUp
  rw [decide_known, decide_office]
  split <;> rfl

theorem isClaimed_lookedUp (s : Site) (boardId : Int) (d : Approval) :
    (s.lookedUp boardId).isClaimed d = s.isClaimed d := by
  obtain ⟨known, hknown⟩ := s.exists_lookedUp boardId
  rw [hknown]
  rfl

theorem isSatisfied_lookedUp (w : Workflow) (s : Site) (boardId : Int) (a : Approval) :
    Approvals.isSatisfied w (s.lookedUp boardId) a = Approvals.isSatisfied w s a := by
  obtain ⟨known, hknown⟩ := s.exists_lookedUp boardId
  rw [hknown]
  rfl

theorem goneOn_lookedUp (s : Site) (boardId : Int) (item : Item) :
    ((s.lookedUp boardId).goneOn item).approvals = (s.goneOn item).approvals := by
  unfold goneOn
  rw [evaluationOf_lookedUp]
  split
  · rw [Approvals.nextOpened_lookedUp]
    exact lookedUp_approvals _ boardId
  · exact lookedUp_approvals s boardId

/-- Going on opens the next level, or nothing. -/
theorem goneOn_cases (s : Site) (item : Item) :
    s.goneOn item = s ∨
      ∃ w e, s.evaluationOf item = .ok (w, e) ∧ s.goneOn item = s.nextOpened item.id w e := by
  unfold goneOn
  split
  · next w e heval => exact .inr ⟨w, e, heval, rfl⟩
  · exact .inl rfl

end Site

namespace Approvals

open Site

/-! ## Examination -/

/-- Only the three words name a status, and approved is final. -/
theorem allowedStatus_eq_ok (h : allowedStatus a requested = .ok next) :
    (∃ word, requested = .text word ∧ Status.ofWord? word = some next) ∧
      (a.status = .approved → next = .approved) := by
  unfold allowedStatus at h
  simp only [bind, Except.bind, pure, Except.pure, throw, throwThe, MonadExceptOf.throw] at h
  split at h
  · cases h
  · split at h
    · cases h
    · next found hfound =>
      split at h
      · cases h
      · next hfinal =>
        cases h
        refine ⟨?_, fun happroved => ?_⟩
        · cases requested with
          | text word => exact ⟨word, rfl, hfound⟩
          | _ => cases hfound
        · by_contra hne
          exact hfinal (by simp [happroved, hne])

/-- What an examination has found out. -/
structure Examined (s : Site) (key : Int) (requested : Value) (actor : Option String)
    (a : Approval) (next : Status) : Prop where
  found : s.approvals.get? key = some a
  permitted : Access.demand s.office actor (.approval a) .decideApproval = .ok ()
  allowed : allowedStatus a requested = .ok next
  inSequence : next = .approved → checkSequence s a = .ok ()

theorem answer_requireApproval (s : Site) (key : Int) :
    (requireApproval key).answer s = (do
      checkKey key
      match s.approvals.get? key with
      | some a => .ok a
      | none => .error (.notFound "Approval" (.int key))) := by
  unfold requireApproval
  rw [Reads.answer_bind (Keeps.ofResult _), Task.answer_ofResult]
  refine bind_congr fun _ => ?_
  rw [Task.answer_get_bind]
  cases s.approvals.get? key <;> rfl

theorem answer_examine (s : Site) (key : Int) (requested : Value) (actor : Option String) :
    (examine key requested actor).answer s = (do
      let a ← (requireApproval key).answer s
      Access.demand s.office actor (.approval a) .decideApproval
      let next ← allowedStatus a requested
      if next == .approved then checkSequence s a
      pure (a, next)) := by
  unfold examine
  rw [Reads.answer_bind (keeps_requireApproval key)]
  refine bind_congr fun a => ?_
  rw [Reads.answer_bind (Office.reads_demand actor _ _).within, Task.answer_within,
    Office.answer_demand]
  refine bind_congr fun _ => ?_
  rw [Reads.answer_bind (Keeps.ofResult _), Task.answer_ofResult]
  refine bind_congr fun next => ?_
  simp only
  split
  · rw [Task.answer_get_bind, Reads.answer_bind (Keeps.ofResult _), Task.answer_ofResult]
    rfl
  · rfl

theorem get?_of_requireApproval (h : (requireApproval key).answer s = .ok a) :
    s.approvals.get? key = some a := by
  rw [answer_requireApproval] at h
  obtain ⟨_, -, h⟩ := Result.bind_eq_ok h
  cases hget : s.approvals.get? key with
  | none =>
    rw [hget] at h
    cases h
  | some found =>
    rw [hget] at h
    cases h
    rfl

theorem examined_of_ok (h : (examine key requested actor).answer s = .ok (a, next)) :
    Examined s key requested actor a next := by
  rw [answer_examine] at h
  obtain ⟨a', ha, h⟩ := Result.bind_eq_ok h
  have hfound := get?_of_requireApproval ha
  obtain ⟨_, hpermitted, h⟩ := Result.bind_eq_ok h
  obtain ⟨next', hallowed, h⟩ := Result.bind_eq_ok h
  by_cases happroved : next' = .approved
  · rw [if_pos (beq_iff_eq.mpr happroved)] at h
    obtain ⟨_, hsequence, h⟩ := Result.bind_eq_ok h
    cases h
    exact ⟨hfound, hpermitted, hallowed, fun _ => hsequence⟩
  · rw [if_neg (by simpa using happroved)] at h
    cases h
    exact ⟨hfound, hpermitted, hallowed, fun h => absurd h happroved⟩

/-! ## Decisions -/

/-- Everything that a decision rests on. -/
structure Decision (s : Site) (key : Int) (requested : Value) (actor comments : Option String)
    (a : Approval) (next : Status) (item : Item) (w : Workflow) : Prop
    extends Examined s key requested actor a next where
  required : (Office.requireItem a.itemId true).answer s.office = .ok item
  workflow : s.workflow? item.boardId = .ok w
  isFree : s.isClaimed (a.decided next comments actor s.office.clock) = false

namespace Decision

variable {item : Item} {w : Workflow}

theorem itemFound (h : Decision s key requested actor comments a next item w) :
    s.office.items.get? a.itemId = some item :=
  (Office.get?_of_requireItem h.required).1

theorem id_eq (h : Decision s key requested actor comments a next item w) : item.id = a.itemId :=
  Office.id_of_requireItem h.required

end Decision

/-- Why a decision is refused. -/
inductive Refusal (s : Site) (key : Int) (requested : Value) (actor : Option String) :
    Fault → Prop where
  | examined {fault : Fault} (h : (examine key requested actor).answer s = .error fault) :
      Refusal s key requested actor fault
  | noItem {fault : Fault} {itemId : Int}
      (h : (Office.requireItem itemId true).answer s.office = .error fault) :
      Refusal s key requested actor fault
  | noWorkflow {fault : Fault} {a : Approval} {item : Item}
      (hfound : s.approvals.get? key = some a)
      (hitem : s.office.items.get? a.itemId = some item)
      (h : s.workflow? item.boardId = .error fault) : Refusal s key requested actor fault
  | claimed : Refusal s key requested actor
      (.constraint "the approver has another approval on this level")

/-- A transition is refused before it writes anything, or goes on from its decision. -/
theorem transition_cases (c : Channels) (key : Int) (requested : Value)
    (actor comments : Option String) (s : Site) :
    (∃ fault s', (transition c key requested actor comments).exec s = (.error fault, s') ∧
        (s' = s ∨ ∃ boardId, s' = s.lookedUp boardId) ∧ Refusal s key requested actor fault) ∨
      ∃ a next item w, Decision s key requested actor comments a next item w ∧
        (transition c key requested actor comments).exec s =
          (do
            follow c item w (isSatisfied w s a) (a.decided next comments actor s.office.clock)
              actor comments
            pure (a.decided next comments actor s.office.clock)).exec
            ((s.decide (a.decided next comments actor s.office.clock)).lookedUp item.boardId) := by
  unfold transition
  rw [(reads_examine key requested actor).exec_bind]
  cases hexamined : (examine key requested actor).answer s with
  | error fault => exact .inl ⟨fault, s, rfl, .inl rfl, .examined hexamined⟩
  | ok decision =>
    obtain ⟨a, next⟩ := decision
    have hex := examined_of_ok hexamined
    simp only
    rw [(Office.reads_requireItem a.itemId true).within.exec_bind, Task.answer_within]
    cases hitem : (Office.requireItem a.itemId true).answer s.office with
    | error fault => exact .inl ⟨fault, s, rfl, .inl rfl, .noItem hitem⟩
    | ok item =>
      have hget := (Office.get?_of_requireItem hitem).1
      simp only
      rw [Task.exec_bind, exec_workflowOf]
      cases hw : s.workflow? item.boardId with
      | error fault =>
        exact .inl ⟨fault, _, rfl, .inr ⟨item.boardId, rfl⟩, .noWorkflow hex.found hget hw⟩
      | ok w =>
        simp only
        rw [Task.exec_get_bind, Task.exec_bind, exec_recordDecision, lookedUp_office,
          isClaimed_lookedUp, isSatisfied_lookedUp]
        -- From here on the only obstacle is another row of the same approver.
        by_cases hclaimed : s.isClaimed (a.decided next comments actor s.office.clock) = true
        · refine .inl ⟨_, s.lookedUp item.boardId, ?_, .inr ⟨item.boardId, rfl⟩, .claimed⟩
          rw [if_pos hclaimed]
        · refine .inr ⟨a, next, item, w, ?_, ?_⟩
          · exact { hex with required := hitem, workflow := hw, isFree := by simpa using hclaimed }
          · rw [if_neg hclaimed, decide_lookedUp]

/-- A transition that returns has gone on from its decision. -/
theorem after_of_transition {c : Channels} {d : Approval}
    (h : (transition c key requested actor comments).answer s = .ok d) :
    ∃ a next item w, Decision s key requested actor comments a next item w ∧
      d = a.decided next comments actor s.office.clock ∧
      (∃ u, (follow c item w (isSatisfied w s a) d actor comments).answer
        ((s.decide d).lookedUp item.boardId) = .ok u) ∧
      (transition c key requested actor comments).after s =
        (follow c item w (isSatisfied w s a) d actor comments).after
          ((s.decide d).lookedUp item.boardId) := by
  rcases transition_cases c key requested actor comments s with
    ⟨fault, s', hexec, -⟩ | ⟨a, next, item, w, hdecision, hexec⟩
  · rw [Task.answer, hexec] at h
    cases h
  · obtain ⟨u, s₁, hfollowed, hpure⟩ := Task.bind_eq_ok (hexec.symm.trans (Prod.ext h rfl))
    cases hpure
    refine ⟨a, next, item, w, hdecision, rfl, ⟨u, ?_⟩, ?_⟩
    · rw [Task.answer, hfollowed]
    · rw [Task.after, Task.after, hfollowed]

/-! ## Writes of a decision -/

theorem after_goOn {item : Item} (hitem : (s.office.items.get? item.id).isSome) :
    ((goOn item).after s).approvals = (s.goneOn item).approvals := by
  unfold goOn goneOn Task.after
  rw [Task.exec_bind, exec_evaluateItem]
  cases heval : s.evaluationOf item with
  | error fault => exact lookedUp_approvals s item.boardId
  | ok we =>
    obtain ⟨w, e⟩ := we
    have hsorted : Ascending e.required :=
      Workflow.ascending_required (workflow?_of_evaluationOf heval).2
    have hthere : ((s.lookedUp item.boardId).office.items.get? item.id).isSome := by
      rwa [lookedUp_office]
    refine (Keeps.same_after_bind fun opened => ?_).trans ?_
    · exact .ite ((keeps_progressOf item).bind fun _ => .pure _) (.pure _)
    · rw [after_openNext hsorted hthere, nextOpened_lookedUp, lookedUp_approvals]

/-- Going on tells nobody. -/
theorem office_of_goOn {item : Item} {r : Result Aftermath} {s' : Site}
    (h : (goOn item).exec s = (r, s')) : s'.office = s.office := by
  have hkeeps : Keeps (Same Site.office) (goOn item) := keeps_goOn item
  have hsame := hkeeps s
  rwa [Task.after, h] at hsame

/-- What going on answers, where the workflow says something about the item. -/
theorem answer_goOn {item : Item} {w : Workflow} {e : Evaluation}
    (hitem : (s.office.items.get? item.id).isSome) (heval : s.evaluationOf item = .ok (w, e)) :
    (goOn item).answer s = (do
      let opened ← s.nextAsked item.id w e
      if opened.isEmpty then do
        let progress ← (progressOf item).answer (s.nextOpened item.id w e)
        pure { finished := progress == .approved }
      else pure { opened }) := by
  have hsorted : Ascending e.required :=
    Workflow.ascending_required (workflow?_of_evaluationOf heval).2
  have hthere : ((s.lookedUp item.boardId).office.items.get? item.id).isSome := by
    rwa [lookedUp_office]
  unfold goOn
  rw [Task.answer_bind_of_exec (exec_evaluateItem s item), heval]
  change (openNext item w e >>= _).answer (s.lookedUp item.boardId) = _
  rw [Task.answer_bind_of_exec (exec_openNext hsorted hthere), nextAsked_lookedUp,
    nextOpened_lookedUp]
  refine bind_congr fun opened => ?_
  split
  · rw [Task.answer_bind, answer_progressOf_lookedUp]
    rfl
  · rfl

/-- Behind an approval that satisfies its level the flow goes on; anything else that follows a decision
    leaves the approvals alone. -/
theorem after_follow {c : Channels} {item : Item} {w : Workflow} {wasSatisfied : Bool}
    {d : Approval} (hitem : (s.office.items.get? item.id).isSome) :
    ((follow c item w wasSatisfied d actor comments).after s).approvals =
      (if d.status = .approved ∧ wasSatisfied = false ∧ isSatisfied w s d = true then s.goneOn item
        else s).approvals := by
  unfold follow
  cases d.status with
  | approved =>
    have htell (completed : Bool) (aftermath : Aftermath) : Keeps (Same approvals)
        (tellApproved c item d actor comments completed aftermath) :=
      keeps_tellApproved c item d actor comments completed aftermath (keeps_anyTell c item _ actor _)
    rw [Task.after_get_bind]
    -- The flow goes on only if this decision has completed the level.
    by_cases hcompleted : (!wasSatisfied && isSatisfied w s d) = true
    · have hboth : wasSatisfied = false ∧ isSatisfied w s d = true := by simpa using hcompleted
      rw [if_pos hcompleted, if_pos ⟨rfl, hboth⟩]
      exact (Keeps.same_after_bind fun aftermath => htell _ aftermath).trans (after_goOn hitem)
    · have hnot : ¬ (Status.approved = Status.approved ∧ wasSatisfied = false ∧
          isSatisfied w s d = true) := fun h => hcompleted (by simpa using h.2)
      rw [if_neg hcompleted, if_neg hnot, pure_bind]
      exact htell _ _ s
  | rejected =>
    rw [if_neg nofun]
    exact (keeps_tellRejected c item d actor comments : Keeps (Same approvals) _) s
  | pending =>
    rw [if_neg nofun]
    rfl
  | other word =>
    rw [if_neg nofun]
    rfl

/-- The approvals behind a decision. -/
def decidedSite (s : Site) (a d : Approval) (item : Item) (w : Workflow) : Site :=
  if d.status = .approved ∧ isSatisfied w s a = false ∧ isSatisfied w (s.decide d) d = true then
    (s.decide d).goneOn item
  else s.decide d

theorem after_decided {c : Channels} {item : Item} {w : Workflow}
    (h : Decision s key requested actor comments a next item w) :
    ((follow c item w (isSatisfied w s a) (a.decided next comments actor s.office.clock) actor
        comments).after ((s.decide (a.decided next comments actor s.office.clock)).lookedUp
          item.boardId)).approvals =
      (decidedSite s a (a.decided next comments actor s.office.clock) item w).approvals := by
  -- The workflow was looked up in between, which does not matter to the approvals.
  rw [after_follow (by rw [lookedUp_office, decide_office, h.id_eq, h.itemFound]; rfl),
    isSatisfied_lookedUp]
  unfold decidedSite
  split
  · exact goneOn_lookedUp _ item.boardId item
  · exact lookedUp_approvals _ item.boardId

/-- What a transition writes. Only a transition that is not refused returns, with the row that it wrote. -/
theorem after_transition (c : Channels) (key : Int) (requested : Value)
    (actor comments : Option String) (s : Site) :
    (((transition c key requested actor comments).after s).approvals = s.approvals ∧
        ∃ fault, (transition c key requested actor comments).answer s = .error fault ∧
          Refusal s key requested actor fault) ∨
      ∃ a next item w, Decision s key requested actor comments a next item w ∧
        ((transition c key requested actor comments).after s).approvals =
          (decidedSite s a (a.decided next comments actor s.office.clock) item w).approvals ∧
        ∀ d, (transition c key requested actor comments).answer s = .ok d →
          d = a.decided next comments actor s.office.clock := by
  unfold Task.answer Task.after
  rcases transition_cases c key requested actor comments s with
    ⟨fault, s', hexec, hlooked, hrefusal⟩ | ⟨a, next, item, w, hdecision, hexec⟩
  · have hsame : s'.approvals = s.approvals := by
      rcases hlooked with rfl | ⟨boardId, rfl⟩
      · rfl
      · exact lookedUp_approvals s boardId
    rw [hexec]
    exact .inl ⟨hsame, fault, rfl, hrefusal⟩
  · rw [hexec]
    refine .inr ⟨a, next, item, w, hdecision, ?_, ?_⟩
    · exact (Keeps.same_after_bind fun _ => .pure _).trans (after_decided hdecision)
    · intro d hd
      obtain ⟨_, s', -, hpure⟩ := Task.bind_eq_ok (Prod.ext hd rfl)
      cases hpure
      rfl

/-- What tolerates the writes of a transition and what it tells about the row that it approves. -/
theorem keeps_transition_of {R : Site → Site → Prop} [Tolerant R] {c : Channels} {key : Int}
    {requested : Value} {actor comments : Option String} {s : Site}
    (h : ∀ a next item w, Decision s key requested actor comments a next item w →
      next = .approved → Keeps R (c.tell item .approvalApproved actor
        (Channels.noteOf (a.decided next comments actor s.office.clock)))) :
    R s ((transition c key requested actor comments).after s) := by
  unfold Task.after
  rcases transition_cases c key requested actor comments s with
    ⟨fault, s', hexec, hlooked, -⟩ | ⟨a, next, item, w, hdecision, hexec⟩
  · rw [hexec]
    rcases hlooked with rfl | ⟨boardId, rfl⟩
    · exact Std.Refl.refl s'
    · exact Curious.lookedUp s boardId
  · rw [hexec]
    have hdecided : R s (s.decide (a.decided next comments actor s.office.clock)) :=
      Revising.decided s _
    have hlooked : R (s.decide (a.decided next comments actor s.office.clock))
        ((s.decide (a.decided next comments actor s.office.clock)).lookedUp item.boardId) :=
      Curious.lookedUp _ item.boardId
    refine IsTrans.trans _ _ _ (IsTrans.trans _ _ _ hdecided hlooked) ?_
    refine (keeps_follow c item w _ _ actor comments fun happroved => ?_).bind
      (fun _ => .pure _) _
    exact h a next item w hdecision happroved

end Approvals

end Signoff
