import Signoff.Proofs.Approval.Wording
import Signoff.Proofs.Run

/-! # Runs that differ in comments

    Two runs whose decisions differ in their comments only take the same course:

    * `twins_rowsOf`, `twins_addApproval`: where rows look the same, they are found
      and added alike.
    * `twins_of_told`: the channels may tell different texts, which changes nothing
      that is compared.
    * `twins_request`, `twins_transition`, `twins_overview`: so the calls answer
      alike, and lead to sites that look the same.
    * `Site.Reworded.run`: so do whole runs. `Site.same_course`: what that means for
      the overviews.
-/

open Signoff.Task (Keeps Reads Returns Same Twins)

namespace Signoff

variable {view : Option String → Option String} {a a' : Approval} {s s' : Site} {c : Channels}
  {actor comments comments' : Option String}

namespace Site

/-! ## Looking up -/

theorem twins_requireItem (itemId : Int) (archived : Bool) :
    Twins (Reworded view) Eq (within (Office.requireItem itemId archived))
      (within (Office.requireItem itemId archived)) := by
  have hreads := (Office.reads_requireItem itemId archived).within
  exact .reads hreads hreads fun s s' h => .of_eq (h.requireItem_eq itemId archived)

theorem twins_demand {resource resource' : Resource} {permission : Permission}
    (h : ∀ o, Access.demand o actor resource' permission = Access.demand o actor resource permission) :
    Twins (Reworded view) Eq (within (Office.demand actor resource permission))
      (within (Office.demand actor resource' permission)) := by
  refine .reads (Office.reads_demand actor _ _).within (Office.reads_demand actor _ _).within ?_
  intro s s' hsites
  rw [Task.answer_within, Task.answer_within, Office.answer_demand, Office.answer_demand, h,
    hsites.demand_eq]
  exact .of_eq rfl

theorem twins_workflowOf (boardId : Int) :
    Twins (Reworded view) Eq (workflowOf boardId) (workflowOf boardId) := by
  intro s s' h
  unfold Task.answer Task.after
  rw [exec_workflowOf, exec_workflowOf, h.alike.workflow]
  exact ⟨.of_eq rfl, h.lookedUp boardId⟩

theorem twins_evaluateItem (item : Item) :
    Twins (Reworded view) Eq (evaluateItem item) (evaluateItem item) := by
  intro s s' h
  unfold Task.answer Task.after
  rw [exec_evaluateItem, exec_evaluateItem, h.evaluationOf_eq]
  exact ⟨.of_eq rfl, h.lookedUp item.boardId⟩

theorem twins_rowsOf (itemId : Int) :
    Twins (Reworded view) (Signoff.Reworded view) (rowsOf itemId) (rowsOf itemId) := by
  intro s s' h
  unfold Task.answer Task.after
  rw [exec_rowsOf, exec_rowsOf]
  exact ⟨h.levelRows itemId, h⟩

theorem twins_progressOf (item : Item) :
    Twins (Reworded view) (Progress.Reworded view) (progressOf item) (progressOf item) := by
  refine (twins_rowsOf item.id).bind fun rows rows' hrows => ?_
  refine (twins_workflowOf item.boardId).bind fun w w' hw => .get_bind fun s s' h => ?_
  obtain ⟨notices, heard, hoffice⟩ := h.office
  subst hw
  rw [hoffice]
  exact .ofResult (hrows.progress _)

/-! ## Opening levels -/

theorem twins_addApproval (itemId : Int) (level : String) (approver : Option String) (status : Status)
    (comments : Option String) :
    Twins (Reworded view) (fun x y => y.map (Approval.seen view) = x.map (Approval.seen view))
      (addApproval itemId level approver status comments)
      (addApproval itemId level approver status comments) := by
  refine .get_bind fun s s' h => ?_
  obtain ⟨notices, heard, hoffice⟩ := h.office
  have htaken : s'.isTaken itemId level approver = s.isTaken itemId level approver := by
    unfold isTaken
    rw [(h.rowsNamed itemId level).any_eq fun _ => rfl]
  have hitem : s'.office.items.get? itemId = s.office.items.get? itemId := by rw [hoffice]
  simp only [htaken, hitem, h.clock_eq, h.nextKey_eq]
  refine .ite Iff.rfl (.pure rfl) (.set_bind (h.write ?_) (.pure rfl))
  unfold Table.add
  exact h.rows.append (by rw [h.nextKey_eq]; exact .refl _)

/-- Whatever was added looks the same. -/
theorem reworded_filterMap {xs ys : List (Option Approval)}
    (h : List.Forall₂ (fun x y => y.map (Approval.seen view) = x.map (Approval.seen view)) xs ys) :
    Signoff.Reworded view (xs.filterMap id) (ys.filterMap id) := by
  induction h with
  | nil => exact .refl _
  | @cons found found' xs ys hfirst _ ih =>
    rcases found with _ | x <;> rcases found' with _ | y
    · exact ih
    · cases hfirst
    · cases hfirst
    · have hone : Signoff.Reworded view [x] [y] := congrArg (fun a => [a]) (Option.some.inj hfirst)
      exact hone.append ih

end Site

/-- The overviews say the same. -/
structure Overview.Reworded (view : Option String → Option String) (v v' : Overview) : Prop where
  standing : v'.standing = v.standing
  progress : v.progress.Reworded view v'.progress

/-- What goes on behind a level looks the same. -/
structure Approvals.Aftermath.Reworded (view : Option String → Option String)
    (x y : Approvals.Aftermath) : Prop where
  opened : Signoff.Reworded view x.opened y.opened
  finished : y.finished = x.finished

namespace Approvals

open Site

theorem twins_openLevel (item : Item) (o : Opening) :
    Twins (Site.Reworded view) (Signoff.Reworded view) (openLevel item o) (openLevel item o) := by
  have hpassed (l : Level) : Twins (Site.Reworded view) _ _ _ :=
    twins_addApproval item.id l.name none .approved (some skippedComment)
  refine (Twins.forM _ fun l _ => (hpassed l).discard).bind fun _ _ _ => ?_
  refine (Twins.mapM _ fun approver _ => twins_addApproval item.id o.level.name approver _ _).bind ?_
  exact fun xs ys h => .pure (reworded_filterMap h)

theorem twins_openNext (item : Item) (w : Workflow) (e : Evaluation) :
    Twins (Site.Reworded view) (Signoff.Reworded view) (openNext item w e) (openNext item w e) := by
  refine .ite Iff.rfl (.pure (.refl _)) ?_
  refine (twins_rowsOf item.id).bind fun rows rows' h => ?_
  -- The same opening is found, so the same drafts are added.
  rw [h.opening_eq]
  cases w.opening e rows with
  | none => exact .pure (.refl _)
  | some o => exact twins_openLevel item o

theorem twins_approveAll (item : Item) (actor : Option String) :
    Twins (Site.Reworded view) (Signoff.Reworded view) (approveAll item actor)
      (approveAll item actor) := by
  refine (twins_rowsOf item.id).bind fun rows rows' h => ?_
  -- The same levels are without rows.
  simp only [(h.on _).isEmpty_eq]
  refine (Twins.mapM _ fun l _ => twins_addApproval item.id l.name actor _ _).bind ?_
  exact fun xs ys h => .pure (reworded_filterMap h)

theorem twins_goOn (item : Item) :
    Twins (Site.Reworded view) (Aftermath.Reworded view) (goOn item) (goOn item) := by
  refine (twins_evaluateItem item).bind fun we we' hsame => ?_
  subst hsame
  refine (twins_openNext item we.1 we.2).bind fun opened opened' h => ?_
  refine .ite (by rw [h.isEmpty_eq]) ?_ (.pure ⟨h, rfl⟩)
  exact (twins_progressOf item).bind fun p p' hp => .pure ⟨.refl _, hp.isApproved_eq⟩

/-! ## Telling -/

/-- The channels may tell different texts: what they tell changes nothing that is compared. -/
theorem twins_of_told {t t' : SiteTask Unit} (ht : Returns t) (ht' : Returns t')
    (halike : Keeps Alike t) (halike' : Keeps Alike t') (hrows : Keeps (Same approvals) t)
    (hrows' : Keeps (Same approvals) t') : Twins (Site.Reworded view) Eq t t' := by
  refine .of_returns (K := fun s u => s.Alike u ∧ u.approvals = s.approvals) ht ht' ?_ ?_ ?_
  · exact fun s => ⟨halike s, hrows s⟩
  · exact fun s => ⟨halike' s, hrows' s⟩
  · exact fun s s' u u' h hu hu' => h.of_alike hu hu'

theorem twins_announce (hc : c.listener ≠ .automations) (item : Item) (opened opened' : List Approval)
    (actor : Option String) :
    Twins (Site.Reworded view) Eq (c.announce item opened actor)
      (c.announce item opened' actor) :=
  twins_of_told (returns_announce c item opened actor) (returns_announce c item opened' actor)
    ((carries_alike hc item actor).announce _) ((carries_alike hc item actor).announce _)
    (keeps_announce c item opened actor) (keeps_announce c item opened' actor)

theorem twins_sendComplete (c : Channels) (item : Item) :
    Twins (Site.Reworded view) Eq (c.send item Subject.allComplete)
      (c.send item Subject.allComplete) := by
  have hreturns : Returns (c.send item Subject.allComplete) :=
    returns_send c item fun s m hm => s.isText_allComplete hm
  exact twins_of_told hreturns hreturns (alike_send c item _) (alike_send c item _)
    (keeps_send c item _) (keeps_send c item _)

theorem twins_tellApproved (hc : c.listener ≠ .automations) (item : Item) (d d' : Approval)
    (actor comments comments' : Option String) (completed : Bool) (aftermath aftermath' : Aftermath) :
    Twins (Site.Reworded view) Eq
      (tellApproved c item d actor comments completed aftermath)
      (tellApproved c item d' actor comments' completed aftermath') := by
  have halike (d : Approval) (comments : Option String) (aftermath : Aftermath) :
      Keeps Alike (tellApproved c item d actor comments completed aftermath) :=
    (carries_alike hc item actor).tellApproved (alike_tell hc item _ actor _) (alike_send c item _)
      comments completed aftermath
  have hrows (d : Approval) (comments : Option String) (aftermath : Aftermath) :
      Keeps (Same approvals) (tellApproved c item d actor comments completed aftermath) :=
    keeps_tellApproved c item d actor comments completed aftermath (keeps_anyTell c item _ actor _)
  exact twins_of_told (returns_tellApproved c item d actor comments completed aftermath)
    (returns_tellApproved c item d' actor comments' completed aftermath') (halike d comments aftermath)
    (halike d' comments' aftermath') (hrows d comments aftermath) (hrows d' comments' aftermath')

theorem twins_tellRejected (hc : c.listener ≠ .automations) (item : Item) (d d' : Approval)
    (actor comments comments' : Option String) :
    Twins (Site.Reworded view) Eq (tellRejected c item d actor comments)
      (tellRejected c item d' actor comments') :=
  twins_of_told (returns_tellRejected c item d actor comments)
    (returns_tellRejected c item d' actor comments')
    ((carries_alike hc item actor).tellRejected d comments)
    ((carries_alike hc item actor).tellRejected d' comments')
    (keeps_tellRejected c item d actor comments) (keeps_tellRejected c item d' actor comments')

/-! ## Calls -/

theorem twins_request (hc : c.listener ≠ .automations) (itemId : Int) (actor : Option String) :
    Twins (Site.Reworded view) (Signoff.Reworded view) (request c itemId actor)
      (request c itemId actor) := by
  refine (twins_requireItem itemId _).bind fun item item' hitem => ?_
  subst hitem
  refine (twins_demand fun _ => rfl).bind fun _ _ _ => ?_
  refine (twins_evaluateItem item).bind fun we we' hsame => ?_
  subst hsame
  refine .ite Iff.rfl ?_ ?_
  · refine (twins_approveAll item actor).bind fun created created' h => ?_
    refine .ite (by rw [h.isEmpty_eq]) ?_ (.pure h)
    exact (twins_sendComplete c item).bind fun _ _ _ => .pure h
  · refine (twins_openNext item _ _).bind fun created created' h => ?_
    exact (twins_announce hc item _ _ actor).bind fun _ _ _ => .pure h

theorem twins_requireApproval (key : Int) :
    Twins (Site.Reworded view) (Approval.Reworded view) (requireApproval key) (requireApproval key) := by
  refine (Twins.ofResult (.of_eq rfl)).bind fun _ _ _ => .get_bind fun s s' h => ?_
  have hget := h.get? key
  cases hrow : s.approvals.get? key <;> cases hrow' : s'.approvals.get? key <;> rw [hrow, hrow'] at hget
  · exact .throw _
  · cases hget
  · cases hget
  · exact .pure (Option.some.inj hget)

theorem twins_examine (key : Int) (requested : Value) (actor : Option String) :
    Twins (Site.Reworded view) (fun x y => x.1.Reworded view y.1 ∧ x.2 = y.2)
      (examine key requested actor) (examine key requested actor) := by
  refine (twins_requireApproval key).bind fun a a' ha => ?_
  -- From here on the rows may differ in their comments, which nobody looks at.
  refine (twins_demand fun o => ?_).bind fun _ _ _ => ?_
  · exact ha.congr (f := fun a => Access.demand o actor (.approval a) .decideApproval) fun _ => rfl
  have hallowed : allowedStatus a' requested = allowedStatus a requested :=
    ha.congr (f := fun a => allowedStatus a requested) fun _ => rfl
  rw [hallowed]
  refine (Twins.ofResult (.of_eq rfl)).bind fun next next' hnext => ?_
  subst hnext
  refine .ite Iff.rfl ?_ (.pure ⟨ha, rfl⟩)
  exact .get_bind fun s s' h =>
    (Twins.ofResult (.of_eq (h.checkSequence_eq ha))).bind fun _ _ _ => .pure ⟨ha, rfl⟩

theorem twins_recordDecision (ha : a.Reworded view a') (next : Status)
    (hcomments : view comments = view comments') (actor : Option String) :
    Twins (Site.Reworded view) (Approval.Reworded view) (recordDecision a next comments actor)
      (recordDecision a' next comments' actor) := by
  refine .get_bind fun s s' h => ?_
  have hd : (a.decided next comments actor s.office.clock).Reworded view
      (a'.decided next comments' actor s.office.clock) := ha.decided hcomments
  simp only [h.clock_eq]
  exact .ite (by rw [h.isClaimed_eq hd]) (.throw _) (.set_bind (h.decide hd) (.pure hd))

theorem twins_follow (hc : c.listener ≠ .automations) (item : Item) (w : Workflow) (wasSatisfied : Bool)
    {d d' : Approval} (hd : d.Reworded view d') (actor comments comments' : Option String) :
    Twins (Site.Reworded view) Eq (follow c item w wasSatisfied d actor comments)
      (follow c item w wasSatisfied d' actor comments') := by
  have hstatus : d'.status = d.status := hd.congr (f := Approval.status) fun _ => rfl
  unfold follow
  rw [hstatus]
  cases d.status with
  | approved =>
    refine .get_bind fun s s' h => ?_
    rw [h.isSatisfied_eq hd]
    -- The decision has completed the level in both runs, or in neither.
    refine .ite Iff.rfl ?_ ?_
    · refine (twins_goOn item).bind fun aftermath aftermath' _ => ?_
      exact twins_tellApproved hc item d d' actor comments comments' _ aftermath aftermath'
    · exact twins_tellApproved hc item d d' actor comments comments' _ {} {}
  | rejected => exact twins_tellRejected hc item d d' actor comments comments'
  | pending => exact .pure rfl
  | other word => exact .pure rfl

/-- Decisions that look the same lead to sites that look the same. -/
theorem twins_transition (hc : c.listener ≠ .automations) (key : Int) (requested : Value)
    (actor : Option String) (hcomments : view comments = view comments') :
    Twins (Site.Reworded view) (Approval.Reworded view) (transition c key requested actor comments)
      (transition c key requested actor comments') := by
  refine (twins_examine key requested actor).bind fun (a, next) (a', next') ⟨ha, hnext⟩ => ?_
  simp only at ha hnext
  subst hnext
  have hitemId : a'.itemId = a.itemId := ha.congr (f := Approval.itemId) fun _ => rfl
  simp only [hitemId]
  refine (twins_requireItem a.itemId true).bind fun item item' hitem => ?_
  subst hitem
  refine (twins_workflowOf item.boardId).bind fun w w' hw => ?_
  subst hw
  refine .get_bind fun s s' h => ?_
  rw [h.isSatisfied_eq ha]
  refine (twins_recordDecision ha next hcomments actor).bind fun d d' hd => ?_
  exact (twins_follow hc item w _ hd actor comments comments').bind fun _ _ _ => .pure hd

theorem twins_demandIf (actor : Option String) (item : Item) (permission : Permission) :
    Twins (Site.Reworded view) Eq (demandIf actor item permission) (demandIf actor item permission) :=
  .ite Iff.rfl (twins_demand fun _ => rfl) (.pure rfl)

theorem twins_overview (itemId : Int) (actor : Option String) :
    Twins (Site.Reworded view) (Overview.Reworded view) (overview itemId actor)
      (overview itemId actor) := by
  refine (twins_requireItem itemId true).bind fun item item' hitem => ?_
  subst hitem
  refine (twins_demandIf actor item _).bind fun _ _ _ => ?_
  refine (twins_rowsOf item.id).bind fun rows rows' hrows => ?_
  refine (twins_workflowOf item.boardId).bind fun w w' hw => ?_
  subst hw
  refine (twins_progressOf item).bind fun p p' hp => .pure ⟨?_, hp⟩
  exact funext fun l => hrows.standing_eq l

end Approvals

/-! ## Runs -/

/-- The same call twice, where no automations listen. Decisions may have other comments, as long as the
    view shows the same of them. -/
inductive Operation.Reworded (view : Option String → Option String) : Operation → Operation → Prop where
  | request {c : Channels} (hc : c.listener ≠ .automations) (itemId : Int) (actor : Option String) :
      Reworded view (.request c itemId actor) (.request c itemId actor)
  | transition {c : Channels} (hc : c.listener ≠ .automations) (key : Int) (requested : Value)
      (actor : Option String) {comments comments' : Option String}
      (h : view comments = view comments') :
      Reworded view (.transition c key requested actor comments)
        (.transition c key requested actor comments')
  | overview (itemId : Int) (actor : Option String) :
      Reworded view (.overview itemId actor) (.overview itemId actor)
  /-- Time passes in both runs. -/
  | setClock (now : Moment) : Reworded view (.office (.setClock now)) (.office (.setClock now))

/-- One call leads to sites that look the same. -/
theorem Operation.Reworded.after {op op' : Operation} (h : op.Reworded view op')
    (hsites : s.Reworded view s') : (op.after s).Reworded view (op'.after s') := by
  cases h with
  | request hc itemId actor =>
    exact ((Approvals.twins_request hc itemId actor).discard s s' hsites).2
  | transition hc key requested actor hcomments =>
    exact ((Approvals.twins_transition hc key requested actor hcomments).discard s s' hsites).2
  | overview itemId actor => exact ((Approvals.twins_overview itemId actor).discard s s' hsites).2
  | setClock now =>
    obtain ⟨notices, heard, hoffice⟩ := hsites.office
    refine ⟨⟨⟨notices, heard, ?_⟩, hsites.alike.workflow⟩, hsites.rows⟩
    show { s'.office with clock := now } = _
    rw [hoffice]
    rfl

namespace Site

variable {ops ops' : List Operation}

/-- So does a run. -/
theorem Reworded.run (h : s.Reworded view s') (hops : List.Forall₂ (Operation.Reworded view) ops ops') :
    (s.run ops).Reworded view (s'.run ops') := by
  induction hops generalizing s s' with
  | nil => exact h
  | cons hfirst _ ih => exact ih (hfirst.after h)

/-- Two runs from one state, whose decisions differ in their comments only: after every call the approvals
    are the same apart from their comments, every level stands the same, and the progress is the same
    except that it may be pending in one run and in progress in the other. It is just the same
    if a decision has the comment of levels that are passed over in both runs or in neither. -/
theorem same_course (s : Site) (hops : List.Forall₂ (Operation.Reworded Comment.hidden) ops ops')
    (n : Nat) :
    (s.run (ops'.take n)).approvals.rows.map (Approval.seen Comment.hidden) =
        (s.run (ops.take n)).approvals.rows.map (Approval.seen Comment.hidden) ∧
      (∀ itemId actor, Result.Both
        (fun v v' => v'.standing = v.standing ∧ v'.progress.isComplete = v.progress.isComplete ∧
          v'.progress.rough = v.progress.rough)
        ((Approvals.overview itemId actor).answer (s.run (ops.take n)))
        ((Approvals.overview itemId actor).answer (s.run (ops'.take n)))) ∧
      (List.Forall₂ (Operation.Reworded Comment.reserved) ops ops' → ∀ itemId actor, Result.Both
        (fun v v' => v'.progress = v.progress)
        ((Approvals.overview itemId actor).answer (s.run (ops.take n)))
        ((Approvals.overview itemId actor).answer (s.run (ops'.take n)))) := by
  have hhidden := (Reworded.refl s).run (List.forall₂_take n hops)
  refine ⟨hhidden.rows, fun itemId actor => ?_, fun hreserved itemId actor => ?_⟩
  · refine ((Approvals.twins_overview itemId actor) _ _ hhidden).1.imp fun v v' hv => ?_
    exact ⟨hv.standing, hv.progress.isComplete_eq, hv.progress.rough⟩
  · -- The runs are compared once more, by a view that shows the reserved comment.
    have hsites := (Reworded.refl s).run (List.forall₂_take n hreserved)
    refine ((Approvals.twins_overview itemId actor) _ _ hsites).1.imp fun v v' hv => ?_
    exact hv.progress.exact Comment.reveals_reserved

/-- The first approver of the small site approves with this comment. -/
def approving (comments : Option String) : List Operation :=
  [.request .noted 1 (some "A"), .transition .noted 1 (.text "approved") (some "A") comments]

theorem reworded_approving (view : Option String → Option String) {comments comments' : Option String}
    (h : view comments = view comments') :
    List.Forall₂ (Operation.Reworded view) (approving comments) (approving comments') := by
  have hc : Channels.noted.listener ≠ .automations := by decide
  exact .cons (.request hc 1 _) (.cons (.transition hc 1 _ _ h) .nil)

/-- What the overview says behind it. -/
def progressBehind (comments : Option String) : Option Progress :=
  ((Approvals.overview 1 none).answer (small.run (approving comments))).toOption.map (·.progress)

/-- Two ordinary comments make no difference. -/
theorem same_course_small :
    List.Forall₂ (Operation.Reworded Comment.hidden) (approving (some "Fine")) (approving none) ∧
      List.Forall₂ (Operation.Reworded Comment.reserved) (approving (some "Fine")) (approving none) ∧
      Result.Both (fun v v' => v'.progress = v.progress)
        ((Approvals.overview 1 none).answer (small.run (approving (some "Fine"))))
        ((Approvals.overview 1 none).answer (small.run (approving none))) ∧
      progressBehind (some "Fine") = some .inProgress ∧ progressBehind none = some .inProgress := by
  have hhidden : List.Forall₂ (Operation.Reworded Comment.hidden) (approving (some "Fine"))
      (approving none) := reworded_approving Comment.hidden rfl
  have hreserved : List.Forall₂ (Operation.Reworded Comment.reserved) (approving (some "Fine"))
      (approving none) := reworded_approving Comment.reserved (by decide)
  refine ⟨hhidden, hreserved, ?_, by decide +kernel, by decide +kernel⟩
  exact (same_course small hhidden 2).2.2 hreserved 1 none

/-- The reserved comment does: the level was approved, and still counts as passed over. -/
theorem reserved_comment_hides :
    List.Forall₂ (Operation.Reworded Comment.hidden) (approving (some "Fine"))
        (approving (some "Skipped by workflow rules")) ∧
      progressBehind (some "Fine") = some .inProgress ∧
      progressBehind (some "Skipped by workflow rules") = some .pending :=
  ⟨reworded_approving Comment.hidden rfl, by decide +kernel, by decide +kernel⟩

end Site

end Signoff
