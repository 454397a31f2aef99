import Signoff.Proofs.Approval.Atomic
import Signoff.Proofs.Approval.Standing

/-! # Requests that are repeated

    A request goes by the rows of the item, and by what the workflow says about
    it. Behind a request that has returned, the same workflow has nothing more to
    open or to approve, whatever rows there were in front:

    * `Opens.opening_opened`, `missingLevels_approved`: behind an opening nothing
      is opened, and behind an approval of everything nothing is missing.
    * `requestedRows_again`: so there are no more rows to add.
    * `Office.IsMember`: who may request.
    * `Site.Unmoved`: what the request went by is still there.
    * `repeated_request`: then the next request does nothing. Unless the item has
      been archived, it returns.
    * `repeated_request_of_archived`: why the exception is needed.
-/

namespace Signoff

variable {s s' : Site} {item item' : Item} {itemId key : Int} {now : Moment} {w : Workflow}
  {e : Evaluation} {rows created : List Approval} {o : Opening} {actor actor' : Option String}
  {c c' : Channels} {ops : List Operation}

/-! ## Nothing left to add -/

/-- The opened level waits for its approvers, so no other level is opened behind it. -/
theorem Workflow.Opens.opening_opened (hw : w.Sound) (hsorted : Ascending e.required)
    (ho : w.Opens e rows o) :
    w.opening e (rows ++ Draft.rowsFrom itemId now key o.drafts) = none := by
  by_contra hne
  obtain ⟨o', ho'⟩ := Option.ne_none_iff_exists'.mp hne
  have hopens := Workflow.opens_of_opening hsorted ho'
  have hempty := hopens.isEmpty
  rcases Nat.lt_trichotomy o'.level.index o.level.index with hlt | heq | hgt
  · -- A required level in front had rows already.
    have hrows := (ho.front o'.level hopens.isRequired hlt).1
    rw [on_append] at hempty
    exact hrows (List.append_eq_nil_iff.mp hempty).1
  · rw [Level.index_injective heq] at hempty
    exact ho.opened_ne_nil itemId now key hempty
  · -- A level behind would have to wait for the one that was opened.
    have hsatisfied := (hopens.front o.level ho.isRequired hgt).2
    rw [ho.unsatisfied_opened itemId now key hw] at hsatisfied
    cases hsatisfied

namespace Site

/-- When everything is approved, no level is without rows. -/
theorem missingLevels_approved (rows : List Approval) :
    missingLevels (rows ++ Draft.rowsFrom itemId now key
      ((missingLevels rows).map (Draft.unasked actor))) = [] := by
  unfold missingLevels
  rw [List.filter_eq_nil_iff]
  intro l _ hempty
  exact on_approved_ne_nil rows l (List.isEmpty_iff.mp hempty)

theorem nextAsked_eq_nil (hnamed : ∀ a ∈ s.approvalsOf itemId, ∃ l : Level, a.level = l.name)
    (hnone : w.opening e (s.approvalsOf itemId) = none) : s.nextAsked itemId w e = .ok [] := by
  unfold nextAsked
  rw [levelRows_of_named hnamed]
  split
  · rfl
  · simp only [bind, Except.bind, hnone]
    rfl

theorem allUnasked_eq_nil (hnamed : ∀ a ∈ s.approvalsOf itemId, ∃ l : Level, a.level = l.name)
    (hmissing : missingLevels (s.approvalsOf itemId) = []) :
    s.allUnasked itemId actor = .ok [] := by
  unfold allUnasked
  rw [levelRows_of_named hnamed]
  change Except.ok (Draft.rowsFrom itemId _ _ ((missingLevels (s.approvalsOf itemId)).map _)) = _
  rw [hmissing]
  rfl

/-- Behind the rows of a request the same workflow adds no others. -/
theorem requestedRows_again (hw : w.Sound) (hsorted : Ascending e.required)
    (h : s.requestedRows itemId w e actor = .ok created)
    (hsame : s'.approvalsOf itemId = (s.requestedSite itemId w e actor).approvalsOf itemId) :
    s'.requestedRows itemId w e actor' = .ok [] := by
  unfold requestedRows at h ⊢
  unfold requestedSite at hsame
  by_cases hauto : e.autoApproved = true
  · rw [if_pos hauto] at h hsame ⊢
    obtain ⟨rows, hrows, -⟩ := Result.bind_eq_ok h
    obtain ⟨rfl, hnamed⟩ := levelRows_eq_ok hrows
    rw [(allUnasked_cases h).2, approvalsOf_addDrafts] at hsame
    apply allUnasked_eq_nil
    · rw [hsame]
      intro a ha
      rcases List.mem_append.mp ha with ha | ha
      · exact hnamed a ha
      · refine Draft.named_rowsFrom (fun d hd => ?_) a ha
        obtain ⟨l, -, rfl⟩ := List.mem_map.mp hd
        exact ⟨l, rfl⟩
    · rw [hsame]
      exact missingLevels_approved (s.approvalsOf itemId)
  · rw [if_neg hauto] at h hsame ⊢
    by_cases hempty : e.required.isEmpty = true
    · -- The rows are not even looked at.
      unfold nextAsked
      rw [if_pos hempty]
    · have hlooked := h
      unfold nextAsked at hlooked
      rw [if_neg hempty] at hlooked
      obtain ⟨rows, hrows, -⟩ := Result.bind_eq_ok hlooked
      obtain ⟨rfl, hnamed⟩ := levelRows_eq_ok hrows
      unfold nextOpened at hsame
      rw [hrows] at hsame
      cases ho : w.opening e (s.approvalsOf itemId) with
      | none =>
        simp only [ho] at hsame
        apply nextAsked_eq_nil
        · rwa [hsame]
        · rwa [hsame]
      | some o =>
        simp only [ho, approvalsOf_addDrafts] at hsame
        have hopens := Workflow.opens_of_opening hsorted ho
        apply nextAsked_eq_nil
        · rw [hsame]
          intro a ha
          rcases List.mem_append.mp ha with ha | ha
          · exact hnamed a ha
          · exact Draft.named_rowsFrom o.named_drafts a ha
        · rw [hsame]
          exact hopens.opening_opened hw hsorted

end Site

/-! ## Who may request -/

/-- The actor has a role in the workspace of the item. -/
def Office.IsMember (o : Office) (item : Item) (actor : Option String) : Prop :=
  ∃ workspace, o.workspaceOf? item.boardId = some workspace ∧ (o.role? workspace actor).isSome = true

/-- Members may read their items. -/
theorem Office.IsMember.permitted {o : Office} (h : o.IsMember item actor) :
    Access.demand o actor (.item item) .readItems = .ok () := by
  obtain ⟨workspace, hworkspace, hrole⟩ := h
  cases actor with
  | none => cases hrole
  | some user =>
    have hname : user.isEmpty = false := by
      cases hempty : user.isEmpty with
      | false => rfl
      | true =>
        unfold Office.role? at hrole
        simp only [hempty, ↓reduceIte] at hrole
        cases hrole
    have hresource : Access.workspaceOf? o (.item item) = some workspace := hworkspace
    have hallows : Access.allows o (some user) (.item item) .readItems = .ok true := by
      unfold Access.allows
      rw [hresource]
      simp only [hname, Bool.false_eq_true, ↓reduceIte, hrole]
      rfl
    unfold Access.demand
    rw [hallows]
    rfl

/-! ## The next request -/

namespace Site

open Approvals

/-- The item is as a request has found it in `s`, and its approvals are as the request has left them in
    `s'`: the next request finds in `s''` what this one went by. -/
structure Unmoved (s s' s'' : Site) (item item' : Item) : Prop where
  approvals : s''.approvalsOf item.id = s'.approvalsOf item.id
  found : s''.office.items.get? item.id = some item'
  workflow : s''.workflow? item'.boardId = s.workflow? item.boardId
  snapshot : s''.office.snapshotOf item' = s.office.snapshotOf item

theorem Unmoved.evaluationOf {s'' : Site} (h : Unmoved s s' s'' item item') :
    s''.evaluationOf item' = s.evaluationOf item := by
  unfold Site.evaluationOf
  rw [h.workflow, h.snapshot]

/-- Whoever asks again for an item that is not archived is not refused, and there is nothing to add. -/
theorem requested_again {s'' : Site} (hinformed : s.Informed)
    (h : Requested s itemId actor item w e created)
    (hunmoved : Unmoved s ((request c itemId actor).after s) s'' item item')
    (hmember : s''.office.IsMember item' actor') (hlive : item'.isDeleted = false) :
    Requested s'' itemId actor' item' w e [] := by
  obtain rfl : item.id = itemId := h.id_eq
  obtain ⟨hw, he⟩ := workflow?_of_evaluationOf h.evaluation
  have hkey : checkKey item.id = .ok () := Office.checkKey_of_requireItem h.found
  have hrows : s''.approvalsOf item.id = (s.requestedSite item.id w e actor).approvalsOf item.id :=
    hunmoved.approvals.trans (approvalsOf_congr (h.approvals_after c) item.id)
  exact
    { found := by
        rw [Office.answer_requireItem_of_get? hkey hunmoved.found, hlive]
        rfl
      permitted := hmember.permitted
      evaluation := hunmoved.evaluationOf.trans h.evaluation
      rows := requestedRows_again (hinformed.sound hw) (Workflow.ascending_required he) h.rows hrows }

/-- A request without new rows tells nobody. -/
theorem exec_tellRequested_nil (c : Channels) (item : Item) (e : Evaluation)
    (actor : Option String) (s : Site) :
    (tellRequested c item e [] actor).exec s = (.ok (), s) := by
  unfold tellRequested
  split
  · rfl
  · rfl

/-- A request that returns is not worth repeating. Behind every run, as long as the approvals of the item
    stay as the request has left them, and its snapshot and its workflow are those that the request has
    gone by, the next request of any member changes no approval, tells nobody and notifies nobody. It
    gives back no rows; only if the item has been archived it is refused instead. -/
theorem repeated_request {s'' : Site} (hsound : s.Sound)
    (hfirst : (request c itemId actor).answer (s.run ops) = .ok created)
    (hitem : (s.run ops).office.items.get? itemId = some item)
    (hunmoved : Unmoved (s.run ops) ((request c itemId actor).after (s.run ops)) s'' item item')
    (hmember : s''.office.IsMember item' actor') :
    (request c' itemId actor').answer s'' =
        (if item'.isDeleted then .error (.notFound "Item" (.int itemId)) else .ok []) ∧
      s''.Untouched ((request c' itemId actor').after s'') := by
  have hinformed := (hsound.run ops).informed
  obtain ⟨found, w, e, hrequested, -⟩ := after_of_request hfirst
  cases hrequested.itemFound.symm.trans hitem
  by_cases hlive : item'.isDeleted = false
  · have hagain : Requested s'' itemId actor' item' w e [] :=
      requested_again hinformed hrequested hunmoved hmember hlive
    have hsorted : Ascending e.required :=
      Workflow.ascending_required (workflow?_of_evaluationOf hagain.evaluation).2
    have hexec : (request c' itemId actor').exec s'' = (.ok [], s''.lookedUp item'.boardId) := by
      rw [exec_request c' hagain, requestedSite_of_nil hsorted hagain.rows]
      exact Task.exec_bind_ok (exec_tellRequested_nil c' item' e actor' _)
    rw [Task.answer, Task.after, hexec, hlive]
    exact ⟨rfl, Untouched.of_looked (.inr ⟨item'.boardId, rfl⟩)⟩
  · -- Archived items are not found by requests.
    have harchived : item'.isDeleted = true := by simpa using hlive
    have hid : item.id = itemId := hrequested.id_eq
    have hkey : checkKey itemId = .ok () := Office.checkKey_of_requireItem hrequested.found
    have hmissing : (Office.requireItem itemId).answer s''.office =
        .error (.notFound "Item" (.int itemId)) := by
      rw [Office.answer_requireItem_of_get? hkey (hid ▸ hunmoved.found), harchived]
      rfl
    have hexec : (request c' itemId actor').exec s'' =
        (.error (.notFound "Item" (.int itemId)), s'') := by
      unfold request
      rw [(Office.reads_requireItem itemId false).within.exec_bind, Task.answer_within, hmissing]
    rw [Task.answer, Task.after, hexec, harchived]
    exact ⟨rfl, Untouched.of_looked (.inl rfl)⟩

/-- A second request for the desk of the small site, by the other member, does nothing. -/
theorem repeated_request_small :
    let behind := (request .noted 1 (some "A")).after small
    (request .noted 1 (some "B")).answer behind = .ok [] ∧
      behind.Untouched ((request .noted 1 (some "B")).after behind) := by
  intro behind
  have hitem : small.office.items.get? 1 = some .small := rfl
  have hunmoved : Unmoved small behind behind .small .small :=
    { approvals := rfl
      found := by with_unfolding_all rfl
      workflow := by with_unfolding_all rfl
      snapshot := by with_unfolding_all rfl }
  have hmember : behind.office.IsMember .small (some "B") :=
    ⟨1, by with_unfolding_all rfl, by with_unfolding_all rfl⟩
  have hreturns : ((request .noted 1 (some "A")).answer (small.run [])).isOk = true := by
    decide +kernel
  cases hfirst : (request .noted 1 (some "A")).answer (small.run []) with
  | error fault =>
    rw [hfirst] at hreturns
    cases hreturns
  | ok created => exact repeated_request sound_small hfirst hitem hunmoved hmember

/-- The desk is archived behind a request that has returned. Its approvals, its snapshot and its workflow
    are as before, and the next request is refused. -/
theorem repeated_request_of_archived :
    let behind := (request .noted 1 (some "A")).after small
    let archived := (Operation.office (.removeItem .nobody 1 (some "A"))).after behind
    ((request .noted 1 (some "A")).answer small).isOk = true ∧
      (∃ item', Unmoved small behind archived .small item' ∧
        archived.office.IsMember item' (some "A")) ∧
      (request .noted 1 (some "A")).answer archived = .error (.notFound "Item" (.int 1)) := by
  intro behind archived
  have hreturns : ((request .noted 1 (some "A")).answer small).isOk = true := by decide +kernel
  have hunmoved : Unmoved small behind archived .small { Item.small with deletedAt := some ⟨0⟩ } :=
    { approvals := by with_unfolding_all rfl
      found := by with_unfolding_all rfl
      workflow := by with_unfolding_all rfl
      snapshot := by with_unfolding_all rfl }
  have hmember : archived.office.IsMember { Item.small with deletedAt := some ⟨0⟩ } (some "A") :=
    ⟨1, by with_unfolding_all rfl, by with_unfolding_all rfl⟩
  exact ⟨hreturns, ⟨_, hunmoved, hmember⟩, by with_unfolding_all rfl⟩

end Site

end Signoff
