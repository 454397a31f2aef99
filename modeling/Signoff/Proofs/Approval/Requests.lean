import Signoff.Proofs.Approval.Opening
import Signoff.Proofs.Frames

/-! # What a request writes

    A request adds rows to the item, or nothing at all:

    * `Site.nextOpened`: the next level is opened, if it is time to; its rows
      that wait for a decision are `Site.nextAsked`.
    * `Site.allApproved`: a row on every level without rows; these rows are
      `Site.allUnasked`.
    * `Approvals.Requested`: everything that was found out before rows are added.
    * `exec_request`: what a request does that nothing stands in the way of.
      `request_cases`: a request is refused, or comes to its rows.
    * `requested_or_same`, `after_request`: the approvals behind it.
-/

namespace Signoff

variable {s : Site} {item : Item} {w : Workflow} {e : Evaluation} {rows : List Approval}
  {o : Opening} {actor : Option String}

namespace Site

/-- The state in which the next level of an item is opened, if it is time to open one. -/
def nextOpened (s : Site) (itemId : Int) (w : Workflow) (e : Evaluation) : Site :=
  match s.levelRows itemId with
  | .ok rows =>
    match w.opening e rows with
    | some o => s.addDrafts itemId o.drafts
    | none => s
  | .error _ => s

/-- The rows of that level, which wait for a decision. -/
def nextAsked (s : Site) (itemId : Int) (w : Workflow) (e : Evaluation) : Result (List Approval) :=
  if e.required.isEmpty then .ok []
  else do
    match w.opening e (← s.levelRows itemId) with
    | some o =>
      pure (Draft.rowsFrom itemId s.office.clock (s.approvals.nextKey + o.passedOver.length)
        (o.approvers.map (Draft.asked o.level)))
    | none => pure []

/-- The levels of an item without rows. -/
def missingLevels (rows : List Approval) : List Level :=
  Level.all.filter fun l => (Approval.on rows l).isEmpty

/-- The state in which every level of an item has an approval. -/
def allApproved (s : Site) (itemId : Int) (actor : Option String) : Site :=
  match s.levelRows itemId with
  | .ok rows => s.addDrafts itemId ((missingLevels rows).map (Draft.unasked actor))
  | .error _ => s

/-- The rows that are added to the levels without any. -/
def allUnasked (s : Site) (itemId : Int) (actor : Option String) : Result (List Approval) := do
  let rows ← s.levelRows itemId
  pure (Draft.rowsFrom itemId s.office.clock s.approvals.nextKey
    ((missingLevels rows).map (Draft.unasked actor)))

/-- The state behind a request that is not refused. -/
def requestedSite (s : Site) (itemId : Int) (w : Workflow) (e : Evaluation)
    (actor : Option String) : Site :=
  if e.autoApproved then s.allApproved itemId actor else s.nextOpened itemId w e

/-- The rows that a request gives back. -/
def requestedRows (s : Site) (itemId : Int) (w : Workflow) (e : Evaluation)
    (actor : Option String) : Result (List Approval) :=
  if e.autoApproved then s.allUnasked itemId actor else s.nextAsked itemId w e

/-- A request writes approvals only. -/
theorem exists_requestedSite (s : Site) (itemId : Int) (w : Workflow) (e : Evaluation)
    (actor : Option String) :
    ∃ approvals, s.requestedSite itemId w e actor = { s with approvals := approvals } := by
  unfold requestedSite allApproved nextOpened
  split
  · split
    · exact ⟨_, rfl⟩
    · exact ⟨s.approvals, rfl⟩
  · split
    · split
      · exact ⟨_, rfl⟩
      · exact ⟨s.approvals, rfl⟩
    · exact ⟨s.approvals, rfl⟩

/-- Where rows are on an unknown level, a request adds none. -/
theorem requestedSite_of_error {itemId : Int} {fault : Fault}
    (h : s.requestedRows itemId w e actor = .error fault) :
    s.requestedSite itemId w e actor = s := by
  unfold requestedRows at h
  unfold requestedSite
  cases hrows : s.levelRows itemId with
  | error f =>
    -- Both kinds of request look at these rows before they add any.
    unfold allApproved nextOpened
    rw [hrows]
    split <;> rfl
  | ok rows =>
    unfold allUnasked nextAsked at h
    rw [hrows] at h
    split at h
    · cases h
    · split at h
      · cases h
      · simp only [bind, Except.bind] at h
        split at h <;> cases h

/-- Either nothing is opened, or somebody is asked. -/
theorem nextAsked_cases {itemId : Int} {opened : List Approval} (hsorted : Ascending e.required)
    (h : s.nextAsked itemId w e = .ok opened) :
    opened = [] ∧ s.nextOpened itemId w e = s ∨
      opened ≠ [] ∧ ∃ o, w.Opens e (s.approvalsOf itemId) o ∧
        opened = Draft.rowsFrom itemId s.office.clock (s.approvals.nextKey + o.passedOver.length)
          (o.approvers.map (Draft.asked o.level)) ∧
        s.nextOpened itemId w e = s.addDrafts itemId o.drafts := by
  unfold nextAsked at h
  unfold nextOpened
  by_cases hempty : e.required.isEmpty
  · rw [if_pos hempty] at h
    cases h
    refine .inl ⟨rfl, ?_⟩
    split
    · rw [Workflow.opening_eq_none (List.isEmpty_iff.mp hempty)]
    · rfl
  · rw [if_neg hempty] at h
    obtain ⟨rows, hrows, h⟩ := Result.bind_eq_ok h
    obtain ⟨rfl, -⟩ := levelRows_eq_ok hrows
    rw [hrows]
    cases ho : w.opening e (s.approvalsOf itemId) with
    | none =>
      rw [ho] at h
      cases h
      exact .inl ⟨rfl, by simp only [ho]⟩
    | some o =>
      rw [ho] at h
      cases h
      have hopens := Workflow.opens_of_opening hsorted ho
      refine .inr ⟨?_, o, hopens, rfl, by simp only [ho]⟩
      -- Every opening asks somebody.
      cases happrovers : o.approvers with
      | nil =>
        rw [hopens.approvers] at happrovers
        exact absurd happrovers (Workflow.approversOn_ne_nil w e o.level)
      | cons => simp [Draft.rowsFrom]

/-- An approval of everything gives back a row for each level without rows. -/
theorem allUnasked_cases {itemId : Int} {created : List Approval}
    (h : s.allUnasked itemId actor = .ok created) :
    (created = [] ↔ missingLevels (s.approvalsOf itemId) = []) ∧
      s.allApproved itemId actor =
        s.addDrafts itemId ((missingLevels (s.approvalsOf itemId)).map (Draft.unasked actor)) := by
  obtain ⟨rows, hrows, h⟩ := Result.bind_eq_ok h
  obtain ⟨rfl, -⟩ := levelRows_eq_ok hrows
  constructor
  · cases h
    cases missingLevels (s.approvalsOf itemId) <;> simp [Draft.rowsFrom]
  · unfold allApproved
    rw [hrows]

/-- A request that gives back no rows has added none. -/
theorem requestedSite_of_nil {itemId : Int} (hsorted : Ascending e.required)
    (h : s.requestedRows itemId w e actor = .ok []) : s.requestedSite itemId w e actor = s := by
  unfold requestedRows at h
  unfold requestedSite
  split at h
  · next hauto =>
    obtain ⟨hmissing, hall⟩ := allUnasked_cases h
    rw [if_pos hauto, hall, hmissing.mp rfl]
    exact addDrafts_nil s itemId
  · next hauto =>
    rw [if_neg hauto]
    rcases nextAsked_cases hsorted h with ⟨-, hsame⟩ | ⟨hne, -⟩
    · exact hsame
    · exact absurd rfl hne

/-! ## Opening a level -/

theorem rowsNamed_name (s : Site) (itemId : Int) (l : Level) :
    s.rowsNamed itemId l.name = Approval.on (s.approvalsOf itemId) l := rfl

/-- Nobody is in the way on a level without rows. -/
theorem isTaken_eq_false {itemId : Int} {l : Level}
    (h : Approval.on (s.approvalsOf itemId) l = []) (approver : Option String) :
    s.isTaken itemId l.name approver = false := by
  rw [isTaken, rowsNamed_name, h]
  simp

/-- The rows of an opening are not refused. -/
theorem welcomes_opening (hitem : (s.office.items.get? item.id).isSome)
    (ho : w.Opens e (s.approvalsOf item.id) o) : s.Welcomes item.id o.drafts where
  isThere := hitem
  isFree := by
    intro d hd
    rcases List.mem_append.mp hd with hd | hd
    · obtain ⟨k, hk, rfl⟩ := List.mem_map.mp hd
      exact isTaken_eq_false ((ho.mem_passedOver k).mp hk).2.1 none
    · obtain ⟨approver, -, rfl⟩ := List.mem_map.mp hd
      exact isTaken_eq_false ho.isEmpty approver
  apart := by
    refine List.pairwise_append.mpr ⟨?_, ?_, ?_⟩
    · exact List.pairwise_map.mpr (List.pairwise_of_forall fun _ _ _ _ => rfl)
    · have hnodup : o.approvers.Nodup := by
        rw [ho.approvers]
        exact Workflow.approversOn_nodup w e o.level
      exact List.pairwise_map.mpr (hnodup.imp fun hne _ hsame => absurd hsame hne)
    · intro d hd _ _ _ _
      obtain ⟨k, -, rfl⟩ := List.mem_map.mp hd
      rfl

/-- Nor are the rows on levels without rows. -/
theorem welcomes_missing (hitem : (s.office.items.get? item.id).isSome)
    (hrows : rows = s.approvalsOf item.id) :
    s.Welcomes item.id ((missingLevels rows).map (Draft.unasked actor)) where
  isThere := hitem
  isFree := by
    intro d hd
    obtain ⟨l, hl, rfl⟩ := List.mem_map.mp hd
    have hempty : Approval.on rows l = [] := List.isEmpty_iff.mp (List.mem_filter.mp hl).2
    exact isTaken_eq_false (hrows ▸ hempty) actor
  apart := by
    refine List.pairwise_map.mpr ((Level.all_nodup.filter _).imp ?_)
    intro k l hne hname
    exact absurd (Level.name_injective hname) hne

end Site

namespace Approvals

open Site

/-- An opening that is not refused adds its rows and gives back those that wait for a decision. -/
theorem exec_openLevel (h : s.Welcomes item.id o.drafts) :
    (openLevel item o).exec s =
      (.ok (Draft.rowsFrom item.id s.office.clock (s.approvals.nextKey + o.passedOver.length)
        (o.approvers.map (Draft.asked o.level))), s.addDrafts item.id o.drafts) := by
  have hpassed := h.left.exec_forM
  rw [List.forM_eq_forM, List.forM_map] at hpassed
  have hkey : (s.addDrafts item.id (o.passedOver.map Draft.passedOver)).approvals.nextKey =
      s.approvals.nextKey + o.passedOver.length := by
    rw [nextKey_addDrafts, List.length_map]
  have hasked := h.right.exec_mapM
  rw [List.mapM_map, hkey, addDrafts_append, addDrafts_office] at hasked
  unfold openLevel
  refine (Task.exec_bind_ok hpassed).trans ((Task.exec_bind_ok hasked).trans ?_)
  rw [Task.exec_pure, List.filterMap_map]
  simp [Opening.drafts]

/-- Opening the next level fails only if a row is on an unknown level. -/
theorem exec_openNext (hsorted : Ascending e.required)
    (hitem : (s.office.items.get? item.id).isSome) :
    (openNext item w e).exec s = (s.nextAsked item.id w e, s.nextOpened item.id w e) := by
  unfold openNext nextAsked nextOpened
  by_cases hempty : e.required.isEmpty
  · -- The rows are not even looked at, and nothing could be opened.
    rw [if_pos hempty, if_pos hempty]
    split
    · rw [Workflow.opening_eq_none (List.isEmpty_iff.mp hempty)]
      rfl
    · rfl
  · rw [if_neg hempty, if_neg hempty, Task.exec_bind, exec_rowsOf]
    cases hrows : s.levelRows item.id with
    | error fault => rfl
    | ok rows =>
      simp only [bind, Except.bind, pure, Except.pure]
      cases ho : w.opening e rows with
      | none => rfl
      | some o =>
        obtain ⟨rfl, -⟩ := levelRows_eq_ok hrows
        have hopens := Workflow.opens_of_opening hsorted ho
        exact exec_openLevel (welcomes_opening hitem hopens)

theorem after_openNext (hsorted : Ascending e.required)
    (hitem : (s.office.items.get? item.id).isSome) :
    (openNext item w e).after s = s.nextOpened item.id w e := by
  rw [Task.after, exec_openNext hsorted hitem]

/-! ## Approving everything -/

theorem exec_approveAll (hitem : (s.office.items.get? item.id).isSome) :
    (approveAll item actor).exec s = (s.allUnasked item.id actor, s.allApproved item.id actor) := by
  unfold approveAll allApproved allUnasked
  rw [Task.exec_bind, exec_rowsOf]
  cases hrows : s.levelRows item.id with
  | error fault => rfl
  | ok rows =>
    have hfree : s.Welcomes item.id ((missingLevels rows).map (Draft.unasked actor)) :=
      welcomes_missing hitem (levelRows_eq_ok hrows).1
    have hadd := hfree.exec_mapM
    rw [List.mapM_map] at hadd
    refine (Task.exec_bind_ok hadd).trans ?_
    rw [Task.exec_pure, List.filterMap_map]
    simp [bind, Except.bind]
    rfl

/-! ## Rows and the workflows that are remembered -/

theorem addDrafts_lookedUp (s : Site) (boardId itemId : Int) (ds : List Draft) :
    (s.lookedUp boardId).addDrafts itemId ds = (s.addDrafts itemId ds).lookedUp boardId := by
  unfold lookedUp
  rw [addDrafts_known, addDrafts_office]
  split <;> rfl

theorem levelRows_lookedUp (s : Site) (boardId itemId : Int) :
    (s.lookedUp boardId).levelRows itemId = s.levelRows itemId := by
  unfold levelRows approvalsOf
  rw [lookedUp_approvals]

theorem answer_progressOf_lookedUp (s : Site) (boardId : Int) (item : Item) :
    (progressOf item).answer (s.lookedUp boardId) = (progressOf item).answer s := by
  rw [answer_progressOf, answer_progressOf, levelRows_lookedUp, workflow?_lookedUp, lookedUp_office]

theorem nextOpened_lookedUp (s : Site) (boardId itemId : Int) (w : Workflow) (e : Evaluation) :
    (s.lookedUp boardId).nextOpened itemId w e = (s.nextOpened itemId w e).lookedUp boardId := by
  unfold nextOpened
  rw [levelRows_lookedUp]
  cases s.levelRows itemId with
  | error fault => rfl
  | ok rows =>
    simp only
    cases w.opening e rows with
    | none => rfl
    | some o => exact addDrafts_lookedUp s boardId itemId o.drafts

theorem requestedSite_lookedUp (s : Site) (boardId itemId : Int) (w : Workflow) (e : Evaluation)
    (actor : Option String) :
    (s.lookedUp boardId).requestedSite itemId w e actor =
      (s.requestedSite itemId w e actor).lookedUp boardId := by
  unfold requestedSite
  split
  · unfold allApproved
    rw [levelRows_lookedUp]
    cases s.levelRows itemId with
    | error fault => rfl
    | ok rows => exact addDrafts_lookedUp s boardId itemId _
  · exact nextOpened_lookedUp s boardId itemId w e

theorem nextAsked_lookedUp (s : Site) (boardId itemId : Int) (w : Workflow) (e : Evaluation) :
    (s.lookedUp boardId).nextAsked itemId w e = s.nextAsked itemId w e := by
  unfold nextAsked
  rw [levelRows_lookedUp, lookedUp_office, lookedUp_approvals]

theorem requestedRows_lookedUp (s : Site) (boardId itemId : Int) (w : Workflow) (e : Evaluation)
    (actor : Option String) :
    (s.lookedUp boardId).requestedRows itemId w e actor = s.requestedRows itemId w e actor := by
  unfold requestedRows allUnasked
  rw [levelRows_lookedUp, nextAsked_lookedUp, lookedUp_office, lookedUp_approvals]

/-! ## Requests -/

/-- Everything that a request rests on. -/
structure Requested (s : Site) (itemId : Int) (actor : Option String) (item : Item)
    (w : Workflow) (e : Evaluation) (created : List Approval) : Prop where
  found : (Office.requireItem itemId false).answer s.office = .ok item
  permitted : Access.demand s.office actor (.item item) .readItems = .ok ()
  evaluation : s.evaluationOf item = .ok (w, e)
  rows : s.requestedRows itemId w e actor = .ok created

theorem Requested.itemFound {itemId : Int} {created : List Approval}
    (h : Requested s itemId actor item w e created) : s.office.items.get? itemId = some item :=
  (Office.get?_of_requireItem h.found).1

theorem Requested.id_eq {itemId : Int} {created : List Approval}
    (h : Requested s itemId actor item w e created) : item.id = itemId :=
  Office.id_of_requireItem h.found

/-- Tells about the rows of a request. -/
def tellRequested (c : Channels) (item : Item) (e : Evaluation) (created : List Approval)
    (actor : Option String) : SiteTask Unit :=
  if e.autoApproved then
    if !created.isEmpty then c.send item Subject.allComplete else pure ()
  else c.announce item (created.filter fun a => a.status == .pending) actor

/-- Both branches of a request add their rows first. -/
theorem exec_requestedRows (actor : Option String)
    (hitem : (s.office.items.get? item.id).isSome) (heval : s.evaluationOf item = .ok (w, e)) :
    (if e.autoApproved then approveAll item actor else openNext item w e).exec
        (s.lookedUp item.boardId) =
      (s.requestedRows item.id w e actor,
        (s.requestedSite item.id w e actor).lookedUp item.boardId) := by
  have hthere : ((s.lookedUp item.boardId).office.items.get? item.id).isSome := by
    rwa [lookedUp_office]
  have hsorted : Ascending e.required :=
    Workflow.ascending_required (workflow?_of_evaluationOf heval).2
  rw [← requestedSite_lookedUp, ← requestedRows_lookedUp s item.boardId]
  unfold requestedSite requestedRows
  split
  · exact exec_approveAll hthere
  · exact exec_openNext hsorted hthere

/-- A request that nothing stands in the way of adds its rows and tells about them. -/
theorem exec_request (c : Channels) {itemId : Int} {created : List Approval}
    (h : Requested s itemId actor item w e created) :
    (request c itemId actor).exec s =
      (do tellRequested c item e created actor; pure created).exec
        ((s.requestedSite itemId w e actor).lookedUp item.boardId) := by
  obtain rfl : item.id = itemId := h.id_eq
  have hitem : (s.office.items.get? item.id).isSome := by
    rw [h.itemFound]
    rfl
  have hwrites := exec_requestedRows actor hitem h.evaluation
  rw [h.rows] at hwrites
  unfold request tellRequested
  rw [(Office.reads_requireItem item.id false).within.exec_bind, Task.answer_within, h.found]
  simp only
  rw [(Office.reads_demand actor (.item item) .readItems).within.exec_bind, Task.answer_within,
    Office.answer_demand, h.permitted]
  simp only
  rw [Task.exec_bind, exec_evaluateItem, h.evaluation]
  simp only
  split
  · next hauto =>
    rw [if_pos hauto] at hwrites
    rw [Task.exec_bind_ok hwrites]
    split <;> rfl
  · next hauto =>
    rw [if_neg hauto] at hwrites
    rw [Task.exec_bind_ok hwrites]

/-- A request fails before it writes anything, or adds its rows and tells about them. -/
theorem request_cases (c : Channels) (itemId : Int) (actor : Option String) (s : Site) :
    (∃ fault s', (request c itemId actor).exec s = (.error fault, s') ∧
        (s' = s ∨ ∃ boardId, s' = s.lookedUp boardId)) ∨
      ∃ item w e created, Requested s itemId actor item w e created ∧
        (request c itemId actor).exec s =
          (do tellRequested c item e created actor; pure created).exec
            ((s.requestedSite itemId w e actor).lookedUp item.boardId) := by
  by_cases hrequested : ∃ item w e created, Requested s itemId actor item w e created
  · obtain ⟨item, w, e, created, h⟩ := hrequested
    exact .inr ⟨item, w, e, created, h, exec_request c h⟩
  -- Something stands in the way, and all of it comes in front of the writes.
  refine .inl ?_
  unfold request
  rw [(Office.reads_requireItem itemId false).within.exec_bind, Task.answer_within]
  cases hfound : (Office.requireItem itemId).answer s.office with
  | error fault => exact ⟨fault, s, rfl, .inl rfl⟩
  | ok item =>
    simp only
    rw [(Office.reads_demand actor (.item item) .readItems).within.exec_bind, Task.answer_within,
      Office.answer_demand]
    cases hpermitted : Access.demand s.office actor (.item item) .readItems with
    | error fault => exact ⟨fault, s, rfl, .inl rfl⟩
    | ok _ =>
      simp only
      rw [Task.exec_bind, exec_evaluateItem]
      cases heval : s.evaluationOf item with
      | error fault => exact ⟨fault, _, rfl, .inr ⟨item.boardId, rfl⟩⟩
      | ok we =>
        obtain ⟨w, e⟩ := we
        obtain rfl : item.id = itemId := Office.id_of_requireItem hfound
        have hitem : (s.office.items.get? item.id).isSome := by
          rw [(Office.get?_of_requireItem hfound).1]
          rfl
        have hwrites := exec_requestedRows actor hitem heval
        cases hrows : s.requestedRows item.id w e actor with
        | ok created =>
          exact absurd ⟨item, w, e, created, hfound, hpermitted, heval, hrows⟩ hrequested
        | error fault =>
          refine ⟨fault, s.lookedUp item.boardId, ?_, .inr ⟨item.boardId, rfl⟩⟩
          rw [hrows, requestedSite_of_error hrows] at hwrites
          simp only
          split
          · next hauto =>
            rw [if_pos hauto] at hwrites
            rw [Task.exec_bind, hwrites]
          · next hauto =>
            rw [if_neg hauto] at hwrites
            rw [Task.exec_bind, hwrites]

/-- A request that returns has only told about its rows since they were added. -/
theorem after_of_request {c : Channels} {itemId : Int} {created : List Approval}
    (h : (request c itemId actor).answer s = .ok created) :
    ∃ item w e, Requested s itemId actor item w e created ∧
      (request c itemId actor).after s = (tellRequested c item e created actor).after
        ((s.requestedSite itemId w e actor).lookedUp item.boardId) := by
  rcases request_cases c itemId actor s with
    ⟨fault, s', hexec, -⟩ | ⟨item, w, e, created', hrequested, hexec⟩
  · rw [Task.answer, hexec] at h
    cases h
  · obtain ⟨u, s₁, htold, hpure⟩ := Task.bind_eq_ok (hexec.symm.trans (Prod.ext h rfl))
    cases hpure
    refine ⟨item, w, e, hrequested, ?_⟩
    rw [Task.after, Task.after, htold]

theorem keeps_tellRequested {R : Site → Site → Prop} [Lenient R] (c : Channels) (item : Item)
    (e : Evaluation) (created : List Approval) (actor : Option String) :
    Task.Keeps R (tellRequested c item e created actor) :=
  .ite (.ite (keeps_send c item _) (.pure _)) (keeps_announce c item _ actor)

/-- The channels come last, and they write no approvals. -/
theorem Requested.approvals_after {itemId : Int} {created : List Approval}
    (h : Requested s itemId actor item w e created) (c : Channels) :
    ((request c itemId actor).after s).approvals =
      (s.requestedSite itemId w e actor).approvals := by
  have htell : Task.Keeps (Task.Same approvals) (tellRequested c item e created actor) :=
    keeps_tellRequested c item e created actor
  rw [Task.after, exec_request c h]
  refine (Task.Keeps.same_after_bind fun _ => .pure _).trans ?_
  exact (htell _).trans (lookedUp_approvals _ item.boardId)

/-- The approvals behind a request. -/
theorem requested_or_same (c : Channels) (itemId : Int) (actor : Option String) (s : Site) :
    ((request c itemId actor).after s).approvals = s.approvals ∨
      ∃ item w e created, Requested s itemId actor item w e created ∧
        ((request c itemId actor).after s).approvals =
          (s.requestedSite itemId w e actor).approvals := by
  rcases request_cases c itemId actor s with
    ⟨fault, s', hexec, hlooked⟩ | ⟨item, w, e, created, hrequested, -⟩
  · rw [Task.after, hexec]
    rcases hlooked with rfl | ⟨boardId, rfl⟩
    · exact .inl rfl
    · exact .inl (lookedUp_approvals s boardId)
  · exact .inr ⟨item, w, e, created, hrequested, hrequested.approvals_after c⟩

/-- What a request writes. It fails before it writes anything, or goes by what the workflow says about
    the item. -/
theorem after_request (c : Channels) (itemId : Int) (actor : Option String) (s : Site) :
    ((request c itemId actor).after s).approvals = s.approvals ∨
      ∃ item w e, s.office.items.get? itemId = some item ∧ s.evaluationOf item = .ok (w, e) ∧
        ((request c itemId actor).after s).approvals =
          (if e.autoApproved then s.allApproved itemId actor
            else s.nextOpened itemId w e).approvals := by
  rcases requested_or_same c itemId actor s with hsame | ⟨item, w, e, _, hrequested, hsame⟩
  · exact .inl hsame
  · exact .inr ⟨item, w, e, hrequested.itemFound, hrequested.evaluation, hsame⟩

end Approvals

end Signoff
