import Signoff.Proofs.Approval.Standing
import Signoff.Proofs.Approval.Telling
import Signoff.Proofs.Approval.Tidy

/-! # The notice of completion

    The creator of an item is told when it is approved on all levels. Requests
    and decisions find this out in different ways; as long as nothing on the item
    is rejected, both agree with the overview of the item:

    * `Site.Approved`: the overview says that the item is approved. `Site.written`
      is the state that a call writes, before automations react to it.
    * `Workflow.Opens.not_complete`, `complete_of_missing`: an item is not
      approved behind an opening, and is behind an approval of everything.
    * `Site.Heralds`: what a call makes of the notice.
    * `heralds_request`, `heralds_transition`: what requests and decisions do.
      `heralds_of_fresh`: what every call behind a run does.
    * `notice_beside_progress`: what it does not mean.
-/

open Signoff.Task (Keeps Same)

namespace Signoff

variable {s s' : Site} {itemId key : Int} {item : Item} {w : Workflow} {e : Evaluation}
  {rows : List Approval} {o : Opening} {now : Moment} {top : Level} {a d : Approval} {next : Status}
  {requested : Value} {actor comments : Option String} {created : List Approval} {c : Channels}
  {ops : List Operation}

namespace Site

/-! ## Approved items -/

/-- The overview of the item says that it is approved. -/
def Approved (s : Site) (itemId : Int) : Prop :=
  ∃ v, (Approvals.overview itemId none).answer s = .ok v ∧ v.progress = .approved

/-- The state in front of a call with the approvals that the call has written. -/
def written (s s' : Site) : Site := { s with approvals := s'.approvals }

theorem approved_iff_progressOf (hitem : (Office.requireItem itemId true).answer s.office = .ok item) :
    s.Approved itemId ↔ (progressOf item).answer s = .ok .approved := by
  constructor
  · rintro ⟨v, hv, happroved⟩
    obtain ⟨found, hfound, hprogress⟩ := progressOf_of_overview hv
    cases hitem.symm.trans hfound
    rw [hprogress, happroved]
  · intro hprogress
    exact overview_of_progressOf hitem rfl hprogress

/-- So an item is approved just if it is complete. -/
theorem approved_iff_complete (htidy : s.Tidy)
    (hitem : (Office.requireItem itemId true).answer s.office = .ok item) :
    s.Approved itemId ↔
      ∃ w e top, s.evaluationOf item = .ok (w, e) ∧ w.Complete e (s.approvalsOf itemId) top := by
  rw [approved_iff_progressOf hitem]
  obtain rfl : item.id = itemId := Office.id_of_requireItem hitem
  refine ⟨complete_of_progressOf, ?_⟩
  rintro ⟨w, e, top, heval, hcomplete⟩
  obtain ⟨hw, he⟩ := workflow?_of_evaluationOf heval
  rw [answer_progressOf, htidy.levelRows, hw]
  exact hcomplete.progress he

/-- Where nothing that the workflow looks at is different, the same items are approved. -/
theorem Alike.approved_iff (h : s.Alike s') (happrovals : s'.approvals = s.approvals) :
    s'.Approved itemId ↔ s.Approved itemId := by
  obtain ⟨notices, heard, hoffice⟩ := h.office
  have hrequire : (Office.requireItem itemId true).answer s'.office =
      (Office.requireItem itemId true).answer s.office := by
    rw [Office.answer_requireItem, Office.answer_requireItem, hoffice]
  have hprogress (item : Item) : (progressOf item).answer s' = (progressOf item).answer s := by
    have hrows : s'.levelRows item.id = s.levelRows item.id := by
      unfold levelRows
      rw [approvalsOf_congr happrovals]
    rw [answer_progressOf, answer_progressOf, hrows, h.workflow, hoffice]
    rfl
  cases hitem : (Office.requireItem itemId true).answer s.office with
  | error fault =>
    have hnever {t : Site} (ht : (Office.requireItem itemId true).answer t.office = .error fault) :
        ¬ t.Approved itemId := by
      rintro ⟨v, hv, -⟩
      obtain ⟨found, hfound, -⟩ := progressOf_of_overview hv
      cases ht.symm.trans hfound
    exact iff_of_false (hnever (hrequire.trans hitem)) (hnever hitem)
  | ok item =>
    rw [approved_iff_progressOf hitem, approved_iff_progressOf (hrequire.trans hitem), hprogress]

/-- So an item stands behind a call as it does behind its writes. -/
theorem Alike.approved_written (h : s.Alike s') :
    s'.Approved itemId ↔ (s.written s').Approved itemId := by
  have hwritten : (s.written s').Alike s' := ⟨h.office, h.workflow⟩
  have happrovals : s'.approvals = (s.written s').approvals := rfl
  exact hwritten.approved_iff happrovals

theorem written_eq (h : s'.approvals = s.approvals) : s.written s' = s := by
  unfold written
  rw [h]

end Site

/-! ## Behind openings and approvals of everything -/

/-- Behind an opening no item is approved: the opened level is the highest one, and it waits. -/
theorem Workflow.Opens.not_complete (hw : w.Sound) (hstacked : Stacked rows)
    (ho : w.Opens e rows o) :
    ¬ w.Complete e (rows ++ Draft.rowsFrom itemId now key o.drafts) top := by
  intro hcomplete
  have hle := (hstacked.on_opened_ne_nil ho top).mp hcomplete.hasRows
  have hge := hcomplete.highest o.level (ho.opened_ne_nil itemId now key)
  have hsame : top = o.level := Level.index_injective (by omega)
  subst hsame
  have hsatisfied := hcomplete.satisfied
  rw [ho.unsatisfied_opened itemId now key hw] at hsatisfied
  cases hsatisfied

/-- Behind an approval of everything that has added rows, an item with nothing rejected is approved. -/
theorem complete_of_missing (hauto : e.autoApproved = true) (hstacked : Stacked rows)
    (hnone : ∀ a ∈ rows, a.status ≠ .rejected) (hmissing : Site.missingLevels rows ≠ []) :
    w.Complete e (rows ++ Draft.rowsFrom itemId now key
      ((Site.missingLevels rows).map (Draft.unasked actor))) .third := by
  have hnew : ∀ a ∈ Draft.rowsFrom itemId now key
      ((Site.missingLevels rows).map (Draft.unasked actor)), a.status = .approved := by
    intro a ha
    obtain ⟨d, hd, k, rfl⟩ := Draft.mem_rowsFrom ha
    obtain ⟨l, -, rfl⟩ := List.mem_map.mp hd
    rfl
  -- Some level is missing, so the last one is.
  have hlast : Approval.on rows .third = [] := by
    obtain ⟨l, hl⟩ := List.exists_mem_of_ne_nil _ hmissing
    have hempty : Approval.on rows l = [] := List.isEmpty_iff.mp (List.mem_filter.mp hl).2
    by_contra hrows
    cases l with
    | third => exact hrows hempty
    | first => exact hstacked .first .third (by decide) hrows hempty
    | second => exact hstacked .second .third (by decide) hrows hempty
  refine
    { hasRows := on_approved_ne_nil rows .third
      highest := fun l _ => by cases l <;> decide
      satisfied := w.satisfied_of_all_approved (on_approved_ne_nil rows .third) fun a ha => ?_
      noneRejected := fun l a ha => ?_
      isLast := fun h => ?_ }
  · rw [on_append, hlast, List.nil_append] at ha
    exact hnew a (List.mem_filter.mp ha).1
  · rcases List.mem_append.mp (List.mem_filter.mp ha).1 with hold | hadded
    · exact hnone a hold
    · rw [hnew a hadded]
      nofun
  · rw [hauto] at h
    cases h

/-- What is complete behind decisions was complete in front of them, if its highest level was satisfied
    and nothing was rejected. -/
theorem Workflow.Complete.of_kept {rows' : List Approval} (h : w.Complete e rows' top)
    (hkept : AllKept rows rows') (hnone : ∀ a ∈ rows, a.status ≠ .rejected)
    (hsatisfied : w.satisfied top.name (Approval.on rows top) = true) :
    w.Complete e rows top where
  hasRows := (hkept.on top).ne_nil_iff.mp h.hasRows
  highest l hl := h.highest l ((hkept.on l).ne_nil_iff.mpr hl)
  satisfied := hsatisfied
  noneRejected _ a ha := hnone a (List.mem_filter.mp ha).1
  isLast := h.isLast

/-! ## Calls and their notices -/

namespace Site

open Approvals

/-- Nothing on the item is rejected. -/
def NoneRejected (s : Site) (itemId : Int) : Prop :=
  ∀ a ∈ s.approvalsOf itemId, a.status ≠ .rejected

/-- What a call makes of the notice of completion, where `due` says that it has brought the item
    forward. -/
structure Heralds (c : Channels) (item : Item) (s s' : Site) (due : Prop) : Prop where
  /-- One notice is sent at most. -/
  once : Told item s s' ∨ s'.office.completions = s.office.completions
  /-- While nothing is rejected, it is sent just if the item has been brought forward, and is approved
      behind the writes. -/
  due : s.NoneRejected item.id →
    Tells (c.Reaches item ∧ (s.written s').Approved item.id ∧ due) item s s'
  /-- An item that was not approved in front is approved only if it has been brought forward. -/
  fresh : s.NoneRejected item.id → ¬ s.Approved item.id →
    Tells (c.Reaches item ∧ (s.written s').Approved item.id) item s s'
  /-- Where no automation reacts, the item stands behind the call as it does behind the writes. -/
  stands : c.listener ≠ .automations → (s'.Approved item.id ↔ (s.written s').Approved item.id)

/-- Behind the writes of a call an item is approved just if it is complete, as far as the workflow says
    something about it. -/
theorem approved_written_iff (htidy : s'.Tidy)
    (hitem : (Office.requireItem itemId true).answer s.office = .ok item)
    (heval : s.evaluationOf item = .ok (w, e)) :
    (s.written s').Approved itemId ↔ ∃ top, w.Complete e (s'.approvalsOf itemId) top := by
  have happrovals : (s.written s').approvals = s'.approvals := rfl
  have htidy' : (s.written s').Tidy := tidy_congr happrovals htidy
  have hitem' : (Office.requireItem itemId true).answer (s.written s').office = .ok item := hitem
  rw [approved_iff_complete htidy' hitem']
  constructor
  · rintro ⟨w', e', top, heval', hcomplete⟩
    cases heval.symm.trans heval'
    exact ⟨top, hcomplete⟩
  · rintro ⟨top, hcomplete⟩
    exact ⟨w, e, top, heval, hcomplete⟩

/-- While nothing is rejected, a request that has added rows has approved the item just if the item needs
    no approval. -/
theorem approved_of_requested (hsound : s.Sound) (htidy : s'.Tidy)
    (hstacked : Stacked (s.approvalsOf itemId)) (hnone : s.NoneRejected itemId)
    (hrequested : Requested s itemId actor item w e created)
    (happrovals : s'.approvals = (s.requestedSite itemId w e actor).approvals)
    (hcreated : created ≠ []) : (s.written s').Approved itemId ↔ e.autoApproved = true := by
  have heval := hrequested.evaluation
  obtain ⟨hw, he⟩ := workflow?_of_evaluationOf heval
  have hsorted : Ascending e.required := Workflow.ascending_required he
  have hrows := hrequested.rows
  rw [approved_written_iff htidy (Office.requireItem_archived hrequested.found) heval,
    approvalsOf_congr happrovals]
  unfold requestedSite
  unfold requestedRows at hrows
  by_cases hauto : e.autoApproved = true
  · rw [if_pos hauto] at hrows ⊢
    obtain ⟨hmissing, hall⟩ := allUnasked_cases hrows
    refine iff_of_true ⟨.third, ?_⟩ hauto
    rw [hall, approvalsOf_addDrafts]
    exact complete_of_missing hauto hstacked hnone (mt hmissing.mpr hcreated)
  · rw [if_neg hauto] at hrows ⊢
    refine iff_of_false ?_ hauto
    rintro ⟨top, hcomplete⟩
    rcases nextAsked_cases hsorted hrows with ⟨hnil, -⟩ | ⟨-, o, ho, -, hopened⟩
    · exact hcreated hnil
    · rw [hopened, approvalsOf_addDrafts] at hcomplete
      exact ho.not_complete (hsound.informed.sound hw) hstacked hcomplete

/-- A request heralds the item when it has added rows. -/
theorem heralds_request (hsound : s.Sound) (htidy : s.Tidy)
    (hstacked : Stacked (s.approvalsOf itemId))
    (h : (request c itemId actor).answer s = .ok created) :
    ∃ item, s.office.items.get? itemId = some item ∧
      Heralds c item s ((request c itemId actor).after s) (created ≠ []) := by
  obtain ⟨item, w, e, hrequested, hafter⟩ := after_of_request h
  let mid := (s.requestedSite itemId w e actor).lookedUp item.boardId
  let s' := (request c itemId actor).after s
  obtain rfl : item.id = itemId := hrequested.id_eq
  obtain ⟨approvals, hsite⟩ := exists_requestedSite s item.id w e actor
  have hoffice : mid.office = s.office := by
    simp only [mid, lookedUp_office, hsite]
  have hcreator : mid.HasCreator item := ⟨item, by rw [hoffice, hrequested.itemFound], rfl⟩
  have happrovals : s'.approvals = (s.requestedSite item.id w e actor).approvals :=
    hrequested.approvals_after c
  have htidy' : s'.Tidy := by
    have hall := htidy.after hsound.keysDistinct (.request c item.id actor)
    rwa [Operation.after, Operation.perform, Task.after_discard] at hall
  have htells : Tells (c.Reaches item ∧ e.autoApproved = true ∧ created ≠ []) item s s' := by
    refine .after_uncompleted (uncompleted_of_office hoffice) ?_
    simp only [s', hafter]
    exact tells_tellRequested c created actor hcreator
  have hdue (hnone : s.NoneRejected item.id) :
      (e.autoApproved = true ∧ created ≠ []) ↔
        ((s.written s').Approved item.id ∧ created ≠ []) :=
    and_congr_left fun hcreated => (approved_of_requested hsound htidy' hstacked hnone hrequested
      happrovals hcreated).symm
  have hsorted : Ascending e.required :=
    Workflow.ascending_required (workflow?_of_evaluationOf hrequested.evaluation).2
  refine ⟨item, hrequested.itemFound, ?_⟩
  refine
    { once := htells.told_or
      due := fun hnone => htells.congr (and_congr_right fun _ => hdue hnone)
      fresh := fun hnone hnot => htells.congr (and_congr_right fun _ => ?_)
      stands := fun hlistener => ?_ }
  · -- Had no rows been added, the item would stand as before.
    rw [hdue hnone]
    refine ⟨fun h => h.1, fun happroved => ⟨happroved, ?_⟩⟩
    rintro rfl
    rw [requestedSite_of_nil hsorted hrequested.rows] at happrovals
    rw [written_eq happrovals] at happroved
    exact hnot happroved
  · have hwritten : s.Alike (s.requestedSite item.id w e actor) := by
      rw [hsite]
      exact Alike.of_approvals s approvals
    have hmid : (s.requestedSite item.id w e actor).Alike mid := Curious.lookedUp _ item.boardId
    have htold : mid.Alike s' := by
      simp only [s', hafter]
      exact alike_tellRequested hlistener item e created actor mid
    exact (IsTrans.trans _ _ _ (IsTrans.trans _ _ _ hwritten hmid) htold).approved_written

/-- The decision satisfies its level for the first time. -/
def Completes (w : Workflow) (s : Site) (d : Approval) : Prop :=
  d.status = .approved ∧ isSatisfied w s d = false ∧ isSatisfied w (s.decide d) d = true

/-- Behind a decision that satisfies its level for the first time, the flow is found to be at its end
    just if the item is approved. -/
theorem finishes_iff_approved (hsound : s.Sound) (htidy : (s.decide d).Tidy) (htidy' : s'.Tidy)
    (hitem : (Office.requireItem itemId true).answer s.office = .ok item)
    (hworkflow : s.workflow? item.boardId = .ok w)
    (hstacked : Stacked ((s.decide d).approvalsOf itemId))
    (happrovals : s'.approvals = ((s.decide d).goneOn item).approvals) :
    Finishes ((s.decide d).lookedUp item.boardId) item ↔ (s.written s').Approved itemId := by
  obtain rfl : item.id = itemId := Office.id_of_requireItem hitem
  let mid := (s.decide d).lookedUp item.boardId
  have hsaid : mid.evaluationOf item = s.evaluationOf item := evaluationOf_lookedUp _ _ _
  have hthere : (mid.office.items.get? item.id).isSome := by
    simp only [mid, lookedUp_office, decide_office, (Office.get?_of_requireItem hitem).1]
    rfl
  cases heval : s.evaluationOf item with
  | error fault =>
    -- Nothing can be found out about the item, neither here nor there.
    have hsame : (s.written s').approvals = s'.approvals := rfl
    have hitem' : (Office.requireItem item.id true).answer (s.written s').office = .ok item := hitem
    refine iff_of_false (fun hfinishes => ?_) fun happroved => ?_
    · obtain ⟨w', e, heval'⟩ := hfinishes.evaluated
      cases heval.symm.trans (hsaid.symm.trans heval')
    · obtain ⟨w', e, top, heval', -⟩ :=
        (approved_iff_complete (tidy_congr hsame htidy') hitem').mp happroved
      cases heval.symm.trans heval'
  | ok we =>
    obtain ⟨w', e⟩ := we
    obtain ⟨hw, he⟩ := workflow?_of_evaluationOf heval
    cases hw.symm.trans hworkflow
    have hsorted : Ascending e.required := Workflow.ascending_required he
    have hgone : (s.decide d).goneOn item = (s.decide d).nextOpened item.id w e := by
      have heval' : (s.decide d).evaluationOf item = .ok (w, e) := heval
      unfold goneOn
      rw [heval']
    obtain ⟨opened, hasked⟩ := htidy.nextAsked item.id w e
    have hasked' : mid.nextAsked item.id w e = .ok opened := by
      rw [nextAsked_lookedUp, hasked]
    rw [finishes_iff hthere (hsaid.trans heval) hasked', answer_progressOf_lookedUp]
    rw [hgone] at happrovals
    rcases nextAsked_cases hsorted hasked with ⟨rfl, hsame⟩ | ⟨hopened, o, ho, -, hadded⟩
    · -- Nothing is opened, so the writes are those of the decision.
      have hwritten : s.written s' = s.decide d := by
        unfold written
        rw [happrovals, hsame]
        rfl
      have hitem' : (Office.requireItem item.id true).answer (s.decide d).office = .ok item := hitem
      rw [hwritten, approved_iff_progressOf hitem']
      exact ⟨fun h => h.2, fun h => ⟨rfl, h⟩⟩
    · refine iff_of_false (fun h => hopened h.1) ?_
      rw [approved_written_iff htidy' hitem heval, approvalsOf_congr happrovals, hadded,
        approvalsOf_addDrafts]
      rintro ⟨top, hcomplete⟩
      exact ho.not_complete (hsound.informed.sound hw) hstacked hcomplete

/-- While nothing is rejected, only a decision that satisfies its level for the first time makes an item
    count as approved. -/
theorem completes_of_approved (hkeys : s.approvals.KeysDistinct) (htidy : s.Tidy)
    (htidy' : (s.decide (a.decided next comments actor s.office.clock)).Tidy)
    (hdecision : Decision s key requested actor comments a next item w)
    (hnone : s.NoneRejected a.itemId) (hnot : ¬ s.Approved a.itemId)
    (h : (s.decide (a.decided next comments actor s.office.clock)).Approved a.itemId) :
    Completes w s (a.decided next comments actor s.office.clock) := by
  obtain ⟨ha, -⟩ := Table.mem_of_get? hdecision.found
  obtain ⟨w', e, top, heval, hcomplete⟩ :=
    (approved_iff_complete htidy' hdecision.required).mp h
  have heval' : s.evaluationOf item = .ok (w', e) := heval
  obtain ⟨hw, -⟩ := workflow?_of_evaluationOf heval'
  cases hw.symm.trans hdecision.workflow
  have hkept := allKept_decide hkeys ha hdecision.kept a.itemId
  by_cases hbefore : w.satisfied top.name (Approval.on (s.approvalsOf a.itemId) top) = true
  · -- The item would have counted as approved before.
    have happroved := (approved_iff_complete htidy hdecision.required).mpr
      ⟨w, e, top, heval', hcomplete.of_kept hkept hnone hbefore⟩
    exact absurd happroved hnot
  · obtain ⟨happroves, hunsatisfied, hsatisfied⟩ :=
      completes_of_satisfied hkeys hdecision (by simpa using hbefore) hcomplete.satisfied
    exact ⟨happroves, hunsatisfied, hsatisfied⟩

/-- A decision heralds the item when it satisfies its level for the first time. -/
theorem heralds_transition (hsound : s.Sound) (htidy : s.Tidy)
    (hstacked : ∀ itemId, Stacked (s.approvalsOf itemId))
    (h : (transition c key requested actor comments).answer s = .ok d) :
    ∃ item w, s.office.items.get? d.itemId = some item ∧ s.workflow? item.boardId = .ok w ∧
      Heralds c item s ((transition c key requested actor comments).after s) (Completes w s d) ∧
      (Told item s ((transition c key requested actor comments).after s) →
        (s.written ((transition c key requested actor comments).after s)).Approved d.itemId) := by
  obtain ⟨a, next, item, w, hdecision, hd, hfollow, hafter⟩ := after_of_transition h
  have hitemId : d.itemId = a.itemId := by rw [hd]; rfl
  have hid : item.id = d.itemId := hdecision.id_eq.trans hitemId.symm
  have hwas : isSatisfied w s a = isSatisfied w s d := by rw [hd]; rfl
  have hkeys := hsound.keysDistinct
  obtain ⟨ha, -⟩ := Table.mem_of_get? hdecision.found
  have hkept : AllKept (s.approvalsOf item.id) ((s.decide d).approvalsOf item.id) := by
    rw [hd]
    exact allKept_decide hkeys ha hdecision.kept item.id
  let mid := (s.decide d).lookedUp item.boardId
  let s' := (transition c key requested actor comments).after s
  have hoffice : mid.office = s.office := lookedUp_office _ _
  have hcreator : mid.HasCreator item :=
    ⟨item, by rw [hoffice, hid, hitemId, hdecision.itemFound], rfl⟩
  have htidy' : s'.Tidy := by
    have hall := htidy.after hkeys (.transition c key requested actor comments)
    rwa [Operation.after, Operation.perform, Task.after_discard] at hall
  have happrovals : s'.approvals = (decidedSite s a d item w).approvals := by
    simp only [s', hafter, hd]
    exact after_decided hdecision
  have htells : Tells (c.Reaches item ∧ (s.written s').Approved item.id ∧ Completes w s d) item s
      s' := by
    refine .after_uncompleted (uncompleted_of_office hoffice) ?_
    have hfollowed := tells_follow hcreator hfollow
    rw [← hafter] at hfollowed
    refine hfollowed.congr (and_congr_right fun _ => ?_)
    rw [isSatisfied_lookedUp, hwas, and_comm]
    refine and_congr_left fun hcompletes => ?_
    unfold decidedSite at happrovals
    rw [hwas, if_pos hcompletes] at happrovals
    rw [hid, hitemId]
    refine finishes_iff_approved hsound ?_ htidy' hdecision.required hdecision.workflow ?_ happrovals
    · rw [hd]
      exact htidy.decision hkeys hdecision
    · rw [← hitemId, ← hid]
      exact (hstacked item.id).kept hkept
  have hfound : s.office.items.get? d.itemId = some item := by
    rw [hitemId, hdecision.itemFound]
  refine ⟨item, w, hfound, hdecision.workflow, ?_, fun htold => ?_⟩
  · refine
      { once := htells.told_or
        due := fun _ => htells
        fresh := fun hnone hnot => htells.congr (and_congr_right fun _ => ?_)
        stands := fun hlistener => ?_ }
    · refine ⟨fun h => h.1, fun happroved => ⟨happroved, ?_⟩⟩
      by_contra hincomplete
      have hwritten : s.written s' = s.decide d := by
        unfold decidedSite at happrovals
        rw [hwas] at happrovals
        unfold written
        rw [happrovals.trans (congrArg Site.approvals (if_neg hincomplete))]
        rfl
      have hdecided : (s.decide d).Approved item.id := hwritten ▸ happroved
      rw [hid, hitemId] at hnone hnot hdecided
      subst hd
      exact hincomplete (completes_of_approved hkeys htidy (htidy.decision hkeys hdecision) hdecision
        hnone hnot hdecided)
    · have hdecided : s.Alike (s.decide d) := Alike.of_approvals s _
      have hmid : (s.decide d).Alike mid := Curious.lookedUp _ item.boardId
      have htold : mid.Alike s' := by
        simp only [s', hafter]
        exact alike_follow hlistener item w _ d actor comments mid
      exact (IsTrans.trans _ _ _ (IsTrans.trans _ _ _ hdecided hmid) htold).approved_written
  · exact hid ▸ (htells.of_told htold).2.1

/-! ## Runs -/

/-- In every state of a run from an empty table without deletions, requests and decisions that return
    herald their items: while nothing on the item is rejected and it is not approved, they tell the
    creator just if they make it approved, and once. An approved item is heralded again by a request that
    adds rows, and by a decision that satisfies its level for the first time, if it stays approved. A
    decision never tells the creator of an item that is not approved behind it. -/
theorem heralds_of_fresh (hsound : s.Sound) (hnone : s.approvals.rows = [])
    (hops : ∀ op ∈ ops, ¬ op.Deletes) :
    (∀ c itemId actor created, (request c itemId actor).answer (s.run ops) = .ok created →
        ∃ item, (s.run ops).office.items.get? itemId = some item ∧
          Heralds c item (s.run ops) ((request c itemId actor).after (s.run ops)) (created ≠ [])) ∧
      ∀ c key requested actor comments d,
        (transition c key requested actor comments).answer (s.run ops) = .ok d →
          ∃ item w, (s.run ops).office.items.get? d.itemId = some item ∧
            (s.run ops).workflow? item.boardId = .ok w ∧
            Heralds c item (s.run ops)
              ((transition c key requested actor comments).after (s.run ops))
              (Completes w (s.run ops) d) ∧
            (Told item (s.run ops)
                ((transition c key requested actor comments).after (s.run ops)) →
              ((s.run ops).written ((transition c key requested actor comments).after
                (s.run ops))).Approved d.itemId) := by
  have hsound' : (s.run ops).Sound := hsound.run ops
  have htidy : (s.run ops).Tidy := (tidy_of_nil hnone).run hsound.keysDistinct ops
  have hstacked (itemId : Int) : Stacked ((s.run ops).approvalsOf itemId) := by
    have hrows : s.approvalsOf itemId = [] := by
      unfold approvalsOf
      rw [hnone]
      rfl
    exact stacked_run hsound hops (hrows ▸ Stacked.nil)
  refine ⟨fun c itemId actor created h => ?_, fun c key requested actor comments d h => ?_⟩
  · exact heralds_request hsound' htidy (hstacked itemId) h
  · exact heralds_transition hsound' htidy hstacked h

/-- What the overview says is found out by asking for it. -/
theorem approved_of_overview
    (h : ((Approvals.overview itemId none).answer s).toOption.map (·.progress) = some .approved) :
    s.Approved itemId := by
  cases hanswer : (Approvals.overview itemId none).answer s with
  | error fault =>
    rw [hanswer] at h
    cases h
  | ok v =>
    rw [hanswer] at h
    exact ⟨v, hanswer, Option.some.inj h⟩

end Site

/-- Channels that note events down, and get messages through. -/
def Channels.full : Channels := { listener := .recorder, delivers := true }

namespace Site

open Approvals

/-- The approval of the second level approves the desk of the small site, and its creator is told. -/
theorem heralds_of_fresh_small :
    let s := small.run [.request .noted 1 (some "A"),
      .transition .noted 1 (.text "approved") (some "A") none]
    Told .small s ((transition .full 2 (.text "approved") (some "B") none).after s) := by
  intro s
  let s' := (transition .full 2 (.text "approved") (some "B") none).after s
  have hnone : small.approvals.rows = [] := rfl
  have hops : ∀ op ∈ [Operation.request .noted 1 (some "A"),
      .transition .noted 1 (.text "approved") (some "A") none], ¬ op.Deletes := by
    simp [Operation.Deletes]
  obtain ⟨d, hanswer, hitemId⟩ : ∃ d, (transition .full 2 (.text "approved") (some "B")
      none).answer s = .ok d ∧ d.itemId = 1 := by
    have hreturns : ((transition .full 2 (.text "approved") (some "B") none).answer s).toOption.map
        (·.itemId) = some 1 := by decide +kernel
    cases hanswer : (transition .full 2 (.text "approved") (some "B") none).answer s with
    | error fault =>
      rw [hanswer] at hreturns
      cases hreturns
    | ok d =>
      rw [hanswer] at hreturns
      exact ⟨d, rfl, Option.some.inj hreturns⟩
  obtain ⟨-, hdecisions⟩ := heralds_of_fresh sound_small hnone hops
  obtain ⟨item, w, hitem, -, hheralds, -⟩ := hdecisions _ _ _ _ _ _ hanswer
  have hfound : s.office.items.get? 1 = some .small := by with_unfolding_all rfl
  rw [hitemId] at hitem
  cases hfound.symm.trans hitem
  have hstatuses : (s.approvalsOf 1).map (·.status) = [.approved, .pending] := by decide +kernel
  have hfree : s.NoneRejected 1 := by
    intro a ha hrejected
    have hmem := List.mem_map_of_mem (f := (·.status)) ha
    rw [hstatuses, hrejected] at hmem
    simp at hmem
  have hunapproved : ¬ s.Approved 1 := by
    rintro ⟨v, hv, happroved⟩
    have hprogress : ((overview 1 none).answer s).toOption.map (·.progress) = some .inProgress := by
      decide +kernel
    rw [hv] at hprogress
    cases happroved.symm.trans (Option.some.inj hprogress)
  have happroved : (s.written s').Approved 1 := approved_of_overview (by decide +kernel)
  exact (hheralds.fresh hfree hunapproved).told ⟨⟨rfl, by decide⟩, happroved⟩

end Site

/-! ## The notice beside the progress -/

/-- The workflow of the small site; audited purchases need the third level. -/
def Workflow.audited : Workflow where
  name := "Purchases"
  levels := Workflow.small.levels
  rules := [
    { id := "audit"
      name := "Audits"
      condition := .node (.test .equals) (some "status") (.text "Audit") none
      action := { routing := .requireLevel, level := some .third } }]

/-- An automation that asks for an audit once the second level is completed. -/
def Automation.audit : Automation where
  id := 1
  boardId := 1
  name := "Audits"
  description := ""
  trigger := .object [("type", .text "approval_level_completed"),
    ("config", .object [("level", .text "LEVEL_2")])]
  conditions := .null
  actions := .list [.object [("type", .text "change_status"),
    ("config", .object [("status", .text "Audit")])]]
  isActive := true
  createdBy := "A"
  createdAt := ⟨0⟩
  updatedAt := ⟨0⟩

/-- The small site with audits. -/
def Site.audited : Site where
  office := { Site.small.office with automations := ⟨[.audit]⟩ }
  known := [(1, .audited)]

/-- The notice and the progress come apart. A request for an approved desk that turns out to be petty
    adds a row, and tells the creator once more. And the notice is sent behind the automations: they may
    have asked for another level before. -/
theorem notice_beside_progress :
    let progress (s : Site) := ((Approvals.overview 1 none).answer s).toOption.map (·.progress)
    let told (s : Site) := s.office.completions.map (·.user)
    let petty := Site.small.run [.request .full 1 (some "A"),
      .transition .full 1 (.text "approved") (some "A") none,
      .transition .full 2 (.text "approved") (some "B") none,
      .office (.changeStatus .nobody 1 (some "A") (.text "Petty"))]
    let again := (Approvals.request .full 1 (some "A")).after petty
    let first := Site.audited.run [.request .full 1 (some "A"),
      .transition .full 1 (.text "approved") (some "A") none]
    let second := (Approvals.transition {} 2 (.text "approved") (some "B") none).after first
    (progress petty = some .approved ∧ progress again = some .approved ∧ told petty = ["A"] ∧
        told again = ["A", "A"]) ∧
      progress first = some .inProgress ∧ progress second = some .inProgress ∧ told first = [] ∧
        told second = ["A"] := by
  intro progress told petty again first second
  refine ⟨⟨?_, ?_, ?_, ?_⟩, ?_, ?_, ?_, ?_⟩
  all_goals decide +kernel

end Signoff
