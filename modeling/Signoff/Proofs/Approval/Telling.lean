import Signoff.Proofs.Approval.Faults

/-! # What the creator is told

    A request or a decision tells the creator of an item at most once that
    everything is approved, and it tells so last:

    * `Site.Uncompleted`: nobody was told so in between. Events, and messages
      about single approvals, leave it at that.
    * `Site.Told`: the creator was told so. `Site.Tells P`: just if `P` holds.
    * `tells_tellRequested`, `tells_follow`: when a request tells so, and when
      what follows a decision does.
    * `Site.Alike`: as long as no automation reacts, telling changes nothing that
      the workflow looks at.
-/

open Signoff.Task (Keeps Same)

namespace Signoff

variable {s s' s'' : Site} {item : Item} {w : Workflow} {e : Evaluation} {d : Approval}
  {created : List Approval} {actor comments : Option String} {c : Channels} {P Q : Prop}

namespace Site

/-! ## Other messages -/

/-- No notification of completion was sent in between, and every item has the creator that it had. -/
def Uncompleted (s s' : Site) : Prop := s.office.Uncompleted s'.office

instance : Std.Refl Uncompleted := ⟨fun s => Std.Refl.refl s.office⟩

instance : IsTrans Site Uncompleted :=
  ⟨fun s s' s'' h h' => IsTrans.trans s.office s'.office s''.office h h'⟩

/-- Whatever leaves the office alone. -/
theorem uncompleted_of_office (h : s'.office = s.office) : s.Uncompleted s' := by
  unfold Uncompleted
  rw [h]
  exact Std.Refl.refl s.office

theorem uncompleted_within {α : Type} {task : OfficeTask α} (h : Keeps Office.Uncompleted task) :
    Keeps Uncompleted (within task) :=
  fun s => h s.office

theorem uncompleted_tell (c : Channels) (item : Item) (kind : EventKind) (actor : Option String)
    (note : ApprovalNote) : Keeps Uncompleted (c.tell item kind actor note) :=
  (keeps_current item).bind fun _ => uncompleted_within (Office.permits_tell c.listener _)

theorem uncompleted_send (c : Channels) (item : Item) {messages : Subject → List Message}
    (h : ∀ s, ∀ m ∈ messages s, m.IsOrdinary) : Keeps Uncompleted (c.send item messages) := by
  refine .ite ((keeps_current item).bind fun item => Keeps.get.bind fun s => ?_) (.pure _)
  refine Keeps.forM _ fun m hm => (uncompleted_within ?_).discard
  exact Office.uncompleted_notify _ (h _ m hm).ne_complete

theorem carries_uncompleted (c : Channels) (item : Item) (actor : Option String) :
    Carries Uncompleted c item actor where
  tell kind note _ := uncompleted_tell c item kind actor note
  send _ h := uncompleted_send c item h

/-! ## Telling the creator -/

/-- The creator of the item got one notification of completion in between, and nobody else got one. -/
def Told (item : Item) (s s' : Site) : Prop :=
  ∃ m : Notification, m.user = item.createdBy ∧
    s'.office.completions = s.office.completions ++ [m]

/-- The creator of the item was told of completion in between just if `P` holds, and nobody else was. -/
structure Tells (P : Prop) (item : Item) (s s' : Site) : Prop where
  told : P → Told item s s'
  untold : ¬ P → s'.office.completions = s.office.completions

/-- The item is there, and has the creator that is known of it. -/
def HasCreator (s : Site) (item : Item) : Prop :=
  ∃ now, s.office.items.get? item.id = some now ∧ now.createdBy = item.createdBy

namespace Tells

theorem congr (h : Tells P item s s') (hiff : P ↔ Q) : Tells Q item s s' where
  told hQ := h.told (hiff.mpr hQ)
  untold hQ := h.untold (mt hiff.mp hQ)

theorem of_uncompleted (hP : ¬ P) (h : s.Uncompleted s') : Tells P item s s' where
  told hholds := absurd hholds hP
  untold _ := h.completions

theorem after_uncompleted (h : s.Uncompleted s') (htells : Tells P item s' s'') :
    Tells P item s s'' where
  told hholds := by
    obtain ⟨m, huser, hm⟩ := htells.told hholds
    exact ⟨m, huser, by rw [hm, h.completions]⟩
  untold hnot := (htells.untold hnot).trans h.completions

/-- The creator is told once at most. -/
theorem told_or (h : Tells P item s s') :
    Told item s s' ∨ s'.office.completions = s.office.completions := by
  by_cases hP : P
  · exact .inl (h.told hP)
  · exact .inr (h.untold hP)

theorem of_told (h : Tells P item s s') (htold : Told item s s') : P := by
  by_contra hnot
  obtain ⟨m, -, hm⟩ := htold
  rw [h.untold hnot] at hm
  simp at hm

end Tells

theorem Uncompleted.hasCreator (h : s.Uncompleted s') (hitem : s.HasCreator item) :
    s'.HasCreator item := by
  obtain ⟨now, hnow, hcreator⟩ := hitem
  obtain ⟨now', hnow', hsame⟩ := h.createdBy item.id now hnow
  exact ⟨now', hnow', hsame.trans hcreator⟩

end Site

/-- Messages get through to the creator of the item, who has a name. -/
def Channels.Reaches (c : Channels) (item : Item) : Prop :=
  c.delivers = true ∧ item.createdBy.isEmpty = false

namespace Site

/-- Completion is told to the creator, if the creator is reached. -/
theorem tells_send (c : Channels) (hitem : s.HasCreator item) :
    Tells (c.Reaches item) item s ((c.send item Subject.allComplete).after s) := by
  obtain ⟨now, hnow, hcreator⟩ := hitem
  by_cases hdelivers : c.delivers = true
  · obtain ⟨n, htext, htype, hmessages⟩ := (s.office.subjectOf now).allComplete_eq
    have hcurrent : (s.office.items.get? item.id).getD item = now := by
      rw [hnow]
      rfl
    have hsend : (c.send item Subject.allComplete).after s =
        ((Message.toUser (some item.createdBy) n).forM fun m =>
          discard (within (Office.notify (.text m.user) m.notice)) : SiteTask PUnit).after s := by
      have hsubject : (s.office.subjectOf now).createdBy = some item.createdBy := by
        rw [← hcreator]
        rfl
      rw [← hsubject, ← hmessages, ← hcurrent]
      unfold Channels.send
      rw [if_pos hdelivers]
      rfl
    rw [hsend]
    unfold Message.toUser
    by_cases hname : item.createdBy.isEmpty = true
    · simp only [hname, ↓reduceIte]
      exact .of_uncompleted (fun h => by simp [h.2] at hname) (Std.Refl.refl s)
    · simp only [hname, Bool.false_eq_true, ↓reduceIte]
      have hreturns : Task.Returns
          (discard (within (Office.notify (.text item.createdBy) n)) : SiteTask Unit) :=
        (Office.returns_notify htext item.createdBy).within.discard
      obtain ⟨u, hlast⟩ := hreturns.after_bind (fun _ => pure PUnit.unit) s
      have hafter : (([⟨item.createdBy, n⟩] : List Message).forM fun m =>
          discard (within (Office.notify (.text m.user) m.notice)) : SiteTask PUnit).after s =
          { s with office := (Office.notify (.text item.createdBy) n).after s.office } :=
        hlast.trans (Task.after_discard _ s)
      rw [hafter]
      obtain ⟨m, huser, hm⟩ := Office.completions_notify htext htype item.createdBy s.office
      exact ⟨fun _ => ⟨m, huser, hm⟩, fun hnot => absurd ⟨hdelivers, by simpa using hname⟩ hnot⟩
  · have hsend : c.send item Subject.allComplete = pure () := by
      unfold Channels.send
      rw [if_neg hdelivers]
    rw [hsend]
    exact .of_uncompleted (fun h => hdelivers h.1) (Std.Refl.refl s)

/-! ## Requests and decisions -/

/-- A request tells the creator when it has approved everything, and has added rows for that. -/
theorem tells_tellRequested (c : Channels) (created : List Approval) (actor : Option String)
    (hitem : s.HasCreator item) :
    Tells (c.Reaches item ∧ e.autoApproved = true ∧ created ≠ []) item s
      ((Approvals.tellRequested c item e created actor).after s) := by
  unfold Approvals.tellRequested
  split
  · next hauto =>
    by_cases hcreated : created = []
    · subst hcreated
      exact .of_uncompleted (fun h => h.2.2 rfl) (Std.Refl.refl s)
    · rw [if_pos (by simpa using hcreated)]
      exact (tells_send c hitem).congr ⟨fun h => ⟨h, hauto, hcreated⟩, fun h => h.1⟩
  · next hauto =>
    exact .of_uncompleted (fun h => hauto h.2.1) ((carries_uncompleted c item actor).announce _ s)

/-- An approval tells the creator when it has finished the flow. -/
theorem tells_tellApproved (c : Channels) (d : Approval) (actor comments : Option String)
    (completed : Bool) (aftermath : Approvals.Aftermath) (hitem : s.HasCreator item) :
    Tells (c.Reaches item ∧ aftermath.finished = true) item s
      ((Approvals.tellApproved c item d actor comments completed aftermath).after s) := by
  rw [Approvals.tellApproved_eq]
  have htell : Keeps Uncompleted
      (Approvals.tellDecided c item d actor comments completed aftermath.opened) :=
    (carries_uncompleted c item actor).tellDecided (uncompleted_tell c item _ actor _) comments
      completed _
  have hreturns := returns_tellDecided c item d actor comments completed aftermath.opened
  obtain ⟨u, hlast⟩ := hreturns.after_bind
    (fun _ => if aftermath.finished then c.send item Subject.allComplete else pure ()) s
  have huncompleted := htell s
  rw [hlast]
  refine .after_uncompleted huncompleted ?_
  split
  · next hfinished =>
    refine (tells_send c (huncompleted.hasCreator hitem)).congr ?_
    exact ⟨fun h => ⟨h, hfinished⟩, fun h => h.1⟩
  · next hfinished => exact .of_uncompleted (fun h => hfinished h.2) (Std.Refl.refl _)

end Site

namespace Approvals

open Site

/-- Behind a level that was satisfied, the item turns out to be approved. -/
def Finishes (s : Site) (item : Item) : Prop :=
  ∃ aftermath, (goOn item).answer s = .ok aftermath ∧ aftermath.finished = true

theorem Finishes.evaluated (h : Finishes s item) : ∃ w e, s.evaluationOf item = .ok (w, e) := by
  obtain ⟨aftermath, hanswer, -⟩ := h
  unfold goOn at hanswer
  rw [Task.answer_bind_of_exec (exec_evaluateItem s item)] at hanswer
  obtain ⟨⟨w, e⟩, heval, -⟩ := Result.bind_eq_ok hanswer
  exact ⟨w, e, heval⟩

/-- Going on opens the next level, or finds out how the item stands. -/
theorem finishes_iff {opened : List Approval} (hitem : (s.office.items.get? item.id).isSome)
    (heval : s.evaluationOf item = .ok (w, e)) (hasked : s.nextAsked item.id w e = .ok opened) :
    Finishes s item ↔ opened = [] ∧ (progressOf item).answer s = .ok .approved := by
  have hsorted : Ascending e.required :=
    Workflow.ascending_required (workflow?_of_evaluationOf heval).2
  unfold Finishes
  rw [answer_goOn hitem heval, hasked]
  change (∃ aftermath, (if opened.isEmpty then _ else _) = _ ∧ _) ↔ _
  rcases nextAsked_cases hsorted hasked with ⟨rfl, hnext⟩ | ⟨hopened, -⟩
  · rw [hnext, List.isEmpty_nil, if_pos rfl]
    cases (progressOf item).answer s with
    | error fault => simp [bind, Except.bind]
    | ok progress => simp [bind, Except.bind, pure, Except.pure]
  · rw [if_neg (by simpa using hopened)]
    simp [pure, Except.pure, hopened]

/-- What follows a decision tells the creator when the decision has satisfied its level for the first
    time, and the item turns out to be approved. -/
theorem tells_follow {wasSatisfied : Bool} (hitem : s.HasCreator item)
    (h : ∃ u, (follow c item w wasSatisfied d actor comments).answer s = .ok u) :
    Tells (c.Reaches item ∧ (d.status = .approved ∧ wasSatisfied = false ∧
        isSatisfied w s d = true) ∧ Finishes s item) item s
      ((follow c item w wasSatisfied d actor comments).after s) := by
  unfold follow at h ⊢
  cases hstatus : d.status with
  | approved =>
    simp only [hstatus] at h ⊢
    rw [Task.after_get_bind]
    rw [Task.answer_get_bind] at h
    by_cases hcompleted : (!wasSatisfied && isSatisfied w s d) = true
    · have hboth : wasSatisfied = false ∧ isSatisfied w s d = true := by simpa using hcompleted
      rw [if_pos hcompleted] at h ⊢
      obtain ⟨u, hu⟩ := h
      obtain ⟨aftermath, s₁, hgone, -⟩ := Task.bind_eq_ok (Prod.ext hu rfl)
      have hanswer : (goOn item).answer s = .ok aftermath := by rw [Task.answer, hgone]
      have hoffice : s.Uncompleted s₁ := uncompleted_of_office (office_of_goOn hgone)
      rw [Task.after, Task.exec_bind_ok hgone]
      refine .after_uncompleted hoffice ?_
      refine (tells_tellApproved c d actor comments _ aftermath (hoffice.hasCreator hitem)).congr ?_
      refine and_congr_right fun _ => ⟨fun h => ⟨⟨trivial, hboth⟩, aftermath, hanswer, h⟩, ?_⟩
      rintro ⟨-, aftermath', hanswer', hfinished⟩
      cases hanswer.symm.trans hanswer'
      exact hfinished
    · rw [if_neg hcompleted, pure_bind]
      refine (tells_tellApproved c d actor comments _ {} hitem).congr ?_
      refine and_congr_right fun _ => ⟨fun h => absurd h Bool.false_ne_true, fun h => ?_⟩
      exact absurd (by simpa using h.1.2) hcompleted
  | rejected =>
    refine .of_uncompleted (by simp) ?_
    exact (carries_uncompleted c item actor).tellRejected d comments s
  | pending => exact .of_uncompleted (by simp) (Std.Refl.refl s)
  | other word => exact .of_uncompleted (by simp) (Std.Refl.refl s)

end Approvals

/-! ## Telling without automations -/

namespace Site

/-- Nothing that the workflow looks at is different. -/
structure Alike (s s' : Site) : Prop where
  /-- Notifications may have been sent, and events may have been noted down. -/
  office : ∃ notices heard, s'.office = { s.office with notifications := notices, heard := heard }
  workflow : ∀ boardId, s'.workflow? boardId = s.workflow? boardId

namespace Alike

instance : Std.Refl Alike := ⟨fun s => ⟨⟨s.office.notifications, s.office.heard, rfl⟩, fun _ => rfl⟩⟩

instance : IsTrans Site Alike where
  trans s s' s'' h h' := by
    obtain ⟨notices, heard, hoffice⟩ := h.office
    obtain ⟨notices', heard', hoffice'⟩ := h'.office
    refine ⟨⟨notices', heard', by rw [hoffice', hoffice]⟩, fun boardId => ?_⟩
    exact (h'.workflow boardId).trans (h.workflow boardId)

instance : Growing Alike where
  lookedUp s boardId :=
    ⟨⟨s.office.notifications, s.office.heard, lookedUp_office s boardId⟩,
      workflow?_lookedUp s boardId⟩
  added s _ _ := ⟨⟨s.office.notifications, s.office.heard, rfl⟩, fun _ => rfl⟩

theorem symm (h : s.Alike s') : s'.Alike s where
  office := by
    obtain ⟨notices, heard, hoffice⟩ := h.office
    exact ⟨s.office.notifications, s.office.heard, by rw [hoffice]⟩
  workflow boardId := (h.workflow boardId).symm

/-- Writes of approvals. -/
theorem of_approvals (s : Site) (approvals : Table Approval) :
    s.Alike { s with approvals := approvals } where
  office := ⟨s.office.notifications, s.office.heard, rfl⟩
  workflow _ := rfl

/-- Writes that only send notifications and note events down. -/
theorem of_office (s : Site) (notices : Table Notification) (heard : List Hearing) :
    s.Alike { s with office := { s.office with notifications := notices, heard := heard } } where
  office := ⟨notices, heard, rfl⟩
  workflow _ := rfl

end Alike

theorem alike_tell (h : c.listener ≠ .automations) (item : Item) (kind : EventKind)
    (actor : Option String) (note : ApprovalNote) : Keeps Alike (c.tell item kind actor note) := by
  refine (keeps_current item).bind fun now => fun s => ?_
  cases hlistener : c.listener with
  | automations => exact absurd hlistener h
  | recorder => exact Alike.of_office s s.office.notifications _
  | nobody => exact Std.Refl.refl s
  | failing => exact Std.Refl.refl s

theorem alike_send (c : Channels) (item : Item) (messages : Subject → List Message) :
    Keeps Alike (c.send item messages) := by
  refine .ite ((keeps_current item).bind fun item => Keeps.get.bind fun s => ?_) (.pure _)
  refine Keeps.forM _ fun m _ => Keeps.discard fun s => ?_
  obtain ⟨notices, hnotices⟩ := Office.after_notify (.text m.user) m.notice s.office
  have hafter : (within (Office.notify (.text m.user) m.notice)).after s =
      { s with office := { s.office with notifications := notices, heard := s.office.heard } } :=
    congrArg (fun o => { s with office := o }) hnotices
  rw [hafter]
  exact Alike.of_office s notices s.office.heard

theorem carries_alike (h : c.listener ≠ .automations) (item : Item) (actor : Option String) :
    Carries Alike c item actor where
  tell kind note _ := alike_tell h item kind actor note
  send messages _ := alike_send c item messages

theorem alike_tellRequested (h : c.listener ≠ .automations) (item : Item) (e : Evaluation)
    (created : List Approval) (actor : Option String) :
    Keeps Alike (Approvals.tellRequested c item e created actor) :=
  .ite (.ite (alike_send c item _) (.pure _)) ((carries_alike h item actor).announce _)

theorem alike_follow (h : c.listener ≠ .automations) (item : Item) (w : Workflow)
    (wasSatisfied : Bool) (d : Approval) (actor comments : Option String) :
    Keeps Alike (Approvals.follow c item w wasSatisfied d actor comments) :=
  (carries_alike h item actor).follow (fun _ => alike_tell h item _ actor _) (alike_send c item _) w
    wasSatisfied comments

end Site

end Signoff
