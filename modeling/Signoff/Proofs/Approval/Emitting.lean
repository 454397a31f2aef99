import Signoff.Proofs.Approval.Atomic

/-! # What a recorder hears

    A recorder notes every event down, so its notes say what a call has told:

    * `Office.events`: what was heard, in order. `Site.Emitted`: just these events
      were told in between.
    * `Site.Emits`: a task tells just these events. What its first part tells
      comes in front of what its second part tells.
    * `Site.Grown`: rows were added in between, and some of them wait for a
      decision.
    * `emitted_request`: a request tells of every row that waits.
      `emitted_transition`: a decision tells of itself, of the level that it
      completes, and of the rows that are opened behind it.
    * `silent_request`, `silent_transition`: calls that fail tell nothing.
-/

open Signoff.Task (Keeps Returns Same)

namespace Signoff

variable {α β : Type} {s s' s'' : Site} {itemId key : Int} {item : Item} {w : Workflow}
  {e : Evaluation} {a d : Approval} {next : Status} {requested : Value}
  {actor comments : Option String} {c : Channels} {created asked : List Approval} {ds : List Draft}
  {told told' : List Event} {fault : Fault}

/-! ## Events -/

/-- What was heard, oldest first. -/
def Office.events (o : Office) : List Event := (o.heard.map (·.event)).reverse

/-- The rows that wait for a decision. -/
abbrev Approval.waiting (rows : List Approval) : List Approval :=
  rows.filter fun a => a.status == .pending

namespace Item

/-- An event about the approvals of an item, on the board where the item lies. -/
def event (item : Item) (actor : Option String) (kind : EventKind) (note : ApprovalNote) : Event where
  itemId := item.id
  boardId := item.boardId
  user := actor
  kind := kind
  approval := some note

/-- A row waits for its decision. -/
def submitted (item : Item) (actor : Option String) (a : Approval) : Event :=
  item.event actor .approvalSubmitted (Channels.noteOf a)

/-- A level is completed. -/
def completed (item : Item) (actor comments : Option String) (level : String) : Event :=
  item.event actor .levelCompleted { approvalId := none, level := level, comments := comments }

/-- What is told about a decision, and about the rows that are opened behind it. An approval may have
    completed its level. -/
def decided (item : Item) (actor comments : Option String) (d : Approval) (isCompleted : Bool)
    (asked : List Approval) : List Event :=
  (match d.status with
    | .approved =>
      item.event actor .approvalApproved (Channels.noteOf d) ::
        (if isCompleted then [item.completed actor comments d.level] else [])
    | .rejected => [item.event actor .approvalRejected (Channels.noteOf d)]
    | _ => []) ++ asked.map (item.submitted actor)

end Item

namespace Site

/-- Just these events were told in between, and the items are as they were. -/
structure Emitted (told : List Event) (s s' : Site) : Prop where
  events : s'.office.events = s.office.events ++ told
  items : s'.office.items = s.office.items

namespace Emitted

theorem trans (h : Emitted told s s') (h' : Emitted told' s' s'') :
    Emitted (told ++ told') s s'' where
  events := by rw [h'.events, h.events, List.append_assoc]
  items := h'.items.trans h.items

/-- Whatever leaves the office alone tells nothing. -/
theorem of_office (h : s'.office = s.office) : Emitted [] s s' where
  events := by rw [h, List.append_nil]
  items := by rw [h]

instance : Std.Refl (Emitted []) := ⟨fun _ => of_office rfl⟩

instance : IsTrans Site (Emitted []) := ⟨fun _ _ _ h h' => h.trans h'⟩

end Emitted

/-- Where the item is there, the task returns, and it tells just these events. -/
def Emits (item : Item) (told : List Event) (t : SiteTask α) : Prop :=
  ∀ s, s.office.items.get? item.id = some item →
    (∃ x, t.answer s = .ok x) ∧ Emitted told s (t.after s)

namespace Emits

theorem pure (item : Item) (x : α) : Emits item [] (Pure.pure x : SiteTask α) :=
  fun _ _ => ⟨⟨x, rfl⟩, .of_office rfl⟩

theorem of_keeps {t : SiteTask α} (h : Keeps (Emitted []) t) (hreturns : Returns t) :
    Emits item [] t :=
  fun s _ => ⟨hreturns s, h s⟩

/-- What the first part tells comes in front. -/
theorem bind {t : SiteTask α} {f : α → SiteTask β} (ht : Emits item told t)
    (hf : ∀ x, Emits item told' (f x)) : Emits item (told ++ told') (t >>= f) := by
  intro s hitem
  obtain ⟨⟨x, hx⟩, hfirst⟩ := ht s hitem
  have hitem' : (t.after s).office.items.get? item.id = some item := by
    rw [hfirst.items]
    exact hitem
  obtain ⟨hreturns, hsecond⟩ := hf x (t.after s) hitem'
  have hexec : (t >>= f).exec s = (f x).exec (t.after s) := Task.exec_bind_ok (Prod.ext hx rfl)
  rw [Task.answer, Task.after, hexec]
  exact ⟨hreturns, hfirst.trans hsecond⟩

/-- One part for each member of a list. -/
theorem forM {γ : Type} {f : γ → SiteTask PUnit} {g : γ → List Event} (l : List γ)
    (h : ∀ x, Emits item (g x) (f x)) : Emits item (l.flatMap g) (l.forM f) := by
  induction l with
  | nil => exact pure item PUnit.unit
  | cons x rest ih =>
    rw [List.flatMap_cons]
    exact (h x).bind fun _ => ih

end Emits

/-! ## Channels -/

theorem emits_tell (hc : c.listener = .recorder) (item : Item) (kind : EventKind)
    (actor : Option String) (note : ApprovalNote) :
    Emits item [item.event actor kind note] (c.tell item kind actor note) := by
  intro s hitem
  refine ⟨returns_tell c item kind actor note s, ?_⟩
  have hcurrent : (s.office.items.get? item.id).getD item = item := by
    rw [hitem]
    rfl
  let o : Office := { s.office with heard := ⟨item.event actor kind note, none⟩ :: s.office.heard }
  have hoffice : ((c.tell item kind actor note).after s).office = o := by
    show (c.listener.tell (((s.office.items.get? item.id).getD item).event actor kind note)).after
      s.office = o
    rw [hcurrent, hc]
    rfl
  exact
    { events := by
        rw [hoffice]
        simp [o, Office.events]
      items := by rw [hoffice] }

/-- Messages are no events. -/
theorem keeps_emitted_send (c : Channels) (item : Item) (messages : Subject → List Message) :
    Keeps (Emitted []) (c.send item messages) := by
  refine .ite ((keeps_current item).bind fun item => Keeps.get.bind fun _ => ?_) (.pure _)
  refine Keeps.forM _ fun m _ => Keeps.discard fun s => ?_
  obtain ⟨notices, hnotices⟩ := Office.after_notify (.text m.user) m.notice s.office
  have hoffice : ((within (Office.notify (.text m.user) m.notice)).after s).office =
      { s.office with notifications := notices } := hnotices
  exact
    { events := by
        rw [hoffice, List.append_nil]
        rfl
      items := by rw [hoffice] }

theorem emits_send (c : Channels) (item : Item) {messages : Subject → List Message}
    (h : ∀ s, ∀ m ∈ messages s, m.notice.IsText) : Emits item [] (c.send item messages) :=
  .of_keeps (keeps_emitted_send c item messages) (returns_send c item h)

theorem emits_announce (hc : c.listener = .recorder) (item : Item) (opened : List Approval)
    (actor : Option String) :
    Emits item (opened.map (item.submitted actor)) (c.announce item opened actor) := by
  have hevents : Emits item (opened.map (item.submitted actor))
      (opened.forM fun a => c.tell item .approvalSubmitted actor (Channels.noteOf a)) := by
    rw [List.map_eq_flatMap]
    exact Emits.forM opened fun a => emits_tell hc item .approvalSubmitted actor (Channels.noteOf a)
  have hmessages : Emits item []
      ((opened.map (·.level)).eraseDups.forM fun level =>
        let approvers := (opened.filter fun a => a.level == level).map (·.approver)
        c.send item fun subject => subject.approvalRequested level approvers) := by
    have hnone : ∀ levels : List String, levels.flatMap (fun _ => ([] : List Event)) = [] := by simp
    rw [← hnone]
    exact Emits.forM _ fun level => emits_send c item fun s m hm => s.isText_approvalRequested hm
  have hall := hevents.bind fun _ => hmessages
  rwa [List.append_nil] at hall

end Site

namespace Approvals

open Site

/-- An approval tells of itself first. -/
theorem emits_tellApproved (hc : c.listener = .recorder) (item : Item) (hd : d.status = .approved)
    (actor comments : Option String) (isCompleted : Bool) (aftermath : Aftermath) :
    Emits item (item.decided actor comments d isCompleted (Approval.waiting aftermath.opened))
      (tellApproved c item d actor comments isCompleted aftermath) := by
  let asked := (Approval.waiting aftermath.opened).map (item.submitted actor)
  have hgiven := emits_tell hc item .approvalApproved actor (Channels.noteOf d)
  have hsent : Emits item [] (c.send item fun s => s.approved d.level d.approver comments) :=
    emits_send c item fun s m hm => s.isText_approved hm
  have hcompleted := emits_tell hc item .levelCompleted actor
    { approvalId := none, level := d.level, comments := comments }
  have hfinished : Emits item []
      (if aftermath.finished then c.send item Subject.allComplete else pure ()) := by
    split
    · exact emits_send c item fun s m hm => s.isText_allComplete hm
    · exact .pure item ()
  have hopened : Emits item asked (do
      c.announce item (Approval.waiting aftermath.opened) actor
      if aftermath.finished then c.send item Subject.allComplete) := by
    have hboth := (emits_announce hc item (Approval.waiting aftermath.opened) actor).bind
      fun _ => hfinished
    rwa [List.append_nil] at hboth
  unfold Item.decided tellApproved
  rw [hd]
  refine hgiven.bind fun _ => hsent.bind fun _ => ?_
  cases isCompleted with
  | true => exact hcompleted.bind fun _ => hopened
  | false => exact hopened

/-- A rejection tells of itself only. -/
theorem emits_tellRejected (hc : c.listener = .recorder) (item : Item) (d : Approval)
    (actor comments : Option String) :
    Emits item [item.event actor .approvalRejected (Channels.noteOf d)]
      (tellRejected c item d actor comments) := by
  have hgiven := emits_tell hc item .approvalRejected actor (Channels.noteOf d)
  refine hgiven.bind fun _ => emits_send c item fun s m hm => ?_
  split at hm
  · exact s.isText_changesRequested hm
  · exact s.isText_rejected hm

/-- A request tells of the rows that wait. Where no approval is needed there are none. -/
theorem emits_tellRequested (hc : c.listener = .recorder) (item : Item) (actor : Option String)
    (hauto : e.autoApproved = true → Approval.waiting created = []) :
    Emits item ((Approval.waiting created).map (item.submitted actor))
      (tellRequested c item e created actor) := by
  unfold tellRequested
  split
  · next h =>
    rw [hauto h]
    split
    · exact emits_send c item fun s m hm => s.isText_allComplete hm
    · exact .pure item ()
  · exact emits_announce hc item (Approval.waiting created) actor

end Approvals

/-! ## Rows that are added -/

theorem Approval.waiting_append (rows new : List Approval) :
    waiting (rows ++ new) = waiting rows ++ waiting new :=
  List.filter_append rows new

theorem Approval.waiting_waiting (rows : List Approval) : waiting (waiting rows) = waiting rows := by
  simp

/-- Rows of drafts that are all approved do not wait. -/
theorem Draft.waiting_rowsFrom_eq_nil {now : Moment} (h : ∀ d ∈ ds, d.status = .approved) :
    Approval.waiting (rowsFrom itemId now key ds) = [] := by
  rw [List.filter_eq_nil_iff]
  intro a ha
  obtain ⟨d, hd, k, rfl⟩ := mem_rowsFrom ha
  simp [row, h d hd]

/-- Rows of drafts that are all pending do. -/
theorem Draft.waiting_rowsFrom_eq_self {now : Moment} (h : ∀ d ∈ ds, d.status = .pending) :
    Approval.waiting (rowsFrom itemId now key ds) = rowsFrom itemId now key ds := by
  rw [List.filter_eq_self]
  intro a ha
  obtain ⟨d, hd, k, rfl⟩ := mem_rowsFrom ha
  simp [row, h d hd]

theorem Draft.rowsFrom_append {now : Moment} (ds ds' : List Draft) :
    rowsFrom itemId now key (ds ++ ds') =
      rowsFrom itemId now key ds ++ rowsFrom itemId now (key + ds.length) ds' := by
  induction ds generalizing key with
  | nil => simp [rowsFrom]
  | cons d rest ih =>
    have hkey : key + 1 + (rest.length : Int) = key + ((d :: rest).length : Int) := by
      rw [List.length_cons]
      omega
    rw [List.cons_append, rowsFrom, rowsFrom, ih, hkey, List.cons_append]

/-- Of the rows of an opening, those of its approvers wait. -/
theorem Opening.waiting_drafts (o : Opening) (now : Moment) :
    Approval.waiting (Draft.rowsFrom itemId now key o.drafts) =
      Draft.rowsFrom itemId now (key + o.passedOver.length)
        (o.approvers.map (Draft.asked o.level)) := by
  have hpassed : ∀ d ∈ o.passedOver.map Draft.passedOver, d.status = .approved := by
    intro d hd
    obtain ⟨l, -, rfl⟩ := List.mem_map.mp hd
    rfl
  have hasked : ∀ d ∈ o.approvers.map (Draft.asked o.level), d.status = .pending := by
    intro d hd
    obtain ⟨approver, -, rfl⟩ := List.mem_map.mp hd
    rfl
  unfold Opening.drafts
  rw [Draft.rowsFrom_append, Approval.waiting_append, List.length_map]
  rw [Draft.waiting_rowsFrom_eq_nil hpassed, Draft.waiting_rowsFrom_eq_self hasked, List.nil_append]

namespace Site

/-- Rows were added in between. Of these, `asked` wait for a decision; the others are approved. -/
def Grown (asked : List Approval) (s s' : Site) : Prop :=
  ∃ old new, s'.approvals.rows = old ++ new ∧
    old.map (·.id) = s.approvals.rows.map (·.id) ∧
    (∀ a ∈ new, a.status = .pending ∨ a.status = .approved) ∧ asked = Approval.waiting new

namespace Grown

theorem of_keys (h : s'.approvals.rows.map (·.id) = s.approvals.rows.map (·.id)) :
    Grown [] s s' :=
  ⟨s'.approvals.rows, [], (List.append_nil _).symm, h, nofun, rfl⟩

theorem of_same (h : s'.approvals = s.approvals) : Grown [] s s' := by
  apply of_keys
  rw [h]

/-- Only the keys in front matter. -/
theorem after_keys (hkeys : s'.approvals.rows.map (·.id) = s.approvals.rows.map (·.id))
    (h : Grown asked s' s'') : Grown asked s s'' := by
  obtain ⟨old, new, hrows, hold, hnew, hasked⟩ := h
  exact ⟨old, new, hrows, hold.trans hkeys, hnew, hasked⟩

theorem congr (h : Grown asked s s') (hsame : s''.approvals = s'.approvals) :
    Grown asked s s'' := by
  unfold Grown
  rw [hsame]
  exact h

/-- The rows that wait are in the table, under keys that were not there before. -/
theorem key_of_asked (h : Grown asked s s') (hkeys : s'.approvals.KeysDistinct)
    (hkey : key ∈ asked.map (·.id)) :
    key ∈ s'.approvals.rows.map (·.id) ∧ key ∉ s.approvals.rows.map (·.id) := by
  obtain ⟨old, new, hrows, hold, -, rfl⟩ := h
  have hnew : key ∈ new.map (·.id) := by
    obtain ⟨a, ha, rfl⟩ := List.mem_map.mp hkey
    exact List.mem_map_of_mem (List.mem_filter.mp ha).1
  have hnodup : (s'.approvals.rows.map (·.id)).Nodup := hkeys
  rw [hrows, List.map_append] at hnodup ⊢
  refine ⟨List.mem_append_right _ hnew, fun hfront => ?_⟩
  rw [← hold] at hfront
  exact List.disjoint_of_nodup_append hnodup hfront hnew

end Grown

/-- The row was created in between. -/
structure Creates (a : Approval) (s s' : Site) : Prop where
  mem : a ∈ s'.approvals.rows
  isNew : a.id ∉ s.approvals.rows.map (·.id)

/-- A row that is created is among those that wait, under a key of its own, or it is approved and no
    waiting row has its key. -/
theorem Creates.asked_or_not (hcreates : Creates a s s') (h : Grown asked s s')
    (hkeys : s'.approvals.KeysDistinct) :
    a.status = .pending ∧ (asked.map (·.id)).count a.id = 1 ∨
      a.status = .approved ∧ (asked.map (·.id)).count a.id = 0 := by
  obtain ⟨old, new, hrows, hold, hnew, rfl⟩ := h
  have hnodup : (s'.approvals.rows.map (·.id)).Nodup := hkeys
  rw [hrows, List.map_append] at hnodup
  have hnodup' : (new.map (·.id)).Nodup := hnodup.of_append_right
  have ha : a ∈ new := by
    have hmem := hcreates.mem
    rw [hrows] at hmem
    rcases List.mem_append.mp hmem with hmem | hmem
    · have hkey : a.id ∈ old.map (·.id) := List.mem_map_of_mem hmem
      rw [hold] at hkey
      exact absurd hkey hcreates.isNew
    · exact hmem
  rcases hnew a ha with hpending | happroved
  · have hwaits : a ∈ Approval.waiting new := List.mem_filter.mpr ⟨ha, beq_iff_eq.mpr hpending⟩
    have hdistinct : ((Approval.waiting new).map (·.id)).Nodup :=
      hnodup'.sublist (List.filter_sublist.map _)
    exact .inl ⟨hpending, List.count_eq_one_of_mem hdistinct (List.mem_map_of_mem hwaits)⟩
  · refine .inr ⟨happroved, List.count_eq_zero.mpr fun hmem => ?_⟩
    obtain ⟨b, hb, hid⟩ := List.mem_map.mp hmem
    obtain ⟨hb, hpending⟩ := List.mem_filter.mp hb
    -- The two rows are one, which cannot be both.
    have hsame : b = a := List.inj_on_of_nodup_map hnodup' hb ha hid
    rw [hsame, happroved] at hpending
    cases hpending

theorem grown_addDrafts (s : Site) (itemId : Int)
    (h : ∀ d ∈ ds, d.status = .pending ∨ d.status = .approved) :
    Grown (Approval.waiting (Draft.rowsFrom itemId s.office.clock s.approvals.nextKey ds)) s
      (s.addDrafts itemId ds) := by
  refine ⟨s.approvals.rows, _, rfl, rfl, ?_, rfl⟩
  intro a ha
  obtain ⟨d, hd, k, rfl⟩ := Draft.mem_rowsFrom ha
  exact h d hd

theorem grown_nextOpened (hsorted : Ascending e.required)
    (h : s.nextAsked itemId w e = .ok asked) :
    Grown (Approval.waiting asked) s (s.nextOpened itemId w e) := by
  rcases nextAsked_cases hsorted h with ⟨rfl, hsame⟩ | ⟨-, o, ho, hasked, hopened⟩
  · rw [hsame]
    exact .of_same rfl
  · have hproper := (admits_opening ho).proper
    have hgrown := grown_addDrafts s itemId fun d hd => (hproper d hd).status
    have hwaiting : Approval.waiting asked = Approval.waiting
        (Draft.rowsFrom itemId s.office.clock s.approvals.nextKey o.drafts) := by
      rw [hasked, ← o.waiting_drafts, Approval.waiting_waiting]
    rw [hopened, hwaiting]
    exact hgrown

/-- An approval of everything leaves nothing to wait for. -/
theorem waiting_allUnasked (h : s.allUnasked itemId actor = .ok created) :
    Approval.waiting created = [] ∧ Grown [] s (s.allApproved itemId actor) := by
  obtain ⟨-, hall⟩ := allUnasked_cases h
  obtain ⟨rows, hrows, h⟩ := Result.bind_eq_ok h
  cases h
  obtain ⟨rfl, -⟩ := levelRows_eq_ok hrows
  have happroved : ∀ d ∈ (missingLevels (s.approvalsOf itemId)).map (Draft.unasked actor),
      d.status = .approved := by
    intro d hd
    obtain ⟨l, -, rfl⟩ := List.mem_map.mp hd
    rfl
  have hwaiting : Approval.waiting (Draft.rowsFrom itemId s.office.clock s.approvals.nextKey
      ((missingLevels (s.approvalsOf itemId)).map (Draft.unasked actor))) = [] :=
    Draft.waiting_rowsFrom_eq_nil happroved
  have hgrown := grown_addDrafts s itemId fun d hd => Or.inr (happroved d hd)
  rw [hwaiting, ← hall] at hgrown
  exact ⟨hwaiting, hgrown⟩

theorem grown_requested (hsorted : Ascending e.required)
    (h : s.requestedRows itemId w e actor = .ok created) :
    Grown (Approval.waiting created) s (s.requestedSite itemId w e actor) := by
  unfold requestedRows at h
  unfold requestedSite
  by_cases hauto : e.autoApproved = true
  · rw [if_pos hauto] at h ⊢
    obtain ⟨hwaiting, hgrown⟩ := waiting_allUnasked h
    rw [hwaiting]
    exact hgrown
  · rw [if_neg hauto] at h ⊢
    exact grown_nextOpened hsorted h

/-- A decision keeps the keys. -/
theorem keys_decide (s : Site) (d : Approval) :
    (s.decide d).approvals.rows.map (·.id) = s.approvals.rows.map (·.id) := by
  show (s.approvals.rows.map (replaced d)).map (·.id) = _
  rw [List.map_map]
  refine List.map_congr_left fun row _ => ?_
  rw [Function.comp_apply, replaced]
  split
  · next hkey => exact (beq_iff_eq.mp hkey).symm
  · rfl

end Site

namespace Approvals

open Site

/-- Going on behind a level adds the rows that it opens. -/
theorem grown_goneOn {aftermath : Aftermath} (hitem : s.office.items.get? item.id = some item)
    (h : (goOn item).answer s = .ok aftermath) :
    Grown (Approval.waiting aftermath.opened) s (s.goneOn item) := by
  have hthere : (s.office.items.get? item.id).isSome := by
    rw [hitem]
    rfl
  have heval : ∃ we, s.evaluationOf item = .ok we := by
    unfold goOn at h
    rw [Task.answer_bind_of_exec (exec_evaluateItem s item)] at h
    obtain ⟨we, heval, -⟩ := Result.bind_eq_ok h
    exact ⟨we, heval⟩
  obtain ⟨⟨w, e⟩, heval⟩ := heval
  have hsorted : Ascending e.required :=
    Workflow.ascending_required (workflow?_of_evaluationOf heval).2
  rw [answer_goOn hthere heval] at h
  obtain ⟨opened, hasked, h⟩ := Result.bind_eq_ok h
  have hopened : aftermath.opened = opened := by
    split at h
    · next hnone =>
      obtain ⟨progress, -, h⟩ := Result.bind_eq_ok h
      cases h
      exact (List.isEmpty_iff.mp hnone).symm
    · cases h
      rfl
  unfold goneOn
  rw [heval, hopened]
  exact grown_nextOpened hsorted hasked

/-! ## Requests and decisions -/

/-- What a request that returns has told, and the rows that it has added. -/
theorem emitted_request (hc : c.listener = .recorder)
    (h : (request c itemId actor).answer s = .ok created) :
    ∃ item, s.office.items.get? itemId = some item ∧
      Emitted ((Approval.waiting created).map (item.submitted actor)) s
        ((request c itemId actor).after s) ∧
      Grown (Approval.waiting created) s ((request c itemId actor).after s) := by
  obtain ⟨item, w, e, hrequested, hafter⟩ := after_of_request h
  obtain rfl : item.id = itemId := hrequested.id_eq
  let mid := (s.requestedSite item.id w e actor).lookedUp item.boardId
  have hoffice : mid.office = s.office := by
    obtain ⟨approvals, hsite⟩ := exists_requestedSite s item.id w e actor
    simp only [mid, lookedUp_office, hsite]
  have hsorted : Ascending e.required :=
    Workflow.ascending_required (workflow?_of_evaluationOf hrequested.evaluation).2
  have hauto : e.autoApproved = true → Approval.waiting created = [] := by
    intro hauto
    have hrows := hrequested.rows
    unfold requestedRows at hrows
    rw [if_pos hauto] at hrows
    exact (waiting_allUnasked hrows).1
  have hitem : mid.office.items.get? item.id = some item := by
    rw [hoffice]
    exact hrequested.itemFound
  obtain ⟨-, htold⟩ := emits_tellRequested hc item actor hauto mid hitem
  refine ⟨item, hrequested.itemFound, ?_, ?_⟩
  · rw [hafter]
    exact (Emitted.of_office hoffice).trans htold
  · exact (grown_requested hsorted hrequested.rows).congr (hrequested.approvals_after c)

/-- What follows a decision tells about it, and goes on if the level is completed. -/
theorem emitted_follow {wasSatisfied : Bool} (hc : c.listener = .recorder)
    (hitem : s.office.items.get? item.id = some item)
    (h : ∃ u, (follow c item w wasSatisfied d actor comments).answer s = .ok u) :
    ∃ asked, Emitted
        (item.decided actor comments d (!wasSatisfied && isSatisfied w s d) asked) s
        ((follow c item w wasSatisfied d actor comments).after s) ∧
      Grown asked s ((follow c item w wasSatisfied d actor comments).after s) := by
  have hthere : (s.office.items.get? item.id).isSome := by
    rw [hitem]
    rfl
  have happrovals : ((follow c item w wasSatisfied d actor comments).after s).approvals =
      (if d.status = .approved ∧ wasSatisfied = false ∧ isSatisfied w s d = true then s.goneOn item
        else s).approvals := after_follow hthere
  unfold follow at h happrovals ⊢
  cases hstatus : d.status with
  | approved =>
    simp only [hstatus] at h happrovals ⊢
    rw [Task.after_get_bind] at happrovals ⊢
    rw [Task.answer_get_bind] at h
    by_cases hcompleted : (!wasSatisfied && isSatisfied w s d) = true
    · have hboth : wasSatisfied = false ∧ isSatisfied w s d = true := by simpa using hcompleted
      rw [if_pos hcompleted] at h happrovals ⊢
      rw [if_pos ⟨trivial, hboth⟩] at happrovals
      obtain ⟨u, hu⟩ := h
      obtain ⟨aftermath, s₁, hgone, -⟩ := Task.bind_eq_ok (Prod.ext hu rfl)
      have hanswer : (goOn item).answer s = .ok aftermath := by rw [Task.answer, hgone]
      have hoffice : s₁.office = s.office := office_of_goOn hgone
      have hitem' : s₁.office.items.get? item.id = some item := by
        rw [hoffice]
        exact hitem
      obtain ⟨-, htold⟩ := emits_tellApproved hc item hstatus actor comments _ aftermath s₁ hitem'
      refine ⟨Approval.waiting aftermath.opened, ?_, ?_⟩
      · rw [Task.after, Task.exec_bind_ok hgone]
        exact (Emitted.of_office hoffice).trans htold
      · exact (grown_goneOn hitem hanswer).congr happrovals
    · have hnot : ¬ (True ∧ wasSatisfied = false ∧ isSatisfied w s d = true) :=
        fun h => hcompleted (by simpa using h.2)
      rw [if_neg hcompleted, pure_bind] at happrovals ⊢
      rw [if_neg hnot] at happrovals
      obtain ⟨-, htold⟩ := emits_tellApproved hc item hstatus actor comments _ {} s hitem
      exact ⟨[], htold, .of_same happrovals⟩
  | rejected =>
    simp only [hstatus] at happrovals ⊢
    obtain ⟨-, htold⟩ := emits_tellRejected hc item d actor comments s hitem
    refine ⟨[], ?_, .of_same ?_⟩
    · unfold Item.decided
      rw [hstatus]
      exact htold
    · simpa using happrovals
  | pending =>
    refine ⟨[], ?_, .of_same ?_⟩
    · unfold Item.decided
      rw [hstatus]
      exact .of_office rfl
    · rfl
  | other word =>
    refine ⟨[], ?_, .of_same ?_⟩
    · unfold Item.decided
      rw [hstatus]
      exact .of_office rfl
    · rfl

/-- What a decision that returns has told, and the rows that it has added. -/
theorem emitted_transition (hc : c.listener = .recorder)
    (h : (transition c key requested actor comments).answer s = .ok d) :
    ∃ a next item w asked, Decision s key requested actor comments a next item w ∧
      d = a.decided next comments actor s.office.clock ∧
      ((transition c key requested actor comments).after s).approvals =
        (decidedSite s a d item w).approvals ∧
      Emitted (item.decided actor comments d
          (!isSatisfied w s a && isSatisfied w (s.decide d) d) asked) s
        ((transition c key requested actor comments).after s) ∧
      Grown asked s ((transition c key requested actor comments).after s) := by
  obtain ⟨a, next, item, w, hdecision, hd, hfollow, hafter⟩ := after_of_transition h
  let mid := (s.decide d).lookedUp item.boardId
  have hoffice : mid.office = s.office := lookedUp_office _ _
  have hitem : mid.office.items.get? item.id = some item := by
    rw [hoffice, hdecision.id_eq]
    exact hdecision.itemFound
  obtain ⟨asked, htold, hgrown⟩ := emitted_follow hc hitem hfollow
  rw [isSatisfied_lookedUp] at htold
  have hkeys : mid.approvals.rows.map (·.id) = s.approvals.rows.map (·.id) := by
    simp only [mid, lookedUp_approvals]
    exact keys_decide s d
  refine ⟨a, next, item, w, asked, hdecision, hd, ?_, ?_, ?_⟩
  · rw [hafter, hd]
    exact after_decided hdecision
  · rw [hafter]
    exact (Emitted.of_office hoffice).trans htold
  · rw [hafter]
    exact hgrown.after_keys hkeys

/-! ## Calls that fail -/

/-- A request that fails tells nothing, and adds no rows. -/
theorem silent_request (h : (request c itemId actor).answer s = .error fault) :
    Emitted [] s ((request c itemId actor).after s) ∧
      Grown [] s ((request c itemId actor).after s) := by
  have huntouched := untouched_of_request h
  exact ⟨.of_office huntouched.office, .of_same huntouched.approvals⟩

/-- A decision that fails tells nothing, and adds no rows. -/
theorem silent_transition (htidy : s.Tidy) (hkeys : s.approvals.KeysDistinct)
    (h : (transition c key requested actor comments).answer s = .error fault) :
    Emitted [] s ((transition c key requested actor comments).after s) ∧
      Grown [] s ((transition c key requested actor comments).after s) := by
  rcases untouched_or_stranded htidy hkeys h with huntouched | ⟨a, next, item, w, -, hwritten⟩
  · exact ⟨.of_office huntouched.office, .of_same huntouched.approvals⟩
  · -- The row was decided, but nobody was told.
    refine ⟨.of_office hwritten.office, .of_keys ?_⟩
    rw [hwritten.approvals]
    exact keys_decide s _

end Approvals

end Signoff
