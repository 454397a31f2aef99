import Signoff.Proofs.Automation.Isolation

/-! # Which automations fire

    An event fires the active automations of its board that answer it. Whether
    one does is settled by what the event tells, or else by the item as it was
    in front of all of them:

    * `Automations.told`: the event as every automation gets it.
    * `Automations.Due`: the automation is to fire. `due` lists them, oldest
      first.
    * `Automations.Ran`: automations ran one after another, and each left a row in
      the log.
    * `exec_runAll`: exactly the ones that answer run, whatever became of the
      others.
    * `fires_due`: so they do for every event about an item that can be stored.
      An event about any other item fires nothing.
-/

open Signoff.Task (Keeps Reads Same)

namespace Signoff

/-! ## The status of a run -/

/-- The status tells whether all, none or some of the actions succeeded. -/
structure ActionResult.Summarised (status : String) (results : List ActionResult) : Prop where
  success : status = "success" ↔ ∀ r ∈ results, r.succeeded = true
  failed : status = "failed" ↔ ∀ r ∈ results, r.succeeded = false
  partly : status = "partial" ↔
    (∃ r ∈ results, r.succeeded = true) ∧ ∃ r ∈ results, r.succeeded = false

/-- The status of a run that has results. -/
theorem ActionResult.summarised_statusOf {results : List ActionResult} (h : results ≠ []) :
    Summarised (statusOf results) results := by
  obtain ⟨r, hr⟩ := List.exists_mem_of_ne_nil results h
  have hall : (results.map succeeded).all id = true ↔ ∀ r ∈ results, r.succeeded = true := by simp
  have hany : (results.map succeeded).any id = true ↔ ∃ r ∈ results, r.succeeded = true := by simp
  unfold statusOf executionStatus
  by_cases hgood : ∀ r ∈ results, r.succeeded = true
  · rw [if_pos (hall.mpr hgood)]
    constructor
    · simpa using hgood
    · simp only [String.reduceEq, false_iff, not_forall]
      exact ⟨r, hr, by simp [hgood r hr]⟩
    · simp only [String.reduceEq, false_iff, not_and, not_exists]
      intro _ r' hr'
      rw [hgood r' hr']
      exact Bool.noConfusion
  · rw [if_neg (mt hall.mp hgood)]
    have hbad : ∃ r ∈ results, r.succeeded = false := by simpa using hgood
    by_cases hsome : ∃ r ∈ results, r.succeeded = true
    · rw [if_pos (hany.mpr hsome)]
      constructor
      · simpa using hbad
      · simpa using hsome
      · simpa using ⟨hsome, hbad⟩
    · rw [if_neg (mt hany.mp hsome)]
      constructor
      · simpa using hbad
      · simpa using hsome
      · simpa using fun r hr hgood => absurd ⟨r, hr, hgood⟩ hsome

namespace Automations

variable {o : Office} {event : Event} {today : Date} {a : Automation}

/-! ## What automations look at -/

/-- The event as the automations get it: with what it tells itself, or else with the snapshot of its item. -/
def told (o : Office) (event : Event) : Event :=
  match event.after with
  | some _ => event
  | none =>
    match o.items.get? event.itemId with
    | some item => { event with after := some (o.snapshotOf item) }
    | none => event

theorem told_itemId (o : Office) (event : Event) : (told o event).itemId = event.itemId := by
  unfold told
  split
  · rfl
  · split <;> rfl

theorem told_kind (o : Office) (event : Event) : (told o event).kind = event.kind := by
  unfold told
  split
  · rfl
  · split <;> rfl

/-- The snapshot is taken once, and nothing is written for it. -/
theorem exec_withSnapshot (h : checkKey event.itemId = .ok () ∨ event.after ≠ none) :
    (withSnapshot event).exec o = (.ok (told o event), o) := by
  unfold withSnapshot told
  cases hafter : event.after with
  | some snapshot => rfl
  | none =>
    have hkey : checkKey event.itemId = .ok () := h.resolve_right fun hne => hne hafter
    have hfind : (Office.findItem event.itemId true).answer o = .ok (o.items.get? event.itemId) := by
      rw [Office.answer_findItem, hkey]
      show Except.ok ((o.items.get? event.itemId).filter fun _ => true) = _
      cases o.items.get? event.itemId <;> rfl
    simp only
    rw [(Office.reads_findItem event.itemId true).exec_bind, hfind]
    cases o.items.get? event.itemId with
    | some item => rfl
    | none => rfl

/-- An event that tells nothing about an item that cannot be stored is not looked at. -/
theorem exec_withSnapshot_error {fault : Fault} (hkey : checkKey event.itemId = .error fault)
    (hafter : event.after = none) : (withSnapshot event).exec o = (.error fault, o) := by
  have hfind : (Office.findItem event.itemId true).answer o = .error fault := by
    rw [Office.answer_findItem, hkey]
    rfl
  unfold withSnapshot
  rw [hafter]
  simp only
  rw [(Office.reads_findItem event.itemId true).exec_bind, hfind]

theorem itemId_of_withSnapshot {event' : Event} (h : (withSnapshot event).answer o = .ok event') :
    event'.itemId = event.itemId := by
  have hexec : (withSnapshot event).exec o = (.ok (told o event), o) := by
    cases hkey : checkKey event.itemId with
    | ok _ => exact exec_withSnapshot (.inl hkey)
    | error fault =>
      refine exec_withSnapshot (.inr fun hafter => ?_)
      rw [Task.answer, exec_withSnapshot_error hkey hafter] at h
      cases h
  rw [Task.answer, hexec] at h
  cases h
  exact told_itemId o event

/-! ## Who is to fire -/

/-- The trigger matches the event, and the conditions hold for what it tells. -/
structure Matches (a : Automation) (event : Event) (today : Date) : Prop where
  triggered : Trigger.matchesEvent a.trigger event today = .ok true
  met : Condition.conditionsHold a.conditions (event.after.getD []) = .ok true

theorem answers_eq_ok_true : answers a event today = .ok true ↔ Matches a event today := by
  unfold answers
  constructor
  · intro h
    obtain ⟨isTriggered, htriggered, h⟩ := Result.bind_eq_ok h
    cases isTriggered with
    | true => exact ⟨htriggered, h⟩
    | false => cases h
  · intro h
    rw [h.triggered]
    exact h.met

/-- Does the automation answer, without a fault? -/
def isAnswered (event : Event) (today : Date) (a : Automation) : Bool :=
  match answers a event today with
  | .ok isMet => isMet
  | .error _ => false

theorem isAnswered_iff : isAnswered event today a = true ↔ Matches a event today := by
  rw [← answers_eq_ok_true]
  unfold isAnswered
  cases answers a event today with
  | ok isMet => simp
  | error fault => simp

/-- The automation is to fire: it is an active one of the board, and answers the event as it is told in
    front of all actions. -/
structure Due (o : Office) (event : Event) (today : Date) (a : Automation) : Prop where
  stored : a ∈ o.automations.rows
  onBoard : a.boardId = event.boardId
  active : a.isActive = true
  answers : Matches a (told o event) today

/-- The automations that are to fire. -/
def due (o : Office) (event : Event) (today : Date) : List Automation :=
  (activeOn o event.boardId).filter (isAnswered (told o event) today)

theorem mem_activeOn {boardId : Int} :
    a ∈ activeOn o boardId ↔ a ∈ o.automations.rows ∧ a.boardId = boardId ∧ a.isActive = true := by
  unfold activeOn
  rw [(List.mergeSort_perm _ _).mem_iff, List.mem_filter, Bool.and_eq_true, beq_iff_eq]

theorem mem_due : a ∈ due o event today ↔ Due o event today a := by
  unfold due
  rw [List.mem_filter, mem_activeOn, isAnswered_iff]
  constructor
  · rintro ⟨⟨hstored, hboard, hactive⟩, hanswers⟩
    exact ⟨hstored, hboard, hactive, hanswers⟩
  · rintro ⟨hstored, hboard, hactive, hanswers⟩
    exact ⟨⟨hstored, hboard, hactive⟩, hanswers⟩

/-- The automation is not younger than the other one. -/
def Older (a b : Automation) : Prop :=
  a.createdAt.micros < b.createdAt.micros ∨
    a.createdAt.micros = b.createdAt.micros ∧ a.id ≤ b.id

/-- They fire oldest first. -/
theorem due_sorted (o : Office) (event : Event) (today : Date) :
    (due o event today).Pairwise Older := by
  have hsorted : (activeOn o event.boardId).Pairwise Older :=
    pairwise_oldest (fun a : Automation => a.createdAt.micros) (fun a => a.id) _
  exact hsorted.filter _

/-- Each fires once. -/
theorem due_nodup (hkeys : o.automations.KeysDistinct) (event : Event) (today : Date) :
    ((due o event today).map (·.id)).Nodup := by
  have hactive : ((activeOn o event.boardId).map (·.id)).Nodup := hkeys.mergeSort_filter _ _
  exact List.Nodup.sublist (List.filter_sublist.map _) hactive

/-! ## Running them -/

/-- The row about a run. -/
def logRow (a : Automation) (event : Event) (results : List ActionResult) (now : Moment) (id : Int) :
    ExecutionLog :=
  let reasons := results.filterMap fun r => r.failure.filter fun reason => !reason.isEmpty
  { id
    automationId := a.id
    itemId := event.itemId
    eventType := event.kind.word
    status := ActionResult.statusOf results
    results
    error := if reasons.isEmpty then none else some ("; ".intercalate reasons)
    executedAt := now }

/-- The office with a row about a run. -/
def logged (o : Office) (a : Automation) (event : Event) (results : List ActionResult) : Office :=
  { o with logs := o.logs.add (logRow a event results o.clock) }

theorem exec_log (hkey : checkKey event.itemId = .ok ()) (results : List ActionResult) :
    (log a event results).exec o = (.ok (), logged o a event results) := by
  unfold log
  rw [hkey]
  rfl

/-- Automations ran one after another: the actions of each were executed behind those of the ones in front,
    one result for each, and then a row was added to the log. -/
inductive Ran (event : Event) : Office → List Automation → List Firing → Office → Prop where
  | nil (o : Office) : Ran event o [] [] o
  | cons {o o' o'' : Office} {a : Automation} {rest : List Automation} {actions : List Value}
      {results : List ActionResult} {firings : List Firing} (hactions : a.actions = .list actions)
      (hexec : (Action.executeAll a.actions event (some a.id)).exec o = (.ok results, o'))
      (htypes : results.map (·.type) = actions.map Action.typeOf)
      (hrest : Ran event (logged o' a event results) rest firings o'') :
      Ran event o (a :: rest) (⟨a.id, results⟩ :: firings) o''

/-- The automation leaves everything as it is, and nothing comes of it. -/
def PassedOver (a : Automation) (event : Event) (today : Date) (o : Office) : Prop :=
  ∃ r, (Task.attempt (run a event today)).exec o = (.ok r, o) ∧ ∀ f, r ≠ .ok (some f)

theorem exec_runAll_of_passedOver (h : PassedOver a event today o) (rest : List Automation) :
    (runAll event today (a :: rest)).exec o = (runAll event today rest).exec o := by
  obtain ⟨r, hattempt, hnone⟩ := h
  rw [runAll, Task.exec_bind_ok hattempt, Task.exec_bind]
  rcases (runAll event today rest).exec o with ⟨fault | firings, o'⟩
  · rfl
  · rcases r with fault | _ | f
    · rfl
    · rfl
    · exact absurd rfl (hnone f)

/-- An automation that does not answer is passed over, also where its matching fails. -/
theorem passedOver_of_unanswered (h : isAnswered event today a = false) :
    PassedOver a event today o := by
  unfold PassedOver run isAnswered at *
  rw [Task.exec_attempt, Reads.exec_bind (.ofResult _), Task.answer_ofResult]
  cases hanswers : answers a event today with
  | error fault => exact ⟨.error fault, rfl, nofun⟩
  | ok isMet =>
    rw [hanswers] at h
    simp only at h
    rw [h]
    exact ⟨.ok none, rfl, nofun⟩

/-- An automation that answers runs, and returns. -/
theorem exec_run (hkey : checkKey event.itemId = .ok ()) (hlisted : Listed a)
    (h : isAnswered event today a = true) :
    ∃ actions results o', a.actions = .list actions ∧
      (Action.executeAll a.actions event (some a.id)).exec o = (.ok results, o') ∧
      results.map (·.type) = actions.map Action.typeOf ∧
      (run a event today).exec o = (.ok (some ⟨a.id, results⟩), logged o' a event results) := by
  obtain ⟨actions, hactions, -, hvalid⟩ := hlisted
  obtain ⟨results, hanswer, htypes⟩ := Action.returns_executeAll
    (Action.objects_of_validated hvalid) event (some a.id) o
  rw [← hactions] at hanswer
  have hexec : (Action.executeAll a.actions event (some a.id)).exec o =
      (.ok results, (Action.executeAll a.actions event (some a.id)).after o) := Prod.ext hanswer rfl
  refine ⟨actions, results, _, hactions, hexec, htypes, ?_⟩
  unfold run
  rw [answers_eq_ok_true.mpr (isAnswered_iff.mp h), Reads.exec_bind (.ofResult _),
    Task.answer_ofResult]
  simp only [if_true]
  rw [Task.exec_bind_ok hexec, Task.exec_bind_ok (exec_log hkey results)]
  rfl

/-- By induction on the automations: those that answer run, whatever the ones in front of them did. -/
theorem exec_runAll (hkey : checkKey event.itemId = .ok ()) {automations : List Automation}
    (hlisted : ∀ a ∈ automations, Listed a) (o : Office) :
    ∃ firings o', (runAll event today automations).exec o = (.ok firings, o') ∧
      Ran event o (automations.filter (isAnswered event today)) firings o' := by
  induction automations generalizing o with
  | nil => exact ⟨[], o, rfl, .nil o⟩
  | cons a rest ih =>
    have hrest : ∀ b ∈ rest, Listed b := fun b hb => hlisted b (List.mem_cons_of_mem _ hb)
    cases hanswers : isAnswered event today a with
    | true =>
      obtain ⟨actions, results, o', hactions, hexec, htypes, hrun⟩ :=
        exec_run (o := o) hkey (hlisted a (List.mem_cons_self ..)) hanswers
      obtain ⟨firings, o'', hothers, hran⟩ := ih hrest (logged o' a event results)
      have hattempt : (Task.attempt (run a event today)).exec o =
          (.ok (.ok (some ⟨a.id, results⟩)), logged o' a event results) := by
        rw [Task.exec_attempt, hrun]
      refine ⟨⟨a.id, results⟩ :: firings, o'', ?_, ?_⟩
      · rw [runAll, Task.exec_bind_ok hattempt, Task.exec_bind_ok hothers]
        rfl
      · rw [List.filter_cons_of_pos hanswers]
        exact .cons hactions hexec htypes hran
    | false =>
      rw [exec_runAll_of_passedOver (passedOver_of_unanswered hanswers),
        List.filter_cons_of_neg (by simp [hanswers])]
      exact ih hrest o

/-- Each firing is the one of its automation. -/
theorem Ran.ids {o' : Office} {fired : List Automation} {firings : List Firing}
    (h : Ran event o fired firings o') : firings.map (·.automationId) = fired.map (·.id) := by
  induction h with
  | nil => rfl
  | cons _ _ _ _ ih => rw [List.map_cons, List.map_cons, ih]

/-- A row of the log tells about a firing. -/
structure Tells (event : Event) (f : Firing) (row : ExecutionLog) : Prop where
  automation : row.automationId = f.automationId
  item : row.itemId = event.itemId
  event : row.eventType = event.kind.word
  results : row.results = f.results
  status : ActionResult.Summarised row.status f.results

/-- Each firing is told in one new row. -/
theorem Ran.logs {o' : Office} {fired : List Automation} {firings : List Firing}
    (h : Ran event o fired firings o') (hlisted : ∀ a ∈ fired, Listed a) :
    ∃ rows, o'.logs.rows = o.logs.rows ++ rows ∧ List.Forall₂ (Tells event) firings rows := by
  induction h with
  | nil => exact ⟨[], (List.append_nil _).symm, .nil⟩
  | @cons o o' o'' a rest actions results firings hactions hexec htypes _ ih =>
    obtain ⟨rows, hrows, htells⟩ := ih fun b hb => hlisted b (List.mem_cons_of_mem _ hb)
    -- There are actions, so there are results.
    have hresults : results ≠ [] := by
      obtain ⟨actions', hactions', hne, -⟩ := hlisted a (List.mem_cons_self ..)
      obtain rfl : actions' = actions := Value.list.inj (hactions'.symm.trans hactions)
      rintro rfl
      exact hne (List.map_eq_nil_iff.mp htypes.symm)
    have hkept : o'.logs = o.logs := by
      have hsame := Action.logs_executeAll a.actions event (some a.id) o
      rw [Task.after, hexec] at hsame
      exact hsame
    refine ⟨logRow a event results o'.clock o'.logs.nextKey :: rows, ?_, .cons ?_ htells⟩
    · rw [hrows, ← hkept, List.append_cons]
      rfl
    · exact ⟨rfl, rfl, rfl, rfl, ActionResult.summarised_statusOf hresults⟩

/-! ## Items that cannot be stored -/

section Unstorable

variable {fault : Fault}

/-- Nothing is executed on an item that cannot be stored. -/
theorem reads_execute_unstorable (hkey : checkKey event.itemId = .error fault) (type config : Value)
    (automation : Option Int) : Reads (Action.execute type config event automation) := by
  intro o
  have hitem : (Office.requireItem event.itemId true).answer o = .error fault := by
    rw [Office.answer_requireItem, hkey]
    rfl
  rcases Action.effect_execute type config event automation o with hsame | ⟨_, item, -, hfound, -⟩
  · exact hsame
  · rw [hitem] at hfound
    cases hfound

/-- An event about an item that cannot be stored fires nothing: there is no row for it in the log. -/
theorem passedOver_unstorable (hkey : checkKey event.itemId = .error fault) (hlisted : Listed a) :
    PassedOver a event today o := by
  cases hanswers : isAnswered event today a with
  | false => exact passedOver_of_unanswered hanswers
  | true =>
    obtain ⟨actions, hactions, -, hvalid⟩ := hlisted
    have hobjects := Action.objects_of_validated hvalid
    obtain ⟨results, hanswer, -⟩ := Action.returns_executeAll hobjects event (some a.id) o
    have hexec : (Action.executeAll a.actions event (some a.id)).exec o = (.ok results, o) := by
      have hreads : Reads (Action.executeAll (.list actions) event (some a.id)) :=
        Action.keeps_executeAll_of_execute
          (fun type config => reads_execute_unstorable hkey type config (some a.id)) _
      rw [hactions, hreads.exec_eq, hanswer]
    have hlog : (log a event results).exec o = (.error fault, o) := by
      unfold log
      rw [hkey]
      rfl
    have hrun : (run a event today).exec o = (.error fault, o) := by
      unfold run
      rw [answers_eq_ok_true.mpr (isAnswered_iff.mp hanswers), Reads.exec_bind (.ofResult _),
        Task.answer_ofResult]
      simp only [if_true]
      rw [Task.exec_bind_ok hexec, Task.exec_bind, hlog]
    refine ⟨.error fault, ?_, nofun⟩
    rw [Task.exec_attempt, hrun]

theorem exec_runAll_unstorable (hkey : checkKey event.itemId = .error fault)
    {automations : List Automation} (hlisted : ∀ a ∈ automations, Listed a) :
    (runAll event today automations).exec o = (.ok [], o) := by
  induction automations with
  | nil => rfl
  | cons a rest ih =>
    rw [exec_runAll_of_passedOver (passedOver_unstorable hkey (hlisted a (List.mem_cons_self ..)))]
    exact ih fun b hb => hlisted b (List.mem_cons_of_mem _ hb)

end Unstorable

/-! ## What comes of an event -/

theorem exec_fire (hkey : checkKey event.itemId = .ok ())
    (hlisted : ∀ a ∈ o.automations.rows, Listed a) (today : Date) :
    ∃ firings o', (fire event today).exec o = (.ok firings, o') ∧
      Ran (told o event) o (due o event today) firings o' := by
  unfold fire
  rw [Task.exec_get_bind]
  simp only
  split
  · next hempty =>
    refine ⟨[], o, rfl, ?_⟩
    unfold due
    rw [List.isEmpty_iff.mp hempty]
    exact .nil o
  · have hattempt : (Task.attempt (withSnapshot event)).exec o = (.ok (.ok (told o event)), o) := by
      rw [Task.exec_attempt, exec_withSnapshot (.inl hkey)]
    rw [Task.exec_bind_ok hattempt]
    rw [← told_itemId o] at hkey
    exact exec_runAll hkey (fun a ha => hlisted a (mem_activeOn.mp ha).1) o

theorem exec_fire_unstorable {fault : Fault} (hkey : checkKey event.itemId = .error fault)
    (hlisted : ∀ a ∈ o.automations.rows, Listed a) :
    (fire event today).exec o = (.ok [], o) := by
  unfold fire
  rw [Task.exec_get_bind]
  simp only
  split
  · rfl
  · have hactive : ∀ a ∈ activeOn o event.boardId, Listed a := fun a ha =>
      hlisted a (mem_activeOn.mp ha).1
    by_cases hafter : event.after = none
    · have hattempt : (Task.attempt (withSnapshot event)).exec o = (.ok (.error fault), o) := by
        rw [Task.exec_attempt, exec_withSnapshot_error hkey hafter]
      rw [Task.exec_bind_ok hattempt]
      rfl
    · have hattempt : (Task.attempt (withSnapshot event)).exec o = (.ok (.ok (told o event)), o) := by
        rw [Task.exec_attempt, exec_withSnapshot (.inr hafter)]
      rw [Task.exec_bind_ok hattempt]
      rw [← told_itemId o] at hkey
      exact exec_runAll_unstorable hkey hactive

theorem exec_react {today : Option Date} {firings : List Firing} {o' : Office}
    (h : (fire event (today.getD o.clock.date)).exec o = (.ok firings, o')) :
    (react event today).exec o =
      (.ok firings, { o' with heard := ⟨event, some firings⟩ :: o'.heard }) := by
  unfold react
  rw [Task.exec_get_bind, Task.exec_bind_ok h]
  rfl

/-- What comes of an event about an item that can be stored: the automations that are due have fired. -/
structure Fires (o : Office) (event : Event) (today : Date) (fired : List Automation)
    (firings : List Firing) (o' : Office) : Prop where
  /-- The ones that match the event as it was told in front of all actions, and no others. -/
  exactly (a : Automation) : a ∈ fired ↔ Due o event today a
  once : (fired.map (·.id)).Nodup
  ordered : fired.Pairwise Older
  ran : Ran (told o event) o fired firings o'
  answered : firings.map (·.automationId) = fired.map (·.id)
  /-- Each of them has its row in the log, with one result for each action. -/
  logs : ∃ rows, o'.logs.rows = o.logs.rows ++ rows ∧ List.Forall₂ (Tells event) firings rows

/-- An event that is told to automations which were saved is always answered. If its item can be stored,
    exactly the automations that are due fire; if not, none does and nothing changes. -/
theorem fires_due (hkeys : o.automations.KeysDistinct) (hsaved : ∀ a ∈ o.automations.rows, a.Saved)
    (event : Event) (today : Option Date) :
    ∃ firings o', (react event today).exec o =
        (.ok firings, { o' with heard := ⟨event, some firings⟩ :: o'.heard }) ∧
      (checkKey event.itemId = .ok () →
        ∃ fired, Fires o event (today.getD o.clock.date) fired firings o') ∧
      (checkKey event.itemId ≠ .ok () → firings = [] ∧ o' = o) := by
  have hlisted : ∀ a ∈ o.automations.rows, Listed a := fun a ha => (hsaved a ha).listed
  cases hkey : checkKey event.itemId with
  | error fault =>
    refine ⟨[], o, exec_react (exec_fire_unstorable hkey hlisted), nofun, fun _ => ⟨rfl, rfl⟩⟩
  | ok _ =>
    obtain ⟨firings, o', hfire, hran⟩ := exec_fire hkey hlisted (today.getD o.clock.date)
    have hdue : ∀ a ∈ due o event (today.getD o.clock.date), Listed a := fun a ha =>
      hlisted a (mem_due.mp ha).stored
    obtain ⟨rows, hrows, htells⟩ := hran.logs hdue
    refine ⟨firings, o', exec_react hfire, fun _ => ⟨due o event (today.getD o.clock.date), ?_⟩,
      fun hne => absurd rfl hne⟩
    refine ⟨fun a => mem_due, due_nodup hkeys event _, due_sorted o event _, hran, hran.ids, rows,
      hrows, htells.imp fun _ _ h => ?_⟩
    exact ⟨h.automation, h.item.trans (told_itemId o event),
      h.event.trans (congrArg EventKind.word (told_kind o event)), h.results, h.status⟩

/-! ## A small office -/

/-- Whenever an item is updated, its status is changed. -/
def closing : Automation where
  id := 1
  boardId := 1
  name := "Close"
  description := ""
  trigger := .object [("type", .text "item_updated")]
  conditions := .null
  actions := .list [Action.plainChange]
  isActive := true
  createdBy := "A"
  createdAt := ⟨0⟩
  updatedAt := ⟨0⟩

/-- The small office, with A as its owner and no automation yet. -/
def owned : Office := { Site.small.office with members := ⟨[⟨1, 1, "A", "owner"⟩]⟩ }

/-- The office behind A making the automation. -/
def automated : Office := { owned with automations := ⟨[closing]⟩ }

theorem saved_closing : ∀ a ∈ automated.automations.rows, a.Saved := by
  intro a ha
  obtain rfl := List.mem_singleton.mp ha
  let payload : Value := .object [("boardId", .int 1), ("name", .text "Close"),
    ("trigger", closing.trigger), ("actions", closing.actions)]
  have hcreated : (create payload (some "A")).answer owned = .ok closing := by
    with_unfolding_all rfl
  exact .created hcreated

/-- An update of an item is answered by the automation. -/
theorem due_closing {event : Event} (hboard : event.boardId = 1) (hkind : event.kind = .itemUpdated) :
    Due automated event today closing where
  stored := List.mem_singleton_self _
  onBoard := hboard.symm
  active := rfl
  answers := by
    refine ⟨?_, rfl⟩
    show Except.ok ((told automated event).kind == .itemUpdated) = _
    rw [told_kind, hkind]
    rfl

/-- Three automations for the same updates. The clock was set back before each of the others was made. -/
def tardy : Automation := { closing with createdAt := ⟨5⟩, updatedAt := ⟨5⟩ }

/-- The second one is for totals that exceed an integer which is too large for a double. -/
def wary : Automation :=
  { closing with
    id := 2
    name := "Close the rest"
    conditions := .object [("type", .text "greater_than"), ("field", .text "total"),
      ("value", .int (Int.pow 10 400))]
    createdAt := ⟨3⟩
    updatedAt := ⟨3⟩ }

def prompt : Automation := { closing with id := 3, name := "Close first" }

/-- The office with all of them. -/
def crowded : Office := { owned with automations := ⟨[tardy, wary, prompt]⟩ }

theorem saved_crowded : ∀ a ∈ crowded.automations.rows, a.Saved := by
  let payload (a : Automation) : Value := .object [("boardId", .int 1), ("name", .text a.name),
    ("trigger", a.trigger), ("actions", a.actions), ("conditions", a.conditions)]
  have htardy : (create (payload tardy) (some "A")).answer { owned with clock := ⟨5⟩ } = .ok tardy := by
    with_unfolding_all rfl
  have hwary : (create (payload wary) (some "A")).answer
      { owned with clock := ⟨3⟩, automations := ⟨[tardy]⟩ } = .ok wary := by
    with_unfolding_all rfl
  have hprompt : (create (payload prompt) (some "A")).answer
      { owned with automations := ⟨[tardy, wary]⟩ } = .ok prompt := by
    with_unfolding_all rfl
  exact List.forall_mem_cons.mpr ⟨.created htardy,
    List.forall_mem_cons.mpr ⟨.created hwary, List.forall_mem_singleton.mpr (.created hprompt)⟩⟩

/-- The item is updated by A. -/
def updating : Event := { itemId := 1, boardId := 1, user := some "A", kind := .itemUpdated }

/-- Whether the missing total exceeds the integer cannot be told, so the event is not answered. -/
theorem not_due_wary : ¬ Due crowded updating crowded.clock.date wary := by
  intro hdue
  have hmet := hdue.answers.met
  have hstuck : (Condition.conditionsHold wary.conditions ((told crowded updating).after.getD [])).isOk =
      false := by decide +kernel
  rw [hmet] at hstuck
  cases hstuck

/-- The other two are due. -/
theorem due_crowded {a : Automation} :
    Due crowded updating crowded.clock.date a ↔ a ∈ [prompt, tardy] := by
  constructor
  · intro h
    rcases List.mem_cons.mp h.stored with rfl | hstored
    · exact List.mem_cons_of_mem _ (List.mem_singleton_self _)
    · rcases List.mem_cons.mp hstored with rfl | hstored
      · exact absurd h not_due_wary
      · obtain rfl := List.mem_singleton.mp hstored
        exact List.mem_cons_self ..
  · have hmatches (a : Automation) (htrigger : a.trigger = closing.trigger)
        (hconditions : a.conditions = .null) : Matches a (told crowded updating) crowded.clock.date := by
      refine ⟨?_, ?_⟩
      · rw [htrigger]
        with_unfolding_all rfl
      · rw [hconditions]
        rfl
    intro h
    rcases List.mem_cons.mp h with rfl | h
    · exact ⟨by simp [crowded], rfl, rfl, hmatches prompt rfl rfl⟩
    · obtain rfl := List.mem_singleton.mp h
      exact ⟨by simp [crowded], rfl, rfl, hmatches tardy rfl rfl⟩

/-- No other list holds the two of them, each once and in the order of their making. -/
theorem Fires.eq_crowded {fired : List Automation} {firings : List Firing} {o' : Office}
    (h : Fires crowded updating crowded.clock.date fired firings o') : fired = [prompt, tardy] := by
  have hmem (a : Automation) : a ∈ fired ↔ a ∈ [prompt, tardy] := (h.exactly a).trans due_crowded
  have hperm : fired.Perm [prompt, tardy] :=
    (List.perm_ext_iff_of_nodup (h.once.of_map _) (.of_map (·.id) (by decide))).mpr hmem
  have hordered : [prompt, tardy].Pairwise Older := List.pairwise_pair.mpr (.inl (by decide))
  refine hperm.eq_of_pairwise ?_ h.ordered hordered
  intro a b ha hb hab hba
  -- Of two automations that are each older than the other the keys agree.
  have hid : a.id = b.id := by
    unfold Older at hab hba
    omega
  exact List.inj_on_of_nodup_map h.once ha ((hmem b).mpr hb) hid

/-- On the office with three automations the one that cannot be matched is skipped. The others fire in the
    order in which they were made, which is not that of their rows. -/
theorem fires_due_small :
    let event : Event := { itemId := 1, boardId := 1, user := some "A", kind := .itemUpdated }
    ∃ firings, (react event).answer crowded = .ok firings ∧
      firings.map (·.automationId) = [3, 1] := by
  intro event
  have hkeys : crowded.automations.KeysDistinct := by
    show ([1, 2, 3] : List Int).Nodup
    decide
  obtain ⟨firings, o', hreact, hfires, -⟩ := fires_due hkeys saved_crowded event none
  obtain ⟨fired, hfired⟩ := hfires rfl
  refine ⟨firings, congrArg Prod.fst hreact, ?_⟩
  rw [hfired.answered, hfired.eq_crowded]
  rfl

/-- An event that tells about an item which cannot be stored is answered by the automation, but does not
    fire it, and is not logged. -/
theorem due_unfired :
    let event : Event :=
      { itemId := 9223372036854775808, boardId := 1, user := some "A", kind := .itemUpdated
        after := some [] }
    (∀ a ∈ automated.automations.rows, a.Saved) ∧ Due automated event automated.clock.date closing ∧
      (react event).answer automated = .ok [] ∧ ((react event).after automated).logs.rows = [] := by
  intro event
  have hlisted : ∀ a ∈ automated.automations.rows, Listed a := fun a ha => (saved_closing a ha).listed
  have hfire : (fire event automated.clock.date).exec automated = (.ok [], automated) := by
    apply exec_fire_unstorable _ hlisted
    · exact .outOfRange "Python int too large to convert to SQLite INTEGER"
    · rfl
  have hreact : (react event).exec automated =
      (.ok [], { automated with heard := ⟨event, some []⟩ :: automated.heard }) := exec_react hfire
  refine ⟨saved_closing, due_closing rfl rfl, congrArg Prod.fst hreact, ?_⟩
  rw [Task.after, hreact]
  rfl

end Automations

end Signoff
