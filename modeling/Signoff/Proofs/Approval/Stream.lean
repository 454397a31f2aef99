import Signoff.Proofs.Approval.Clearing
import Signoff.Proofs.Approval.Emitting
import Signoff.Proofs.Approval.Finality

/-! # The stream of events

    A recorder hears, along a run, of rows that wait and of levels that are
    completed. What it hears fits the approvals:

    * `Event.Submits`, `Event.Completes`: the events that count.
    * `Site.Recounts`: what one operation tells. `recounts_after`: every recorded
      operation tells so.
    * `Site.stream`: what a run tells. `count_stream_eq_zero`: it tells nothing of
      a kind unless one of its operations does.
    * `Site.RecordsSteadily`: every operation is recorded, and under one workflow.
    * `stream_of_steady`: in such a run every row is told of as it was created, and
      every level is completed once at most.
-/

namespace Signoff

variable {s s' : Site} {itemId key : Int} {item : Item} {w : Workflow} {e : Evaluation}
  {a d : Approval} {l : Level} {requested : Value} {actor comments : Option String} {c : Channels}
  {op : Operation} {ops before later : List Operation} {asked : List Approval} {told : List Event}
  {fault : Fault}

/-! ## Events that count -/

namespace Event

/-- The event tells that the row of a key waits for its decision. -/
def Submits (key : Int) (event : Event) : Prop :=
  event.kind = .approvalSubmitted ∧ event.approval.bind (·.approvalId) = some key

instance (key : Int) (event : Event) : Decidable (event.Submits key) :=
  inferInstanceAs (Decidable (_ ∧ _))

/-- The event tells that a level of the item is completed. -/
def Completes (itemId : Int) (l : Level) (event : Event) : Prop :=
  event.kind = .levelCompleted ∧ event.itemId = itemId ∧
    event.approval.map (·.level) = some l.name

instance (itemId : Int) (l : Level) (event : Event) : Decidable (event.Completes itemId l) :=
  inferInstanceAs (Decidable (_ ∧ _ ∧ _))

end Event

namespace Item

/-- Each row is told of under its key. -/
theorem count_submits_submitted (item : Item) (actor : Option String) (asked : List Approval)
    (key : Int) :
    (asked.map (item.submitted actor)).countP (fun event => event.Submits key) =
      (asked.map (·.id)).count key := by
  rw [List.countP_map, List.count, List.countP_map]
  refine List.countP_congr fun a _ => ?_
  simp [Event.Submits, submitted, event, Channels.noteOf]

theorem count_completes_submitted (item : Item) (actor : Option String) (asked : List Approval)
    (itemId : Int) (l : Level) :
    (asked.map (item.submitted actor)).countP (fun event => event.Completes itemId l) = 0 := by
  rw [List.countP_eq_zero]
  intro told htold
  obtain ⟨a, -, rfl⟩ := List.mem_map.mp htold
  simp [Event.Completes, submitted, event]

theorem count_submits_decided (item : Item) (actor comments : Option String) (d : Approval)
    (isCompleted : Bool) (asked : List Approval) (key : Int) :
    (item.decided actor comments d isCompleted asked).countP (fun event => event.Submits key) =
      (asked.map (·.id)).count key := by
  unfold decided
  rw [List.countP_append, count_submits_submitted]
  cases d.status <;> cases isCompleted <;> simp [Event.Submits, completed, event]

/-- A decision tells of its own level only. -/
theorem count_completes_decided (item : Item) (actor comments : Option String) (d : Approval)
    (isCompleted : Bool) (asked : List Approval) (itemId : Int) (l : Level) :
    (item.decided actor comments d isCompleted asked).countP
        (fun event => event.Completes itemId l) =
      if d.status = .approved ∧ isCompleted = true ∧ item.id = itemId ∧ d.level = l.name then 1
        else 0 := by
  unfold decided
  rw [List.countP_append, count_completes_submitted]
  cases d.status <;> cases isCompleted <;> simp [Event.Completes, completed, event, List.countP_cons]

end Item

/-! ## What one operation tells -/

namespace Operation

/-- A decision on an approval. -/
def IsDecision : Operation → Prop
  | transition .. => True
  | _ => False

/-- Requests and decisions tell a recorder. Other operations tell nothing about approvals, and none is
    removed. -/
def IsRecorded (s : Site) : Operation → Prop
  | request c _ _ => c.listener = .recorder
  | transition c _ _ _ _ => c.listener = .recorder
  | delete _ _ => False
  | op => Office.Hears (fun event => event.approval = none) s.office (op.after s).office

theorem IsRecorded.not_deletes (h : op.IsRecorded s) : ¬ op.Deletes := by
  intro hdelete
  cases op with
  | delete => exact h
  | _ => exact hdelete

theorem IsRecorded.hears (h : op.IsRecorded s) (hquiet : op.IsQuiet) :
    Office.Hears (fun event => event.approval = none) s.office (op.after s).office := by
  cases op with
  | request | transition | delete => exact absurd hquiet id
  | _ => exact h

end Operation

namespace Site

/-- What an operation tells of rows, and of the levels of an item. -/
structure Recounts (s : Site) (itemId : Int) (w : Workflow) (op : Operation) (told : List Event) :
    Prop where
  events : (op.after s).office.events = s.office.events ++ told
  /-- It tells of just the rows that it adds and that wait for a decision. -/
  submitted : ∃ asked, Grown asked s (op.after s) ∧
    ∀ key, told.countP (·.Submits key) = (asked.map (·.id)).count key
  /-- It tells that a level is completed just if it is a decision that clears the level. -/
  completed : ∀ l, told.countP (·.Completes itemId l) = 1 ↔
    op.IsDecision ∧ Clears w itemId l s (op.after s)
  once : ∀ l, told.countP (·.Completes itemId l) ≤ 1
  /-- A request or a decision that fails tells nothing. -/
  silent : ¬ op.IsQuiet → ∀ fault, op.perform.answer s = .error fault → told = []

namespace Recounts

/-- An operation that tells of no level clears none, if it is a decision. -/
theorem of_uncompleted (hevents : (op.after s).office.events = s.office.events ++ told)
    (hsubmitted : ∃ asked, Grown asked s (op.after s) ∧
      ∀ key, told.countP (·.Submits key) = (asked.map (·.id)).count key)
    (hnone : ∀ l, told.countP (·.Completes itemId l) = 0)
    (hclears : op.IsDecision → ∀ l, ¬ Clears w itemId l s (op.after s))
    (hsilent : ¬ op.IsQuiet → ∀ fault, op.perform.answer s = .error fault → told = []) :
    s.Recounts itemId w op told where
  events := hevents
  submitted := hsubmitted
  completed l := by
    rw [hnone l]
    exact iff_of_false Nat.zero_ne_one fun h => hclears h.1 l h.2
  once l := by
    rw [hnone l]
    exact Nat.zero_le 1
  silent := hsilent

/-- So does one that tells nothing. -/
theorem of_nothing (htold : Emitted [] s (op.after s)) (hgrown : Grown [] s (op.after s))
    (hrows : op.IsDecision → (op.after s).approvalsOf itemId = s.approvalsOf itemId) :
    s.Recounts itemId w op [] :=
  of_uncompleted htold.events ⟨[], hgrown, fun _ => rfl⟩ (fun _ => rfl)
    (fun hdecision _ => not_clears_of_same (hrows hdecision)) fun _ _ _ => rfl

/-- What clears no level tells of none. -/
theorem count_completes_eq_zero (h : s.Recounts itemId w op told)
    (hnot : ¬ Clears w itemId l s (op.after s)) : told.countP (·.Completes itemId l) = 0 := by
  have honce := h.once l
  have hne : ¬ told.countP (·.Completes itemId l) = 1 := fun hone => hnot ((h.completed l).mp hone).2
  omega

end Recounts

/-- A request tells of its rows, and of no level. -/
theorem recounts_request (hc : c.listener = .recorder) (itemId other : Int) (w : Workflow)
    (actor : Option String) : ∃ told, s.Recounts itemId w (.request c other actor) told := by
  have hafter : (Operation.request c other actor).after s =
      (Approvals.request c other actor).after s := Task.after_discard _ s
  cases hanswer : (Approvals.request c other actor).answer s with
  | error fault =>
    obtain ⟨htold, hgrown⟩ := Approvals.silent_request hanswer
    rw [← hafter] at htold hgrown
    exact ⟨[], .of_nothing htold hgrown False.elim⟩
  | ok created =>
    obtain ⟨item, -, htold, hgrown⟩ := Approvals.emitted_request hc hanswer
    rw [← hafter] at htold hgrown
    refine ⟨_, .of_uncompleted htold.events ⟨_, hgrown, item.count_submits_submitted actor _⟩
      (item.count_completes_submitted actor _ itemId) False.elim fun _ fault hfault => ?_⟩
    cases hanswer.symm.trans (Task.answer_discard_eq_error hfault)

/-- A decision tells of the rows that are opened behind it, and of its level if it clears it. -/
theorem recounts_transition (htidy : s.Tidy) (hkeys : s.approvals.KeysDistinct)
    (hsaid : s.Says itemId w e) (hc : c.listener = .recorder) (key : Int) (requested : Value)
    (actor comments : Option String) :
    ∃ told, s.Recounts itemId w (.transition c key requested actor comments) told := by
  have hafter : (Operation.transition c key requested actor comments).after s =
      (Approvals.transition c key requested actor comments).after s := Task.after_discard _ s
  cases hanswer : (Approvals.transition c key requested actor comments).answer s with
  | error fault =>
    obtain ⟨htold, hgrown⟩ := Approvals.silent_transition htidy hkeys hanswer
    have hrows := Approvals.approvalsOf_of_error htidy hkeys hsaid hanswer
    rw [← hafter] at htold hgrown hrows
    exact ⟨[], .of_nothing htold hgrown fun _ => hrows⟩
  | ok d =>
    obtain ⟨a, next, item, w', asked, hdecision, hd, happrovals, htold, hgrown⟩ :=
      Approvals.emitted_transition hc hanswer
    rw [← hafter] at happrovals htold hgrown
    have hclears (l : Level) := Approvals.clears_iff (l := l) hkeys hsaid hdecision hd happrovals
    refine ⟨_,
      { events := htold.events
        submitted := ⟨asked, hgrown, item.count_submits_decided actor comments d _ asked⟩
        completed := fun l => ?_
        once := fun l => ?_
        silent := fun _ fault hfault => ?_ }⟩
    · rw [item.count_completes_decided, hclears]
      split
      · next h => exact iff_of_true rfl ⟨trivial, h⟩
      · next h => exact iff_of_false Nat.zero_ne_one fun hboth => h hboth.2
    · rw [item.count_completes_decided]
      split
      · exact Nat.le_refl 1
      · exact Nat.zero_le 1
    · cases hanswer.symm.trans (Task.answer_discard_eq_error hfault)

/-- Any other operation tells of no row and of no level. -/
theorem recounts_quiet (hquiet : op.IsQuiet) (hrecorded : op.IsRecorded s) (itemId : Int)
    (w : Workflow) : ∃ told, s.Recounts itemId w op told := by
  obtain ⟨new, hnew, hnone⟩ := hrecorded.hears hquiet
  have hnever (P : Event → Prop) [DecidablePred P] (hP : ∀ event, P event → event.approval ≠ none) :
      (new.map (·.event)).reverse.countP (fun event => P event) = 0 := by
    rw [List.countP_eq_zero]
    intro event hevent hcounts
    obtain ⟨hearing, hmem, rfl⟩ := List.mem_map.mp (List.mem_reverse.mp hevent)
    exact hP _ (of_decide_eq_true hcounts) (hnone hearing hmem)
  have hsubmits (key : Int) := hnever (Event.Submits key) (by
    rintro event ⟨-, hkey⟩ hnote
    rw [hnote] at hkey
    cases hkey)
  have hcompletes (l : Level) := hnever (Event.Completes itemId l) (by
    rintro event ⟨-, -, hlevel⟩ hnote
    rw [hnote] at hlevel
    cases hlevel)
  have hsame : (op.after s).approvals = s.approvals := Operation.approvals_after hquiet
  have hevents : (op.after s).office.events = s.office.events ++ (new.map (·.event)).reverse := by
    unfold Office.events
    rw [hnew, List.map_append, List.reverse_append]
  exact ⟨_, .of_uncompleted hevents ⟨[], .of_same hsame, hsubmits⟩ hcompletes
    (fun _ _ => not_clears_of_same (approvalsOf_congr hsame itemId)) fun hcall => absurd hquiet hcall⟩

/-- A sound site with a tidy table. -/
structure Regular (s : Site) : Prop extends Sound s where
  tidy : s.Tidy

namespace Regular

theorem after (h : s.Regular) (op : Operation) : (op.after s).Regular where
  toSound := h.toSound.after op
  tidy := h.tidy.after h.keysDistinct op

theorem run (h : s.Regular) (ops : List Operation) : (s.run ops).Regular where
  toSound := h.toSound.run ops
  tidy := h.tidy.run h.keysDistinct ops

end Regular

/-- Every recorded operation tells what it should. -/
theorem recounts_after (hs : s.Regular) (hsaid : s.Says itemId w e)
    (hrecorded : op.IsRecorded s) : ∃ told, s.Recounts itemId w op told := by
  by_cases hquiet : op.IsQuiet
  · exact recounts_quiet hquiet hrecorded itemId w
  · cases op with
    | request c other actor => exact recounts_request hrecorded itemId other w actor
    | transition c key requested actor comments =>
      exact recounts_transition hs.tidy hs.keysDistinct hsaid hrecorded key requested actor comments
    | delete key actor => exact absurd hrecorded id
    | _ => exact absurd trivial hquiet

/-! ## What a run tells -/

/-- What was told along a run, in order. -/
def stream (s : Site) (ops : List Operation) : List Event :=
  (s.run ops).office.events.drop s.office.events.length

theorem stream_nil (s : Site) : s.stream [] = [] := List.drop_length

/-- The operations of a run are recorded, and the workflow says the same about the item all along. -/
def RecordsSteadily (itemId : Int) (w : Workflow) (e : Evaluation) (s : Site)
    (ops : List Operation) : Prop :=
  s.Throughout (fun s op => s.Says itemId w e ∧ op.IsRecorded s) ops

namespace RecordsSteadily

theorem left (h : RecordsSteadily itemId w e s (before ++ later)) :
    RecordsSteadily itemId w e s before := (throughout_append.mp h).1

theorem right (h : RecordsSteadily itemId w e s (before ++ later)) :
    RecordsSteadily itemId w e (s.run before) later := (throughout_append.mp h).2

theorem not_deletes (h : RecordsSteadily itemId w e s ops) : ∀ op ∈ ops, ¬ op.Deletes :=
  h.forall_mem fun _ _ hop => hop.2.not_deletes

end RecordsSteadily

/-- Nothing that was heard gets lost. -/
theorem events_run (hs : s.Regular) (hops : RecordsSteadily itemId w e s ops) :
    (s.run ops).office.events = s.office.events ++ s.stream ops := by
  have hprefix : s.office.events <+: (s.run ops).office.events := by
    induction ops generalizing s with
    | nil => exact List.prefix_refl _
    | cons op rest ih =>
      obtain ⟨⟨hsaid, hrecorded⟩, hrest⟩ := hops
      obtain ⟨told, htold⟩ := recounts_after hs hsaid hrecorded
      have hfirst : s.office.events <+: (op.after s).office.events := ⟨told, htold.events.symm⟩
      exact hfirst.trans (ih (hs.after op) hrest)
  obtain ⟨told, htold⟩ := hprefix
  unfold stream
  rw [← htold, List.drop_left]

theorem stream_append (hs : s.Regular) (hops : RecordsSteadily itemId w e s (before ++ later)) :
    s.stream (before ++ later) = s.stream before ++ (s.run before).stream later := by
  have hfront := events_run hs hops.left
  have hbehind := events_run (hs.run before) hops.right
  have hall := events_run hs hops
  rw [run_append, hbehind, hfront, List.append_assoc] at hall
  exact (List.append_cancel_left hall).symm

theorem stream_cons (hs : s.Regular) (hops : RecordsSteadily itemId w e s (op :: later)) :
    s.stream (op :: later) = s.stream [op] ++ (op.after s).stream later := by
  have hops' : RecordsSteadily itemId w e s ([op] ++ later) := hops
  exact stream_append hs hops'

/-- What is told of a kind in front of an operation, by it, and behind it. -/
theorem count_stream_split (hs : s.Regular)
    (hops : RecordsSteadily itemId w e s (before ++ op :: later)) (p : Event → Bool) :
    (s.stream (before ++ op :: later)).countP p = (s.stream before).countP p +
      (((s.run before).stream [op]).countP p + ((op.after (s.run before)).stream later).countP p) := by
  rw [stream_append hs hops, stream_cons (hs.run before) hops.right, List.countP_append,
    List.countP_append]

/-- Every operation of a run tells what it should. -/
theorem recounts_run (hs : s.Regular)
    (hops : RecordsSteadily itemId w e s (before ++ op :: later)) :
    (s.run before).Recounts itemId w op ((s.run before).stream [op]) := by
  obtain ⟨⟨hsaid, hrecorded⟩, -⟩ := hops.right
  obtain ⟨told, htold⟩ := recounts_after (hs.run before) hsaid hrecorded
  have hstream : (s.run before).stream [op] = told := by
    show (op.after (s.run before)).office.events.drop _ = told
    rw [htold.events, List.drop_left]
  rw [hstream]
  exact htold

/-- Nothing of a kind is told unless one of the operations does. -/
theorem count_stream_eq_zero {p : Event → Bool} (hs : s.Regular)
    (hops : RecordsSteadily itemId w e s ops)
    (hzero : ∀ before op later, ops = before ++ op :: later →
      ((s.run before).stream [op]).countP p = 0) : (s.stream ops).countP p = 0 := by
  induction ops generalizing s with
  | nil =>
    rw [stream_nil]
    rfl
  | cons op rest ih =>
    have hfirst : (s.stream [op]).countP p = 0 := hzero [] op rest rfl
    have hrest : ((op.after s).stream rest).countP p = 0 := by
      apply ih (hs.after op) hops.2
      intro before op' later hlater
      exact hzero (op :: before) op' later (by rw [hlater, List.cons_append])
    rw [stream_cons hs hops, List.countP_append, hfirst, hrest]

/-! ## Rows along the stream -/

/-- Keys stay in the table along a run. -/
theorem mem_keys_run (hs : s.Regular) (hops : RecordsSteadily itemId w e s ops)
    (hkey : key ∈ s.approvals.rows.map (·.id)) :
    key ∈ (s.run ops).approvals.rows.map (·.id) := by
  obtain ⟨a, ha, rfl⟩ := List.mem_map.mp hkey
  obtain ⟨a', ha', hkept⟩ :=
    exists_kept_run hs.keysDistinct hops.not_deletes (mem_approvalsOf.mpr ⟨ha, rfl⟩)
  rw [← hkept.id]
  exact List.mem_map_of_mem (mem_approvalsOf.mp ha').1

/-- A row that is there already is not told of. -/
theorem count_submits_of_mem (hs : s.Regular) (hops : RecordsSteadily itemId w e s ops)
    (hkey : key ∈ s.approvals.rows.map (·.id)) : (s.stream ops).countP (·.Submits key) = 0 := by
  apply count_stream_eq_zero hs hops
  rintro before op later rfl
  obtain ⟨asked, hgrown, hcount⟩ := (recounts_run hs hops).submitted
  rw [hcount, List.count_eq_zero]
  intro hasked
  have hkeys := ((hs.run before).after op).keysDistinct
  exact (hgrown.key_of_asked hkeys hasked).2 (mem_keys_run hs hops.left hkey)

/-- Nor is one that is not there at the end. -/
theorem count_submits_of_not_mem (hs : s.Regular) (hops : RecordsSteadily itemId w e s ops)
    (hkey : key ∉ (s.run ops).approvals.rows.map (·.id)) :
    (s.stream ops).countP (·.Submits key) = 0 := by
  apply count_stream_eq_zero hs hops
  rintro before op later rfl
  obtain ⟨asked, hgrown, hcount⟩ := (recounts_run hs hops).submitted
  rw [hcount, List.count_eq_zero]
  intro hasked
  -- The row would be there behind the operation, and so at the end.
  have hs' : (op.after (s.run before)).Regular := (hs.run before).after op
  have hthere := (hgrown.key_of_asked hs'.keysDistinct hasked).1
  apply hkey
  rw [run_append]
  show key ∈ ((op.after (s.run before)).run later).approvals.rows.map (·.id)
  exact mem_keys_run hs' hops.right.2 hthere

/-- Along the whole run, a row that one operation creates is told of once if it waits, and never if it is
    approved. -/
theorem submitted_run (hs : s.Regular)
    (hops : RecordsSteadily itemId w e s (before ++ op :: later))
    (hcreates : Creates a (s.run before) (op.after (s.run before))) :
    a.status = .pending ∧ (s.stream (before ++ op :: later)).countP (·.Submits a.id) = 1 ∨
      a.status = .approved ∧ (s.stream (before ++ op :: later)).countP (·.Submits a.id) = 0 := by
  have hs' : (op.after (s.run before)).Regular := (hs.run before).after op
  obtain ⟨asked, hgrown, hcount⟩ := (recounts_run hs hops).submitted
  have hkey : a.id ∈ (op.after (s.run before)).approvals.rows.map (·.id) :=
    List.mem_map_of_mem hcreates.mem
  have hfront := count_submits_of_not_mem hs hops.left hcreates.isNew
  have hbehind := count_submits_of_mem hs' hops.right.2 hkey
  rw [count_stream_split hs hops, hfront, hbehind, hcount, Nat.zero_add, Nat.add_zero]
  exact hcreates.asked_or_not hgrown hs'.keysDistinct

/-! ## Levels along the stream -/

/-- A level that no operation clears is not completed. -/
theorem count_completes_eq_zero (hs : s.Regular) (hops : RecordsSteadily itemId w e s ops)
    (hnot : ∀ before op later, ops = before ++ op :: later →
      ¬ Clears w itemId l (s.run before) (op.after (s.run before))) :
    (s.stream ops).countP (·.Completes itemId l) = 0 := by
  apply count_stream_eq_zero hs hops
  rintro before op later rfl
  exact (recounts_run hs hops).count_completes_eq_zero (hnot before op later rfl)

/-- So a level that is satisfied is not completed again. -/
theorem count_completes_of_satisfied (hs : s.Regular) (hops : RecordsSteadily itemId w e s ops)
    (h : s.Satisfied w itemId l) : (s.stream ops).countP (·.Completes itemId l) = 0 := by
  apply count_completes_eq_zero hs hops
  rintro before op later rfl hclears
  exact hclears.unsatisfied (h.run hs.toSound hops.left.not_deletes)

/-- And a level that has no rows at the end has never been completed. -/
theorem count_completes_of_empty (hs : s.Regular) (hops : RecordsSteadily itemId w e s ops)
    (h : Approval.on ((s.run ops).approvalsOf itemId) l = []) :
    (s.stream ops).countP (·.Completes itemId l) = 0 := by
  apply count_completes_eq_zero hs hops
  rintro before op later rfl hclears
  have hrows := hasRows_run (hs.run before).toSound hops.right.not_deletes hclears.hasRows
  rw [← run_append] at hrows
  exact hrows h

/-- A level is completed once at most. -/
theorem count_completes_le (hs : s.Regular) (hops : RecordsSteadily itemId w e s ops) (l : Level) :
    (s.stream ops).countP (·.Completes itemId l) ≤ 1 := by
  induction ops generalizing s with
  | nil =>
    rw [stream_nil]
    exact Nat.zero_le 1
  | cons op rest ih =>
    have hops' : RecordsSteadily itemId w e s ([] ++ op :: rest) := hops
    have hrecounts : s.Recounts itemId w op (s.stream [op]) := recounts_run hs hops'
    rw [stream_cons hs hops, List.countP_append]
    by_cases hclears : Clears w itemId l s (op.after s)
    · -- The level is satisfied from here on.
      have hfirst := hrecounts.once l
      have hrest := count_completes_of_satisfied (hs.after op) hops.2 hclears.satisfied
      omega
    · have hfirst := hrecounts.count_completes_eq_zero hclears
      have hrest := ih (hs.after op) hops.2
      omega

/-- A level with a row that was approved when it was created is never completed. -/
theorem unasked_run (hs : s.Regular)
    (hops : RecordsSteadily itemId w e s (before ++ op :: later))
    (hcreates : Creates a (s.run before) (op.after (s.run before))) (hitem : a.itemId = itemId)
    (happroved : a.status = .approved) (hlevel : a.level = l.name) :
    (s.stream (before ++ op :: later)).countP (·.Completes itemId l) = 0 := by
  have hdelete : ¬ op.Deletes := hops.right.1.2.not_deletes
  have hturn := op.turn (hs.run before).keysDistinct hdelete itemId
  have ha : a ∈ (op.after (s.run before)).approvalsOf itemId :=
    mem_approvalsOf.mpr ⟨hcreates.mem, hitem⟩
  have hnew : a.id ∉ ((s.run before).approvalsOf itemId).map (·.id) := by
    intro hmem
    obtain ⟨b, hb, hid⟩ := List.mem_map.mp hmem
    apply hcreates.isNew
    rw [← hid]
    exact List.mem_map_of_mem (mem_approvalsOf.mp hb).1
  obtain ⟨hempty, hsatisfied⟩ := hturn.satisfied_of_unasked ha hnew happroved hlevel
  -- The level had no rows in front, and is satisfied from here on.
  have hfront := count_completes_of_empty hs hops.left hempty
  have hhere := (recounts_run hs hops).count_completes_eq_zero fun hclears => hclears.hasRows hempty
  have hbehind := count_completes_of_satisfied ((hs.run before).after op) hops.right.2 (hsatisfied w)
  rw [count_stream_split hs hops, hfront, hhere, hbehind]

/-! ## The stream of a steady run -/

/-- What a recorder hears along a run, where `w` is the workflow of the item. -/
structure Streams (s : Site) (itemId : Int) (w : Workflow) (ops : List Operation) : Prop where
  /-- Nothing that was heard gets lost. -/
  heard : (s.run ops).office.events = s.office.events ++ s.stream ops
  /-- A row that is created pending is told of once, and one that is created approved never is. -/
  submitted : ∀ before op later a, ops = before ++ op :: later →
    Creates a (s.run before) (op.after (s.run before)) →
      a.status = .pending ∧ (s.stream ops).countP (·.Submits a.id) = 1 ∨
        a.status = .approved ∧ (s.stream ops).countP (·.Submits a.id) = 0
  /-- A level is completed once at most. -/
  once : ∀ l, (s.stream ops).countP (·.Completes itemId l) ≤ 1
  /-- The operation that completes a level is the decision behind which the rows that the level had
      satisfy it for the first time. -/
  completed : ∀ before op later l, ops = before ++ op :: later →
    (((s.run before).stream [op]).countP (·.Completes itemId l) = 1 ↔
      op.IsDecision ∧ Approval.on ((s.run before).approvalsOf itemId) l ≠ [] ∧
        (∀ earlier, earlier <+: before → ¬ (s.run earlier).Satisfied w itemId l) ∧
        (op.after (s.run before)).Satisfied w itemId l)
  /-- A level that got a row that was created approved is never completed. -/
  unasked : ∀ before op later a l, ops = before ++ op :: later →
    Creates a (s.run before) (op.after (s.run before)) → a.itemId = itemId →
      a.status = .approved → a.level = l.name → (s.stream ops).countP (·.Completes itemId l) = 0
  /-- A request or a decision that fails tells nothing. -/
  silent : ∀ before op later fault, ops = before ++ op :: later → ¬ op.IsQuiet →
    op.perform.answer (s.run before) = .error fault → (s.run before).stream [op] = []

/-- A level was not satisfied anywhere in front just if it is not satisfied now. -/
theorem unsatisfied_before_iff (hsound : s.Sound) (hops : ∀ op ∈ before, ¬ op.Deletes) :
    (∀ earlier, earlier <+: before → ¬ (s.run earlier).Satisfied w itemId l) ↔
      ¬ (s.run before).Satisfied w itemId l := by
  constructor
  · intro h
    exact h before (List.prefix_refl before)
  · rintro hnot earlier ⟨rest, rfl⟩ hsatisfied
    rw [run_append] at hnot
    refine hnot (hsatisfied.run (hsound.run earlier) fun op hop => ?_)
    exact hops op (List.mem_append_right _ hop)

/-- In every state of a site that has started without approvals, a recorder hears of a steady run what it
    should. -/
theorem stream_of_steady (hsound : s.Sound) (hnone : s.approvals.rows = [])
    {earlier : List Operation} (hops : RecordsSteadily itemId w e (s.run earlier) ops) :
    (s.run earlier).Streams itemId w ops := by
  have hs : (s.run earlier).Regular :=
    { hsound.run earlier with tidy := (tidy_of_nil hnone).run hsound.keysDistinct earlier }
  exact
    { heard := events_run hs hops
      submitted := by
        rintro before op later a rfl hcreates
        exact submitted_run hs hops hcreates
      once := count_completes_le hs hops
      completed := by
        rintro before op later l rfl
        rw [(recounts_run hs hops).completed l,
          unsatisfied_before_iff hs.toSound hops.left.not_deletes]
        refine and_congr_right fun _ => ?_
        exact ⟨fun h => ⟨h.hasRows, h.unsatisfied, h.satisfied⟩, fun h => ⟨h.1, h.2.1, h.2.2⟩⟩
      unasked := by
        rintro before op later a l rfl hcreates hitem happroved hlevel
        exact unasked_run hs hops hcreates hitem happroved hlevel
      silent := by
        rintro before op later fault rfl hcall hfault
        exact (recounts_run hs hops).silent hcall fault hfault }

/-- On the small site both rows are told of, and both levels are completed. -/
theorem stream_of_steady_small :
    let ops : List Operation := [.request .noted 1 (some "A"),
      .transition .noted 1 (.text "approved") (some "A") none,
      .transition .noted 2 (.text "approved") (some "B") none]
    small.Streams 1 .small ops ∧
      (small.stream ops).map (·.kind) = [.approvalSubmitted, .approvalApproved, .levelCompleted,
        .approvalSubmitted, .approvalApproved, .levelCompleted] := by
  intro ops
  have hnone : small.approvals.rows = [] := rfl
  obtain ⟨hfirst, hsecond, hthird, -⟩ := steady_small
  have hops : RecordsSteadily 1 .small (Workflow.small.evaluationOf []) (small.run []) ops :=
    ⟨⟨hfirst, rfl⟩, ⟨hsecond, rfl⟩, ⟨hthird, rfl⟩, trivial⟩
  have hkinds : (small.stream ops).map (·.kind) = [.approvalSubmitted, .approvalApproved,
      .levelCompleted, .approvalSubmitted, .approvalApproved, .levelCompleted] := by
    decide +kernel
  exact ⟨stream_of_steady sound_small hnone hops, hkinds⟩

end Site

end Signoff
