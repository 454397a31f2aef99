import Signoff.Approval.Decisions
import Signoff.Proofs.Level
import Signoff.Proofs.Routing
import Signoff.Proofs.Table

/-! # Writes to the approvals

    Everything that is written to the table of approvals, as functions of the
    state:

    * `Site.addDrafts`: rows are added behind the others, under new keys.
    * `Site.decide`: a row is replaced by one that is decided.

    The tasks that open levels and record decisions come down to these two.
    Opening a level is never refused: the level has no rows, and its approvers
    are told apart.
-/

namespace Signoff

/-! ## Rows to be added -/

/-- An approval without its key, its item and its moment. -/
structure Draft where
  level : String
  approver : Option String
  status : Status
  comments : Option String

namespace Draft

/-- A level that is passed over. -/
def passedOver (l : Level) : Draft := ⟨l.name, none, .approved, some skippedComment⟩

/-- A question to an approver. -/
def asked (l : Level) (approver : Option String) : Draft := ⟨l.name, approver, .pending, none⟩

/-- A level of an item that needs no approval. -/
def unasked (actor : Option String) (l : Level) : Draft :=
  ⟨l.name, actor, .approved, some autoApprovedComment⟩

/-- The row of a draft. -/
def row (d : Draft) (itemId : Int) (now : Moment) (id : Int) : Approval :=
  { id
    itemId
    level := d.level
    status := d.status
    approver := d.approver
    comments := d.comments
    createdAt := now
    decidedAt := if d.status == .approved then some now else none }

/-- The rows of drafts, with keys that count upwards. -/
def rowsFrom (itemId : Int) (now : Moment) : Int → List Draft → List Approval
  | _, [] => []
  | key, d :: rest => d.row itemId now key :: rowsFrom itemId now (key + 1) rest

variable {itemId : Int} {now : Moment} {key : Int}

/-- Every row carries a draft, and belongs to the item. -/
theorem mem_rowsFrom {ds : List Draft} {a : Approval} (h : a ∈ rowsFrom itemId now key ds) :
    ∃ d ∈ ds, ∃ k, a = d.row itemId now k := by
  induction ds generalizing key with
  | nil => cases h
  | cons d rest ih =>
    rcases List.mem_cons.mp h with rfl | h
    · exact ⟨d, List.mem_cons_self .., key, rfl⟩
    · obtain ⟨d', hd', k, ha⟩ := ih h
      exact ⟨d', List.mem_cons_of_mem _ hd', k, ha⟩

end Draft

/-- What opening a level adds. -/
def Opening.drafts (o : Opening) : List Draft :=
  o.passedOver.map Draft.passedOver ++ o.approvers.map (Draft.asked o.level)

namespace Site

/-- The state with new approvals of an item. -/
def addDrafts (s : Site) (itemId : Int) (ds : List Draft) : Site :=
  { s with approvals :=
    ⟨s.approvals.rows ++ Draft.rowsFrom itemId s.office.clock s.approvals.nextKey ds⟩ }

@[simp] theorem addDrafts_office (s : Site) (itemId : Int) (ds : List Draft) :
    (s.addDrafts itemId ds).office = s.office := rfl

@[simp] theorem addDrafts_known (s : Site) (itemId : Int) (ds : List Draft) :
    (s.addDrafts itemId ds).known = s.known := rfl

@[simp] theorem addDrafts_nil (s : Site) (itemId : Int) : s.addDrafts itemId [] = s := by
  simp [addDrafts, Draft.rowsFrom]

theorem addDrafts_cons (s : Site) (itemId : Int) (d : Draft) (ds : List Draft) :
    (s.addDrafts itemId [d]).addDrafts itemId ds = s.addDrafts itemId (d :: ds) := by
  have hkey : (s.addDrafts itemId [d]).approvals.nextKey = s.approvals.nextKey + 1 :=
    Table.nextKey_append s.approvals rfl
  simp only [addDrafts] at hkey ⊢
  rw [hkey]
  simp [Draft.rowsFrom]

theorem addDrafts_append (s : Site) (itemId : Int) (ds ds' : List Draft) :
    (s.addDrafts itemId ds).addDrafts itemId ds' = s.addDrafts itemId (ds ++ ds') := by
  induction ds generalizing s with
  | nil => simp
  | cons d rest ih => rw [← addDrafts_cons s, ih, addDrafts_cons, List.cons_append]

theorem nextKey_addDrafts (s : Site) (itemId : Int) (ds : List Draft) :
    (s.addDrafts itemId ds).approvals.nextKey = s.approvals.nextKey + ds.length := by
  induction ds generalizing s with
  | nil => simp
  | cons d rest ih =>
    have hkey : (s.addDrafts itemId [d]).approvals.nextKey = s.approvals.nextKey + 1 :=
      Table.nextKey_append s.approvals rfl
    rw [← addDrafts_cons, ih, hkey, List.length_cons]
    omega

/-- The approvals of an item behind an addition. -/
theorem approvalsOf_addDrafts (s : Site) (itemId : Int) (ds : List Draft) :
    (s.addDrafts itemId ds).approvalsOf itemId =
      s.approvalsOf itemId ++ Draft.rowsFrom itemId s.office.clock s.approvals.nextKey ds := by
  simp only [approvalsOf, addDrafts, List.filter_append, List.append_cancel_left_eq,
    List.filter_eq_self]
  intro a ha
  obtain ⟨d, -, k, rfl⟩ := Draft.mem_rowsFrom ha
  simp [Draft.row]

theorem approvalsOf_addDrafts_ne (s : Site) {itemId other : Int} (h : other ≠ itemId)
    (ds : List Draft) : (s.addDrafts itemId ds).approvalsOf other = s.approvalsOf other := by
  simp only [approvalsOf, addDrafts, List.filter_append, List.append_right_eq_self,
    List.filter_eq_nil_iff]
  intro a ha
  obtain ⟨d, -, k, rfl⟩ := Draft.mem_rowsFrom ha
  simpa [Draft.row] using Ne.symm h

/-! ## Additions that are not refused -/

/-- The drafts can be added to the item one after another: no row stands in the way of any of them, nor
    does one of them in the way of another. -/
structure Welcomes (s : Site) (itemId : Int) (ds : List Draft) : Prop where
  isThere : (s.office.items.get? itemId).isSome
  isFree : ∀ d ∈ ds, s.isTaken itemId d.level d.approver = false
  apart : ds.Pairwise fun d d' => d.level = d'.level → d.approver = d'.approver → d.approver = none

/-- Adds the row of a draft. -/
def add (itemId : Int) (d : Draft) : SiteTask (Option Approval) :=
  addApproval itemId d.level d.approver d.status d.comments

theorem isTaken_addDrafts (s : Site) (itemId : Int) (d : Draft) (level : String)
    (approver : Option String) :
    (s.addDrafts itemId [d]).isTaken itemId level approver =
      (s.isTaken itemId level approver ||
        (approver.isSome && (d.level == level && d.approver == approver))) := by
  simp only [isTaken, rowsNamed, approvalsOf_addDrafts, List.filter_append, List.any_append,
    Bool.and_or_distrib_left]
  by_cases hlevel : d.level = level
  · simp [Draft.rowsFrom, Draft.row, hlevel]
  · simp [Draft.rowsFrom, Draft.row, hlevel]

namespace Welcomes

variable {s : Site} {itemId : Int} {d : Draft} {ds : List Draft}

theorem tail (h : s.Welcomes itemId (d :: ds)) : (s.addDrafts itemId [d]).Welcomes itemId ds where
  isThere := h.isThere
  isFree := by
    intro d' hd'
    rw [isTaken_addDrafts, h.isFree d' (List.mem_cons_of_mem _ hd'), Bool.false_or]
    have hapart := (List.pairwise_cons.mp h.apart).1 d' hd'
    by_cases hsame : d.level = d'.level ∧ d.approver = d'.approver
    · have hnone : d'.approver = none := hsame.2 ▸ hapart hsame.1 hsame.2
      simp [hnone]
    · grind
  apart := (List.pairwise_cons.mp h.apart).2

theorem left {ds' : List Draft} (h : s.Welcomes itemId (ds ++ ds')) : s.Welcomes itemId ds where
  isThere := h.isThere
  isFree := fun d hd => h.isFree d (List.mem_append_left _ hd)
  apart := (List.pairwise_append.mp h.apart).1

theorem right {ds' : List Draft} (h : s.Welcomes itemId (ds ++ ds')) :
    (s.addDrafts itemId ds).Welcomes itemId ds' := by
  induction ds generalizing s with
  | nil => rwa [addDrafts_nil]
  | cons d rest ih =>
    rw [← addDrafts_cons]
    exact ih h.tail

theorem exec_add (h : s.Welcomes itemId (d :: ds)) :
    (add itemId d).exec s =
      (.ok (some (d.row itemId s.office.clock s.approvals.nextKey)), s.addDrafts itemId [d]) := by
  have hfree := h.isFree d (List.mem_cons_self ..)
  have hthere : (s.office.items.get? itemId).isNone = false := by
    rw [← Option.not_isSome, h.isThere]
    rfl
  unfold add addApproval
  rw [Task.exec_get_bind]
  simp only [hfree, hthere, Bool.or_false, Bool.false_eq_true, ↓reduceIte]
  rfl

theorem exec_mapM (h : s.Welcomes itemId ds) :
    (ds.mapM (add itemId)).exec s =
      (.ok ((Draft.rowsFrom itemId s.office.clock s.approvals.nextKey ds).map some),
        s.addDrafts itemId ds) := by
  induction ds generalizing s with
  | nil => simp [Draft.rowsFrom]
  | cons d rest ih =>
    have hkey : (s.addDrafts itemId [d]).approvals.nextKey = s.approvals.nextKey + 1 :=
      nextKey_addDrafts s itemId [d]
    rw [List.mapM_cons, Task.exec_bind_ok h.exec_add, Task.exec_bind_ok (ih h.tail), hkey,
      addDrafts_cons]
    rfl

theorem exec_forM (h : s.Welcomes itemId ds) :
    (ds.forM fun d => discard (add itemId d)).exec s = (.ok ⟨⟩, s.addDrafts itemId ds) := by
  induction ds generalizing s with
  | nil =>
    rw [addDrafts_nil]
    rfl
  | cons d rest ih =>
    have hfirst : (discard (add itemId d)).exec s = (.ok (), s.addDrafts itemId [d]) := by
      rw [Task.exec_discard, h.exec_add]
    rw [Task.exec_forM_cons, Task.exec_bind_ok hfirst, ih h.tail, addDrafts_cons]

end Welcomes

/-! ## Decisions -/

/-- The state with a row in place of the one that has its key. -/
def decide (s : Site) (a : Approval) : Site :=
  { s with approvals := s.approvals.modify a.id fun _ => a }

@[simp] theorem decide_office (s : Site) (a : Approval) : (s.decide a).office = s.office := rfl

@[simp] theorem decide_known (s : Site) (a : Approval) : (s.decide a).known = s.known := rfl

theorem exec_recordDecision (s : Site) (a : Approval) (status : Status)
    (comments actor : Option String) :
    (recordDecision a status comments actor).exec s =
      if s.isClaimed (a.decided status comments actor s.office.clock) then
        (.error (.constraint "the approver has another approval on this level"), s)
      else
        (.ok (a.decided status comments actor s.office.clock),
          s.decide (a.decided status comments actor s.office.clock)) := by
  unfold recordDecision
  rw [Task.exec_get_bind]
  simp only
  split
  · rfl
  · rfl

/-! ## Rows of an item -/

/-- The approvals of an item, unless one of them is on an unknown level. -/
def levelRows (s : Site) (itemId : Int) : Result (List Approval) :=
  if (s.approvalsOf itemId).all fun a => (Level.ofName? a.level).isSome then
    .ok (s.approvalsOf itemId)
  else .error (.badValue "no level has this name")

theorem levelRows_eq_ok {s : Site} {itemId : Int} {rows : List Approval}
    (h : s.levelRows itemId = .ok rows) :
    rows = s.approvalsOf itemId ∧ ∀ a ∈ rows, ∃ l : Level, a.level = l.name := by
  unfold levelRows at h
  split at h
  · next hnamed =>
    cases h
    refine ⟨rfl, fun a ha => ?_⟩
    obtain ⟨l, hl⟩ := Option.isSome_iff_exists.mp (List.all_eq_true.mp hnamed a ha)
    exact ⟨l, Level.name_of_ofName? hl⟩
  · cases h

theorem levelRows_of_named {s : Site} {itemId : Int}
    (h : ∀ a ∈ s.approvalsOf itemId, ∃ l : Level, a.level = l.name) :
    s.levelRows itemId = .ok (s.approvalsOf itemId) := by
  unfold levelRows
  rw [if_pos]
  refine List.all_eq_true.mpr fun a ha => ?_
  obtain ⟨l, hl⟩ := h a ha
  rw [hl, Level.ofName?_name]
  rfl

theorem levelRows_eq_error {s : Site} {itemId : Int} {fault : Fault}
    (h : s.levelRows itemId = .error fault) : fault = .badValue "no level has this name" := by
  unfold levelRows at h
  split at h
  · cases h
  · cases h
    rfl

private theorem exec_forM_ofName (rows : List Approval) (s : Site) :
    (rows.forM fun a => discard (Task.ofResult (Level.ofName a.level)) : SiteTask PUnit).exec s =
      (if rows.all fun a => (Level.ofName? a.level).isSome then .ok ⟨⟩
        else .error (.badValue "no level has this name"), s) := by
  induction rows with
  | nil => rfl
  | cons a rest ih =>
    rw [List.all_cons, Task.exec_forM_cons, Task.exec_bind, Task.exec_discard, Task.exec_ofResult]
    cases h : Level.ofName? a.level with
    | none =>
      have hname : Level.ofName a.level = .error (.badValue "no level has this name") := by
        rw [Level.ofName, h]
      simp [hname]
    | some l =>
      have hname : Level.ofName a.level = .ok l := by
        rw [Level.ofName, h]
      simp only [hname, Option.isSome_some, Bool.true_and]
      exact ih

theorem exec_rowsOf (s : Site) (itemId : Int) :
    (rowsOf itemId).exec s = (s.levelRows itemId, s) := by
  unfold rowsOf levelRows
  rw [Task.exec_get_bind, Task.exec_bind, exec_forM_ofName]
  cases (s.approvalsOf itemId).all fun a => (Level.ofName? a.level).isSome with
  | true => rfl
  | false => rfl

/-- How far an item has come, as a function of the state. -/
theorem answer_progressOf (s : Site) (item : Item) :
    (progressOf item).answer s = (do
      let rows ← s.levelRows item.id
      let w ← s.workflow? item.boardId
      w.progress rows (w.evaluate (s.office.snapshotOf item))) := by
  unfold progressOf
  rw [Task.answer_bind_of_exec (exec_rowsOf s item.id)]
  refine bind_congr fun rows => ?_
  rw [Task.answer_bind_of_exec (exec_workflowOf s item.boardId)]
  refine bind_congr fun w => ?_
  rw [Task.answer_get_bind, Task.answer_ofResult, lookedUp_office]

end Site

end Signoff
