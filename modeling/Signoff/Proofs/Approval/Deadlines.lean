import Signoff.Proofs.Approval.Alarms
import Signoff.Proofs.Workflow.Remembered

/-! # Alerts about deadlines

    One pass goes through the pending approvals of all boards, oldest first, and
    breaks off at the first deadline that lies behind the calendar:

    * `Site.Datable`: the deadline of an approval can be told, if it has one.
    * `returns_pass`, `about_pass`: a pass returns if all deadlines can be told, and an
      approval gets what is due where its turn comes. By induction on the rows.
    * `Site.Reaches`: no older approval breaks off the pass in front of this one.
    * `Site.onlyBoard`: the site without the approvals and workflows of other boards.
    * `same_as_alone`: after any run, an approval that the pass reaches gets what it
      gets on its board alone, and one that it does not reach gets nothing.
-/

open Signoff.Task (Keeps Same)

namespace Signoff

/-! ## Whole passes -/

/-- The value counts as a number. -/
def Value.IsAmount (v : Value) : Prop := (∃ x, v = .float x) ∨ ∃ n, v.asInt? = some n

namespace Site

/-- The deadline of the approval lies within the calendar, if there is somebody to alert and the level
    is timed. -/
def Datable (s : Site) (a : Approval) : Prop :=
  ∀ approver item w timeout, Alerts.addressee? s a = some (approver, item) →
    s.workflow? item.boardId = .ok w → Alerts.timeoutOf? w a = some timeout →
      ∃ deadline, a.deadline timeout = .ok deadline

/-- Only deadlines can break off a pass: every workflow can be read, a day before now lies within the
    calendar, and the lead is a number. -/
structure Settled (s : Site) (lead : Value) : Prop where
  workflow : ∀ boardId, ∃ w, s.workflow? boardId = .ok w
  clock : Moment.dayMicros ≤ s.office.clock.micros ∧ s.office.clock.micros < Moment.momentCount
  lead : lead.IsAmount

variable {s s' : Site} {lead : Value} {a : Approval}

theorem Settled.of_alike (h : s.Settled lead) (halike : s.Alike s') : s'.Settled lead := by
  obtain ⟨notices, heard, hoffice⟩ := halike.office
  refine ⟨fun boardId => ?_, ?_, h.lead⟩
  · rw [halike.workflow]
    exact h.workflow boardId
  · rw [hoffice]
    exact h.clock

theorem datable_congr (hitems : s'.office.items = s.office.items)
    (hworkflow : ∀ item, s.office.items.get? a.itemId = some item →
      s'.workflow? item.boardId = s.workflow? item.boardId) : s'.Datable a ↔ s.Datable a := by
  unfold Datable
  rw [Alerts.addressee?_congr hitems]
  refine forall_congr' fun approver => forall_congr' fun item => forall_congr' fun w =>
    forall_congr' fun timeout => forall_congr' fun hfound => ?_
  rw [hworkflow item (Alerts.get?_of_addressee? hfound)]

theorem Alike.datable_iff (h : s.Alike s') : s'.Datable a ↔ s.Datable a := by
  obtain ⟨notices, heard, hoffice⟩ := h.office
  exact datable_congr (by rw [hoffice]) fun item _ => h.workflow item.boardId

end Site

namespace Alerts

variable {s s' : Site} {c : Channels} {lead : Value} {now : Moment} {counts : DeadlineCounts}
  {a : Approval}

theorem exists_atMost (h : lead.IsAmount) (hours : Float) : ∃ isNear, atMost hours lead = .ok isNear := by
  rcases h with ⟨x, rfl⟩ | ⟨n, hn⟩
  · exact ⟨_, rfl⟩
  · cases lead <;> cases hn <;> exact ⟨_, rfl⟩

/-- It can be told what was sent within a day. -/
theorem exists_sentWithin (h : s.Settled lead) (user : String) (types : List String) (hours : Value)
    (micros : Int) (hhours : Duration.ofHours hours = .ok micros) (hpast : 0 ≤ micros)
    (hday : micros ≤ Moment.dayMicros) (key : String) (subject : Value) :
    ∃ wasSent, s.office.sentWithin user types hours key subject = .ok wasSent := by
  obtain ⟨hlow, hhigh⟩ := h.clock
  have hwithin : 0 ≤ (s.office.clock.micros : Int) + -micros ∧
      (s.office.clock.micros : Int) + -micros < Moment.momentCount := by omega
  unfold Office.sentWithin
  rw [hhours, Result.ok_bind]
  unfold Moment.plus Moment.add? Moment.ofMicros?
  rw [if_pos hwithin]
  exact ⟨_, rfl⟩

theorem exists_isDue (h : s.Settled lead) (x : Alarm) (approver : String) (key : Int) :
    ∃ isDue, x.isDue s.office lead approver key = .ok isDue := by
  unfold Alarm.isDue
  split
  · obtain ⟨isNear, hnear⟩ := exists_atMost h.lead x.hoursLeft
    obtain ⟨wasSent, hsent⟩ := exists_sentWithin h approver
      ["approval_deadline_approaching", "approval_deadline_passed"] (.int 12) 43200000000 rfl (by decide)
      (by decide) "approvalId" (.int key)
    rw [hnear, Result.ok_bind]
    split
    · exact ⟨_, rfl⟩
    · rw [hsent]
      exact ⟨_, rfl⟩
  · obtain ⟨wasSent, hsent⟩ := exists_sentWithin h approver ["approval_deadline_passed"] (.int 24)
      86400000000 rfl (by decide) (by decide) "approvalId" (.int key)
    rw [hsent]
    exact ⟨_, rfl⟩

/-- What is due is found out if the deadline lies within the calendar. -/
theorem exists_alarmOf (h : s.Settled lead) :
    (∃ found, alarmOf s lead now a = .ok found) ↔ s.Datable a := by
  unfold alarmOf Site.Datable
  cases hfound : addressee? s a with
  | none => simp [pure, Except.pure]
  | some found =>
    obtain ⟨approver, item⟩ := found
    obtain ⟨w, hw⟩ := h.workflow item.boardId
    simp only [hw, Result.ok_bind]
    cases htimeout : timeoutOf? w a with
    | none =>
      refine ⟨fun _ approver' item' w' timeout hsame hw' htimeout' => ?_, fun _ => ⟨none, rfl⟩⟩
      cases hsame
      rw [hw] at hw'
      cases hw'
      rw [htimeout] at htimeout'
      cases htimeout'
    | some timeout =>
      constructor
      · rintro ⟨found, halarm⟩ approver' item' w' timeout' hsame hw' htimeout'
        cases hsame
        rw [hw] at hw'
        cases hw'
        rw [htimeout] at htimeout'
        cases htimeout'
        obtain ⟨deadline, hdeadline, -⟩ := Result.bind_eq_ok halarm
        exact ⟨deadline, hdeadline⟩
      · intro hdatable
        obtain ⟨deadline, hdeadline⟩ := hdatable approver item w timeout rfl hw htimeout
        obtain ⟨isDue, hdue⟩ := exists_isDue h ⟨deadline, Duration.hours (now.between deadline)⟩ approver a.id
        simp only [hdeadline, Result.ok_bind, hdue]
        exact ⟨_, rfl⟩

/-- A pass leaves the same workflows behind, -/
theorem alike_pass (c : Channels) (lead : Value) (now : Moment) (rows : List Approval)
    (counts : DeadlineCounts) : Keeps Site.Alike (rows.foldlM (alert c lead now) counts) :=
  Keeps.foldlM rows (fun counts a _ => alike_alert c lead now counts a) counts

/-- and sends nothing about approvals that it does not look at. -/
theorem about_pass_of_forall_ne (c : Channels) (lead : Value) (now : Moment) {rows : List Approval}
    (counts : DeadlineCounts) {key : Int} (h : ∀ a ∈ rows, a.id ≠ key) :
    Keeps (Same fun s : Site => s.office.about key) (rows.foldlM (alert c lead now) counts) := by
  refine Keeps.foldlM rows (fun counts a ha s => ?_) counts
  show ((alert c lead now counts a).after s).office.about key = s.office.about key
  rw [about_alert, newsOf_of_ne (h a ha), List.append_nil]

/-- A pass returns if all deadlines lie within the calendar. -/
theorem returns_pass (h : s.Settled lead) (rows : List Approval) (counts : DeadlineCounts) :
    (∃ counts', (rows.foldlM (alert c lead now) counts).answer s = .ok counts') ↔
      ∀ a ∈ rows, s.Datable a := by
  induction rows generalizing s counts with
  | nil => exact ⟨fun _ _ ha => absurd ha List.not_mem_nil, fun _ => ⟨counts, rfl⟩⟩
  | cons first rest ih =>
    have hfirst : (∃ counts', (alert c lead now counts first).answer s = .ok counts') ↔ s.Datable first :=
      answer_alert_eq_ok.trans (exists_alarmOf h)
    -- Behind the first step the same deadlines can be told as in front of it.
    have halike := alike_alert c lead now counts first s
    rw [List.foldlM_cons, Task.answer_bind, List.forall_mem_cons, ← hfirst]
    cases hanswer : (alert c lead now counts first).answer s with
    | error fault => simp [Result.error_bind]
    | ok counts' =>
      rw [Result.ok_bind, ih (h.of_alike halike)]
      simp only [halike.datable_iff, Except.ok.injEq, exists_eq', true_and]

section Split

variable {before behind : List Approval} (hids : ((before ++ a :: behind).map (·.id)).Nodup)

include hids

/-- The rows in front of an approval and behind it are others. -/
theorem ne_of_split : (∀ a' ∈ before, a'.id ≠ a.id) ∧ ∀ a' ∈ behind, a'.id ≠ a.id := by
  rw [List.map_append, List.map_cons, List.nodup_append] at hids
  obtain ⟨-, hrest, hapart⟩ := hids
  constructor
  · intro a' ha'
    exact hapart a'.id (List.mem_map_of_mem ha') a.id (List.mem_cons_self ..)
  · intro a' ha' hsame
    exact (List.nodup_cons.mp hrest).1 (hsame ▸ List.mem_map_of_mem ha')

/-- The alert about an approval is sent where its turn comes, -/
theorem about_pass (h : s.Settled lead) (hbefore : ∀ a' ∈ before, s.Datable a') :
    (((before ++ a :: behind).foldlM (alert c lead now) counts).after s).office.about a.id =
      s.office.about a.id ++ newsOf c s lead now a a.id := by
  obtain ⟨hne, hne'⟩ := ne_of_split hids
  obtain ⟨counts', hanswer⟩ := (returns_pass h before counts).mpr hbefore
  have hsent := about_pass_of_forall_ne c lead now counts hne s
  have hresembles := (alike_pass c lead now before counts s).resembles hsent
  have hexec : (before.foldlM (alert c lead now) counts).exec s =
    (.ok counts', (before.foldlM (alert c lead now) counts).after s) := Prod.ext hanswer rfl
  rw [List.foldlM_append, Task.after, Task.exec_bind_ok hexec, ← Task.after, List.foldlM_cons]
  -- The rows behind it add nothing.
  refine (Keeps.same_after_bind (g := fun s : Site => s.office.about a.id)
    fun counts => about_pass_of_forall_ne c lead now counts hne').trans ?_
  show ((alert c lead now counts' a).after _).office.about a.id = _
  rw [about_alert, newsOf_congr hresembles]
  exact congrArg (· ++ _) hsent

/-- and nothing is sent about it if the pass breaks off in front of it. -/
theorem about_pass_of_not_datable (h : s.Settled lead) (hbefore : ¬ ∀ a' ∈ before, s.Datable a') :
    (((before ++ a :: behind).foldlM (alert c lead now) counts).after s).office.about a.id =
      s.office.about a.id := by
  have hsent := about_pass_of_forall_ne c lead now counts (ne_of_split hids).1 s
  rw [← returns_pass h before counts] at hbefore
  rw [List.foldlM_append]
  cases hanswer : (before.foldlM (alert c lead now) counts).answer s with
  | error fault =>
    rw [Task.after_bind_of_error hanswer]
    exact hsent
  | ok counts' => exact absurd ⟨counts', hanswer⟩ hbefore

end Split

end Alerts

/-! ## The order of a pass -/

/-- One approval is older than another: it was opened before, or it has the smaller key. -/
def Approval.Older (a a' : Approval) : Prop :=
  a.createdAt.micros < a'.createdAt.micros ∨
    a.createdAt.micros = a'.createdAt.micros ∧ a.id < a'.id

namespace Site

variable {s : Site} {a : Approval}

theorem mem_pendingRows : a ∈ s.pendingRows ↔ a ∈ s.approvals.rows ∧ a.status = .pending := by
  unfold pendingRows
  rw [(List.mergeSort_perm _ _).mem_iff, List.mem_filter, beq_iff_eq]

/-- A pass comes to an approval once, behind the ones that are older. -/
theorem exists_pendingRows_eq (hkeys : s.approvals.KeysDistinct) (ha : a ∈ s.approvals.rows)
    (hpending : a.status = .pending) : ∃ before behind, s.pendingRows = before ++ a :: behind ∧
      ((before ++ a :: behind).map (·.id)).Nodup ∧
      ∀ a', a' ∈ before ↔ a' ∈ s.approvals.rows ∧ a'.status = .pending ∧ a'.Older a := by
  obtain ⟨before, behind, hsplit⟩ := List.append_of_mem (mem_pendingRows.mpr ⟨ha, hpending⟩)
  have hids : (s.pendingRows.map (·.id)).Nodup := hkeys.mergeSort_filter _ _
  have hsorted : s.pendingRows.Pairwise fun a b => a.createdAt.micros < b.createdAt.micros ∨
      a.createdAt.micros = b.createdAt.micros ∧ a.id ≤ b.id :=
    pairwise_oldest (fun a : Approval => a.createdAt.micros) (fun a => a.id) _
  rw [hsplit] at hids hsorted
  obtain ⟨hne, -⟩ := Alerts.ne_of_split hids
  -- No two rows have the same key, so the order is strict in front of the approval and behind it.
  obtain ⟨-, hrest, hfront⟩ := List.pairwise_append.mp hsorted
  refine ⟨before, behind, hsplit, hids, fun a' => ⟨fun ha' => ?_, fun ⟨hrow, hstatus, holder⟩ => ?_⟩⟩
  · have hmem : a' ∈ s.pendingRows := hsplit ▸ List.mem_append_left _ ha'
    have hle := hfront a' ha' a (List.mem_cons_self ..)
    have hother := hne a' ha'
    refine ⟨(mem_pendingRows.mp hmem).1, (mem_pendingRows.mp hmem).2, ?_⟩
    unfold Approval.Older
    omega
  · have hmem : a' ∈ before ++ a :: behind := hsplit ▸ mem_pendingRows.mpr ⟨hrow, hstatus⟩
    unfold Approval.Older at holder
    rcases List.mem_append.mp hmem with hbefore | hbehind
    · exact hbefore
    · rcases List.mem_cons.mp hbehind with rfl | hbehind
      · omega
      · have hle := (List.pairwise_cons.mp hrest).1 a' hbehind
        omega

/-- The pass over all pending approvals comes to this one: no older one breaks it off. -/
def Reaches (s : Site) (a : Approval) : Prop :=
  ∀ a' ∈ s.approvals.rows, a'.status = .pending → a'.Older a → s.Datable a'

end Site

/-! ## Boards by themselves -/

namespace Site

variable {s : Site} {a : Approval} {boardId : Int}

/-- The site without the approvals and the workflows of other boards. -/
def onlyBoard (s : Site) (boardId : Int) : Site where
  office :=
    { s.office with workflows := ⟨s.office.workflows.rows.filter fun w => w.boardId == boardId⟩ }
  approvals := ⟨s.approvals.rows.filter fun a =>
    (s.office.items.get? a.itemId).any fun item => item.boardId == boardId⟩
  known := s.known.filter fun entry => entry.1 == boardId

/-- What was remembered of the board is all that is left. -/
theorem lookup_only (known : List (Int × Workflow)) (boardId other : Int) :
    (known.filter fun entry => entry.1 == boardId).lookup other =
      if other = boardId then known.lookup other else none := by
  induction known with
  | nil => simp
  | cons entry rest ih =>
    by_cases hentry : entry.1 = boardId
    · rw [List.filter_cons_of_pos (by simp [hentry]), List.lookup_cons, List.lookup_cons, ih]
      by_cases hother : other = boardId
      · rw [if_pos hother, if_pos hother]
      · rw [if_neg hother, if_neg hother, beq_eq_false_iff_ne.mpr (hentry ▸ hother)]
    · rw [List.filter_cons_of_neg (by simp [hentry]), ih, List.lookup_cons]
      by_cases hother : other = boardId
      · have hne : (other == entry.1) = false :=
          beq_eq_false_iff_ne.mpr fun hsame => hentry (hsame.symm.trans hother)
        rw [if_pos hother, if_pos hother, hne]
      · rw [if_neg hother, if_neg hother]

/-- The workflow of the board counts as before, and every other board has the standard one. -/
theorem workflow?_onlyBoard (s : Site) (boardId other : Int) :
    (s.onlyBoard boardId).workflow? other =
      if other = boardId then s.workflow? other else .ok .standard := by
  have hfind : ((s.office.workflows.rows.filter fun w => w.boardId == boardId).find? fun w =>
      w.boardId == other) =
        if other = boardId then s.office.workflows.rows.find? fun w => w.boardId == other else none := by
    rw [List.find?_filter]
    split
    · next hsame =>
      rw [hsame]
      congr 1
      funext w
      simp only [and_self, Bool.decide_eq_true]
    · next hother =>
      rw [List.find?_eq_none]
      intro w _
      simp only [beq_iff_eq, decide_eq_true_eq]
      exact fun h => hother (h.2.symm.trans h.1)
  unfold workflow? storedWorkflow onlyBoard
  simp only [lookup_only, hfind]
  by_cases hother : other = boardId
  · simp only [if_pos hother]
  · simp only [if_neg hother]

/-- On its own board, an approval looks the same as on the whole site. -/
theorem resembles_onlyBoard {item : Item} (hitem : s.office.items.get? a.itemId = some item)
    (hboard : item.boardId = boardId) : s.Resembles (s.onlyBoard boardId) a where
  clock := rfl
  items := rfl
  boards := rfl
  workflow item' hitem' := by
    rw [hitem] at hitem'
    cases hitem'
    rw [workflow?_onlyBoard, if_pos hboard]
  sent := rfl

/-- The approvals of the board are left. -/
theorem mem_onlyBoard : a ∈ (s.onlyBoard boardId).approvals.rows ↔ a ∈ s.approvals.rows ∧
    ∃ item, s.office.items.get? a.itemId = some item ∧ item.boardId = boardId := by
  unfold onlyBoard
  rw [List.mem_filter, Option.any_eq_true]
  simp only [beq_iff_eq]

theorem Settled.onlyBoard {lead : Value} (h : s.Settled lead) (boardId : Int) :
    (s.onlyBoard boardId).Settled lead where
  workflow other := by
    rw [workflow?_onlyBoard]
    split
    · exact h.workflow other
    · exact ⟨_, rfl⟩
  clock := h.clock
  lead := h.lead

/-- An approval that is reached on the whole site is reached on its board alone. -/
theorem Reaches.onlyBoard (h : s.Reaches a) (boardId : Int) : (s.onlyBoard boardId).Reaches a := by
  intro a' ha' hpending holder
  obtain ⟨hrow, item, hitem, hboard⟩ := mem_onlyBoard.mp ha'
  have hresembles := resembles_onlyBoard hitem hboard
  exact (datable_congr hresembles.items hresembles.workflow).mpr (h a' hrow hpending holder)

/-- Behind any run the workflows of all boards can be read. -/
theorem Recollects.readable (h : s.Recollects) (boardId : Int) : ∃ w, s.workflow? boardId = .ok w := by
  rw [h.workflow?_eq]
  unfold storedWorkflow
  split
  · next row hrow => exact (h.filed.written row (List.mem_of_find?_eq_some hrow)).ofPayload
  · exact ⟨_, rfl⟩

end Site

/-! ## Runs -/

namespace Alerts

variable {s : Site} {c : Channels} {hoursBefore : Value} {now : Option Moment} {a : Approval}

/-- So many hours in front of a deadline the alert is sent. -/
def leadOf (s : Site) (hoursBefore : Value) : Value :=
  if hoursBefore.isNull then
    (s.office.settings.get? "APPROVAL_DEADLINE_ALERT_HOURS").getD (.int 24)
  else hoursBefore

theorem exec_sendDeadlineAlerts (c : Channels) (hoursBefore : Value) (now : Option Moment) (s : Site) :
    (sendDeadlineAlerts c hoursBefore now).exec s =
      (s.pendingRows.foldlM (alert c (leadOf s hoursBefore) (now.getD s.office.clock)) {}).exec s := by
  have hlead : (valueOrSetting hoursBefore "APPROVAL_DEADLINE_ALERT_HOURS" 24).exec s =
      (.ok (leadOf s hoursBefore), s) := by
    unfold valueOrSetting leadOf
    split
    · rfl
    · rfl
  have hnow : Site.now.exec s = (.ok s.office.clock, s) := rfl
  unfold sendDeadlineAlerts
  rw [Task.exec_bind_ok hlead, Task.exec_bind_ok hnow, Task.exec_get_bind]

/-- What a pass sends about an approval that it reaches is due to this approval alone, -/
theorem about_sendDeadlineAlerts (hkeys : s.approvals.KeysDistinct)
    (h : s.Settled (leadOf s hoursBefore)) (ha : a ∈ s.approvals.rows) (hpending : a.status = .pending)
    (hreaches : s.Reaches a) :
    ((sendDeadlineAlerts c hoursBefore now).after s).office.about a.id = s.office.about a.id ++
      newsOf c s (leadOf s hoursBefore) (now.getD s.office.clock) a a.id := by
  obtain ⟨before, behind, hsplit, hids, hbefore⟩ := Site.exists_pendingRows_eq hkeys ha hpending
  rw [Task.after, exec_sendDeadlineAlerts, hsplit]
  refine about_pass hids h fun a' ha' => ?_
  obtain ⟨hrow, hstatus, holder⟩ := (hbefore a').mp ha'
  exact hreaches a' hrow hstatus holder

/-- and it sends nothing about one that it does not reach. -/
theorem about_sendDeadlineAlerts_of_not_reaches (hkeys : s.approvals.KeysDistinct)
    (h : s.Settled (leadOf s hoursBefore)) (ha : a ∈ s.approvals.rows) (hpending : a.status = .pending)
    (hreaches : ¬ s.Reaches a) :
    ((sendDeadlineAlerts c hoursBefore now).after s).office.about a.id = s.office.about a.id := by
  obtain ⟨before, behind, hsplit, hids, hbefore⟩ := Site.exists_pendingRows_eq hkeys ha hpending
  rw [Task.after, exec_sendDeadlineAlerts, hsplit]
  refine about_pass_of_not_datable hids h fun hall => hreaches fun a' hrow hstatus holder => ?_
  exact hall a' ((hbefore a').mpr ⟨hrow, hstatus, holder⟩)

/-- After any run, a pass returns just if the deadlines of all pending approvals lie within the calendar.
    An approval gets what it gets on its board alone, or nothing if an older approval of any board
    breaks off the pass. -/
theorem same_as_alone (hkeyed : s.Keyed) (hrows : s.office.workflows.rows = []) (hknown : s.known = [])
    (ops : List Operation) (c : Channels) (hoursBefore : Value) (now : Option Moment)
    (hclock : Moment.dayMicros ≤ (s.run ops).office.clock.micros ∧
      (s.run ops).office.clock.micros < Moment.momentCount)
    (hlead : (leadOf (s.run ops) hoursBefore).IsAmount) :
    ((∃ counts, (sendDeadlineAlerts c hoursBefore now).answer (s.run ops) = .ok counts) ↔
        ∀ a ∈ (s.run ops).approvals.rows, a.status = .pending → (s.run ops).Datable a) ∧
      ∀ a ∈ (s.run ops).approvals.rows, a.status = .pending →
        ∀ item, (s.run ops).office.items.get? a.itemId = some item →
          ((s.run ops).Reaches a →
            ((sendDeadlineAlerts c hoursBefore now).after (s.run ops)).office.about a.id =
              ((sendDeadlineAlerts c hoursBefore now).after
                ((s.run ops).onlyBoard item.boardId)).office.about a.id) ∧
          (¬ (s.run ops).Reaches a →
            ((sendDeadlineAlerts c hoursBefore now).after (s.run ops)).office.about a.id =
              (s.run ops).office.about a.id) := by
  have hrecollects := (Site.recollects_of_fresh hkeyed hrows hknown).run ops
  have hsettled : (s.run ops).Settled (leadOf (s.run ops) hoursBefore) :=
    ⟨hrecollects.readable, hclock, hlead⟩
  have hkeys := hrecollects.keyed.approvals
  constructor
  · unfold Task.answer
    rw [exec_sendDeadlineAlerts]
    refine (returns_pass hsettled _ {}).trans ?_
    simp only [Site.mem_pendingRows, and_imp]
  · intro a ha hpending item hitem
    refine ⟨fun hreaches => ?_, about_sendDeadlineAlerts_of_not_reaches hkeys hsettled ha hpending⟩
    have hkeys' : ((s.run ops).onlyBoard item.boardId).approvals.KeysDistinct :=
      hkeys.sublist (List.filter_sublist.map _)
    have ha' : a ∈ ((s.run ops).onlyBoard item.boardId).approvals.rows :=
      Site.mem_onlyBoard.mpr ⟨ha, item, hitem, rfl⟩
    -- Both passes come to the approval, and there both sites look the same.
    rw [about_sendDeadlineAlerts hkeys hsettled ha hpending hreaches,
      about_sendDeadlineAlerts hkeys' (hsettled.onlyBoard item.boardId) ha' hpending
        (hreaches.onlyBoard item.boardId)]
    exact congrArg _ (newsOf_congr (Site.resembles_onlyBoard hitem rfl) a.id).symm

end Alerts

/-! ## Two boards -/

/-- One level with an approver and a limit in hours. -/
def Workflow.timed (approver : String) (hours : Float) : Workflow where
  name := "Timed"
  levels := [{ level := .first, approvers := [approver], timeoutHours := some hours }]

namespace Site

/-- An item on the second board and one on the first. -/
def paired : Site where
  office :=
    { clock := .ofDate ⟨700000⟩
      settings := []
      members := ⟨[⟨1, 1, "O", "owner"⟩, ⟨2, 1, "A", "member"⟩]⟩
      boards := ⟨[⟨1, 1, "Purchases", ⟨0⟩⟩, ⟨2, 1, "Payments", ⟨0⟩⟩]⟩
      items := ⟨[{ Item.small with boardId := 2 }, { Item.small with id := 2 }]⟩ }

theorem keyed_paired : paired.Keyed :=
  ⟨⟨by unfold Table.KeysDistinct; decide, List.nodup_nil, List.nodup_nil, List.nodup_nil⟩, List.nodup_nil⟩

/-- The second board has so many hours and the first one hour. Both items are requested, the one of the
    second board first, and two hours pass. -/
def timing (hours : Float) : List Operation :=
  [.saveWorkflow ⟨2, 1, "Payments", ⟨0⟩⟩ (Workflow.timed "B" hours).toValue (some "O"),
    .saveWorkflow ⟨1, 1, "Purchases", ⟨0⟩⟩ (Workflow.timed "A" 1.0).toValue (some "O"),
    .request .noted 1 (some "A"),
    .request .noted 2 (some "A"),
    .office (.setClock ⟨(Moment.ofDate ⟨700000⟩).micros + 7200000000⟩)]

end Site

namespace Alerts

open Site

theorem exists_of_isSome {α : Type} {r : Result α} (h : r.toOption.isSome) : ∃ x, r = .ok x := by
  cases r with
  | ok x => exact ⟨x, rfl⟩
  | error fault => cases h

/-- A pass goes through the pending approvals as they are stored, if they lie in its order. -/
theorem exec_of_pairwise {s : Site} {c : Channels} {hoursBefore : Value} {now : Option Moment}
    (h : (s.approvals.rows.filter fun a => a.status == .pending).Pairwise fun a b =>
      (a.createdAt.micros < b.createdAt.micros
        || (a.createdAt.micros == b.createdAt.micros && a.id ≤ b.id)) = true) :
    (sendDeadlineAlerts c hoursBefore now).exec s =
      ((s.approvals.rows.filter fun a => a.status == .pending).foldlM
        (alert c (leadOf s hoursBefore) (now.getD s.office.clock)) {}).exec s := by
  have hrows : s.pendingRows = s.approvals.rows.filter fun a => a.status == .pending :=
    List.mergeSort_of_pairwise h
  rw [exec_sendDeadlineAlerts, hrows]

/-- With three hours on the second board the pass returns. Both approvals get what they get on their own
    boards: one deadline is near, and the other has passed. -/
theorem same_as_alone_paired :
    (∀ a ∈ (paired.run (timing 3.0)).approvals.rows, a.status = .pending →
        (paired.run (timing 3.0)).Datable a) ∧
      (∀ a ∈ (paired.run (timing 3.0)).approvals.rows, a.status = .pending →
        ∀ item, (paired.run (timing 3.0)).office.items.get? a.itemId = some item →
          ((sendDeadlineAlerts {} .null none).after (paired.run (timing 3.0))).office.about a.id =
            ((sendDeadlineAlerts {} .null none).after
              ((paired.run (timing 3.0)).onlyBoard item.boardId)).office.about a.id) ∧
      ([1, 2].map fun key => (((sendDeadlineAlerts {} .null none).after
        (paired.run (timing 3.0))).office.about key).map (·.type)) =
          [["approval_deadline_approaching"], ["approval_deadline_passed"]] := by
  have hreturns : ∃ counts,
      (sendDeadlineAlerts {} .null none).answer (paired.run (timing 3.0)) = .ok counts := by
    apply exists_of_isSome
    rw [Task.answer, exec_of_pairwise (by decide +kernel)]
    decide +kernel
  obtain ⟨hall, halone⟩ := same_as_alone keyed_paired rfl rfl (timing 3.0) {} .null none
    (by decide +kernel) (.inr ⟨24, by decide +kernel⟩)
  refine ⟨hall.mp hreturns, fun a ha hpending item hitem => ?_, ?_⟩
  · exact (halone a ha hpending item hitem).1 fun a' ha' hpending' _ => hall.mp hreturns a' ha' hpending'
  · unfold Task.after
    rw [exec_of_pairwise (by decide +kernel)]
    decide +kernel

/-- A limit of `1e300` hours on the second board is stored, and then no pass returns. The approval on the
    first board, whose deadline has passed, gets no alert, and it gets one on its board alone. -/
theorem breaks_off_paired :
    (¬ ∃ counts, (sendDeadlineAlerts {} .null none).answer (paired.run (timing 1e300)) = .ok counts) ∧
      (((sendDeadlineAlerts {} .null none).after (paired.run (timing 1e300))).office.about 2).map
        (·.type) = [] ∧
      (((sendDeadlineAlerts {} .null none).after
        ((paired.run (timing 1e300)).onlyBoard 1)).office.about 2).map (·.type) =
          ["approval_deadline_passed"] := by
  refine ⟨?_, ?_, ?_⟩
  · rintro ⟨counts, hanswer⟩
    have hfails : (((sendDeadlineAlerts {} .null none).answer
        (paired.run (timing 1e300))).toOption.isSome) = false := by
      rw [Task.answer, exec_of_pairwise (by decide +kernel)]
      decide +kernel
    rw [hanswer] at hfails
    cases hfails
  · rw [Task.after, exec_of_pairwise (by decide +kernel)]
    decide +kernel
  · rw [Task.after, exec_of_pairwise (by decide +kernel)]
    decide +kernel

end Alerts

end Signoff
