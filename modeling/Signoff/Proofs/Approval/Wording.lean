import Signoff.Proofs.Approval.Telling
import Signoff.Proofs.Task.Twins

/-! # The wording of comments

    What a flow makes of the comments of decisions is seen through a view of them:

    * `Approval.seen view`: an approval, with what the view shows of its comment.
    * `Reworded view`: rows that look the same.
    * `standing_eq`, `opening_eq`: the flow goes by statuses, so it is the same for
      rows that look the same.
    * `Reworded.progress`: so is the progress, except that it may be pending or in
      progress. These two are told apart by one reserved comment.
    * `Site.Reworded view`: sites whose rows look the same, and where the workflow
      finds nothing else different.
-/

namespace Signoff

/-! ## Views -/

namespace Comment

/-- Nothing of a comment. -/
def hidden (_ : Option String) : Option String := none

/-- No more than whether it is the comment of levels that are passed over. -/
def reserved (comment : Option String) : Option String :=
  comment.filter fun text => text == skippedComment

/-- The view shows whether it is this comment. -/
def Reveals (view : Option String → Option String) : Prop :=
  ∃ isOrdinary : Option String → Bool, ∀ comment,
    isOrdinary (view comment) = (comment != some skippedComment)

theorem reveals_reserved : Reveals reserved := by
  refine ⟨Option.isNone, fun comment => ?_⟩
  cases comment with
  | none => rfl
  | some text =>
    by_cases h : text = skippedComment
    · simp [reserved, h]
    · have hne : (text == skippedComment) = false := beq_eq_false_iff_ne.mpr h
      simp [reserved, bne, hne]

end Comment

variable {view : Option String → Option String} {a a' : Approval} {rows rows' : List Approval}
  {w : Workflow} {e : Evaluation} {s s' : Site} {actor comments comments' : Option String}

/-- The approval with what the view shows of its comment. -/
def Approval.seen (view : Option String → Option String) (a : Approval) : Approval :=
  { a with comments := view a.comments }

/-- The approvals look the same. -/
def Approval.Reworded (view : Option String → Option String) (a a' : Approval) : Prop :=
  a'.seen view = a.seen view

/-- The rows look the same, one by one. -/
def Reworded (view : Option String → Option String) (rows rows' : List Approval) : Prop :=
  rows'.map (Approval.seen view) = rows.map (Approval.seen view)

namespace Approval.Reworded

/-- What does not look at the comment is the same. -/
theorem congr {α : Type} {f : Approval → α} (h : a.Reworded view a')
    (hf : ∀ a, f (a.seen view) = f a) : f a' = f a := by
  rw [← hf a', h, hf a]

theorem decided {next : Status} {now : Moment} (h : a.Reworded view a')
    (hcomments : view comments = view comments') :
    (a.decided next comments actor now).Reworded view (a'.decided next comments' actor now) := by
  have hseen (a : Approval) (comments : Option String) :
      (a.decided next comments actor now).seen view =
        { (a.seen view).decided next none actor now with comments := view comments } := rfl
  unfold Approval.Reworded
  rw [hseen, hseen, h, hcomments]

end Approval.Reworded

namespace Reworded

theorem refl (rows : List Approval) : Reworded view rows rows := rfl

/-- What does not look at comments is the same for the rows, one by one. -/
theorem map_eq {α : Type} {f : Approval → α} (h : Reworded view rows rows')
    (hf : ∀ a, f (a.seen view) = f a) : rows'.map f = rows.map f := by
  have hseen (rows : List Approval) : rows.map f = (rows.map (Approval.seen view)).map f := by
    rw [List.map_map]
    exact (List.map_congr_left fun a _ => hf a).symm
  rw [hseen rows', hseen rows, h]

theorem any_eq {p : Approval → Bool} (h : Reworded view rows rows') (hp : ∀ a, p (a.seen view) = p a) :
    rows'.any p = rows.any p := by
  have hany (rows : List Approval) : rows.any p = (rows.map p).any id := by
    rw [List.any_map]
    rfl
  rw [hany, hany, h.map_eq hp]

theorem all_eq {p : Approval → Bool} (h : Reworded view rows rows') (hp : ∀ a, p (a.seen view) = p a) :
    rows'.all p = rows.all p := by
  have hall (rows : List Approval) : rows.all p = (rows.map p).all id := by
    rw [List.all_map]
    rfl
  rw [hall, hall, h.map_eq hp]

theorem isEmpty_eq (h : Reworded view rows rows') : rows'.isEmpty = rows.isEmpty := by
  rw [← List.isEmpty_map, h, List.isEmpty_map]

theorem filter {p : Approval → Bool} (h : Reworded view rows rows') (hp : ∀ a, p (a.seen view) = p a) :
    Reworded view (rows.filter p) (rows'.filter p) := by
  have hfilter (rows : List Approval) :
      (rows.filter p).map (Approval.seen view) = (rows.map (Approval.seen view)).filter p := by
    rw [List.filter_map]
    congr 1
    exact List.filter_congr fun a _ => (hp a).symm
  unfold Reworded
  rw [hfilter, hfilter, h]

theorem on (h : Reworded view rows rows') (l : Level) :
    Reworded view (Approval.on rows l) (Approval.on rows' l) :=
  h.filter fun _ => rfl

theorem append {more more' : List Approval} (h : Reworded view rows rows')
    (hmore : Reworded view more more') : Reworded view (rows ++ more) (rows' ++ more') := by
  unfold Reworded
  rw [List.map_append, List.map_append, h, hmore]

/-! ## The flow -/

theorem satisfied_eq (h : Reworded view rows rows') (level : String) :
    w.satisfied level rows' = w.satisfied level rows := by
  unfold Workflow.satisfied
  rw [h.map_eq fun _ => rfl]

theorem openingFrom_eq (h : Reworded view rows rows') (last : Option Level) (levels : List Level) :
    w.openingFrom e rows' last levels = w.openingFrom e rows last levels := by
  induction levels generalizing last with
  | nil => rfl
  | cons l rest ih =>
    unfold Workflow.openingFrom
    simp only [(h.on _).isEmpty_eq, (h.on _).satisfied_eq, ih]

theorem opening_eq (h : Reworded view rows rows') : w.opening e rows' = w.opening e rows := by
  unfold Workflow.opening
  rw [h.any_eq fun _ => rfl, h.openingFrom_eq]

theorem standing_eq (h : Reworded view rows rows') (l : Level) :
    w.standing rows' l = w.standing rows l := by
  unfold Workflow.standing
  simp only [(h.on l).isEmpty_eq, (h.on l).satisfied_eq]
  rw [(h.on l).any_eq fun _ => rfl]

theorem highest?_eq (h : Reworded view rows rows') :
    Workflow.highest? rows' = Workflow.highest? rows := by
  unfold Workflow.highest?
  simp only [(h.on _).isEmpty_eq]

end Reworded

/-- The progress, without the difference that a cleared level makes to a pending one. -/
def Progress.rough : Progress → Progress
  | .inProgress => .pending
  | p => p

/-- The progress is the same, except that it may be pending or in progress. -/
structure Progress.Reworded (view : Option String → Option String) (p p' : Progress) : Prop where
  rough : p'.rough = p.rough
  exact : Comment.Reveals view → p' = p

namespace Progress.Reworded

variable {p p' : Progress}

theorem refl (p : Progress) : p.Reworded view p := ⟨rfl, fun _ => rfl⟩

theorem isComplete_eq (h : p.Reworded view p') : p'.isComplete = p.isComplete := by
  have hrough := h.rough
  cases p <;> cases p' <;> first | rfl | cases hrough

theorem isApproved_eq (h : p.Reworded view p') : (p' == .approved) = (p == .approved) := by
  have hrough := h.rough
  cases p <;> cases p' <;> first | rfl | cases hrough

end Progress.Reworded

/-- A level is cleared alike where the view shows the reserved comment. -/
theorem Reworded.cleared_eq (h : Reworded view rows rows') (hview : Comment.Reveals view) (l : Level) :
    w.cleared rows' l = w.cleared rows l := by
  -- What the view shows of a comment is enough to tell whether it is the reserved one.
  obtain ⟨isOrdinary, hordinary⟩ := hview
  have hany (rows : List Approval) : (rows.any fun a => a.comments != some skippedComment) =
      (rows.map (Approval.seen view)).any fun a => isOrdinary a.comments := by
    rw [List.any_map]
    exact congrArg rows.any (funext fun a => (hordinary a.comments).symm)
  unfold Workflow.cleared
  rw [h.standing_eq, hany, hany, h.on l]

/-- The progress is the same, but for the reserved comment. -/
theorem Reworded.progress (h : Reworded view rows rows') (evaluation : Result Evaluation) :
    Result.Both (Progress.Reworded view) (w.progress rows evaluation) (w.progress rows' evaluation) := by
  unfold Workflow.progress
  rw [h.highest?_eq]
  cases Workflow.highest? rows with
  | none => exact .refl _
  | some top =>
    simp only [h.standing_eq]
    split
    · exact .refl _
    · split
      · exact (Result.Both.of_eq rfl).bind fun e e' he => he ▸ .refl _
      · -- The levels in front were cleared by decisions, or only passed over.
        refine ⟨?_, fun hview => ?_⟩
        · split <;> split <;> rfl
        · simp only [h.cleared_eq hview]

/-! ## Sites -/

namespace Site

/-- The approvals of the sites look the same, and the workflow finds nothing else different. -/
structure Reworded (view : Option String → Option String) (s s' : Site) : Prop where
  alike : s.Alike s'
  rows : Signoff.Reworded view s.approvals.rows s'.approvals.rows

namespace Reworded

theorem refl (s : Site) : s.Reworded view s := ⟨Std.Refl.refl s, .refl _⟩

/-- The offices differ in notifications and in what was heard only. -/
theorem office (h : s.Reworded view s') :
    ∃ notices heard, s'.office = { s.office with notifications := notices, heard := heard } :=
  h.alike.office

theorem requireItem_eq (h : s.Reworded view s') (itemId : Int) (archived : Bool) :
    (Office.requireItem itemId archived).answer s'.office =
      (Office.requireItem itemId archived).answer s.office := by
  obtain ⟨notices, heard, hoffice⟩ := h.office
  rw [Office.answer_requireItem, Office.answer_requireItem, hoffice]

theorem demand_eq (h : s.Reworded view s') (resource : Resource) (permission : Permission) :
    Access.demand s'.office actor resource permission =
      Access.demand s.office actor resource permission := by
  obtain ⟨notices, heard, hoffice⟩ := h.office
  rw [hoffice]
  rfl

theorem evaluationOf_eq (h : s.Reworded view s') (item : Item) :
    s'.evaluationOf item = s.evaluationOf item := by
  obtain ⟨notices, heard, hoffice⟩ := h.office
  unfold evaluationOf
  rw [h.alike.workflow, hoffice]
  rfl

theorem clock_eq (h : s.Reworded view s') : s'.office.clock = s.office.clock := by
  obtain ⟨notices, heard, hoffice⟩ := h.office
  rw [hoffice]

theorem approvalsOf (h : s.Reworded view s') (itemId : Int) :
    Signoff.Reworded view (s.approvalsOf itemId) (s'.approvalsOf itemId) :=
  h.rows.filter fun _ => rfl

theorem rowsNamed (h : s.Reworded view s') (itemId : Int) (level : String) :
    Signoff.Reworded view (s.rowsNamed itemId level) (s'.rowsNamed itemId level) :=
  (h.approvalsOf itemId).filter fun _ => rfl

theorem levelRows (h : s.Reworded view s') (itemId : Int) :
    Result.Both (Signoff.Reworded view) (s.levelRows itemId) (s'.levelRows itemId) := by
  unfold Site.levelRows
  rw [(h.approvalsOf itemId).all_eq fun _ => rfl]
  split
  · exact h.approvalsOf itemId
  · rfl

/-- A level is satisfied alike, -/
theorem isSatisfied_eq (h : s.Reworded view s') (ha : a.Reworded view a') :
    Approvals.isSatisfied w s' a' = Approvals.isSatisfied w s a := by
  rw [ha.congr (f := Approvals.isSatisfied w s') fun _ => rfl]
  exact (h.rowsNamed a.itemId a.level).satisfied_eq a.level

/-- a decision is in sequence alike, -/
theorem checkSequence_eq (h : s.Reworded view s') (ha : a.Reworded view a') :
    Approvals.checkSequence s' a' = Approvals.checkSequence s a := by
  have happroved (level : String) : ((s'.rowsNamed a.itemId level).any fun a => a.status == .approved) =
      (s.rowsNamed a.itemId level).any fun a => a.status == .approved :=
    (h.rowsNamed a.itemId level).any_eq fun _ => rfl
  rw [ha.congr (f := Approvals.checkSequence s') fun _ => rfl]
  unfold Approvals.checkSequence
  simp only [happroved]

/-- and another approval stands in its way alike. -/
theorem isClaimed_eq (h : s.Reworded view s') (ha : a.Reworded view a') :
    s'.isClaimed a' = s.isClaimed a := by
  have hothers : Signoff.Reworded view ((s.rowsNamed a.itemId a.level).filter fun b => b.id != a.id)
      ((s'.rowsNamed a.itemId a.level).filter fun b => b.id != a.id) :=
    (h.rowsNamed a.itemId a.level).filter fun _ => rfl
  have hsame : (((s'.rowsNamed a.itemId a.level).filter fun b => b.id != a.id).any fun b =>
      b.approver == a.approver) =
        ((s.rowsNamed a.itemId a.level).filter fun b => b.id != a.id).any fun b =>
          b.approver == a.approver :=
    hothers.any_eq fun _ => rfl
  rw [ha.congr (f := s'.isClaimed) fun _ => rfl]
  unfold isClaimed
  rw [hsame]

theorem nextKey_eq (h : s.Reworded view s') : s'.approvals.nextKey = s.approvals.nextKey := by
  unfold Table.nextKey
  rw [Table.lastKey_congr (h.rows.map_eq fun _ => rfl)]

theorem get? (h : s.Reworded view s') (key : Int) :
    (s'.approvals.get? key).map (Approval.seen view) =
      (s.approvals.get? key).map (Approval.seen view) := by
  have hseen (rows : List Approval) : (rows.find? fun a => Row.key a == key).map (Approval.seen view) =
      (rows.map (Approval.seen view)).find? fun a => Row.key a == key := by
    rw [List.find?_map]
    rfl
  unfold Table.get?
  rw [hseen, hseen, h.rows]

/-- Whatever is told changes nothing that is compared. -/
theorem of_alike {u u' : Site} (h : s.Reworded view s') (hu : s.Alike u ∧ u.approvals = s.approvals)
    (hu' : s'.Alike u' ∧ u'.approvals = s'.approvals) : u.Reworded view u' where
  alike := Trans.trans (Trans.trans hu.1.symm h.alike) hu'.1
  rows := by
    rw [hu.2, hu'.2]
    exact h.rows

theorem lookedUp (h : s.Reworded view s') (boardId : Int) :
    (s.lookedUp boardId).Reworded view (s'.lookedUp boardId) :=
  h.of_alike ⟨Curious.lookedUp s boardId, lookedUp_approvals s boardId⟩
    ⟨Curious.lookedUp s' boardId, lookedUp_approvals s' boardId⟩

/-- Rows that look the same are written. -/
theorem write {T T' : Table Approval} (h : s.Reworded view s')
    (hrows : Signoff.Reworded view T.rows T'.rows) :
    ({ s with approvals := T } : Site).Reworded view { s' with approvals := T' } where
  alike := Trans.trans (Trans.trans (Alike.of_approvals s T).symm h.alike) (Alike.of_approvals s' T')
  rows := hrows

/-- A row is replaced by one that looks the same. -/
theorem decide (h : s.Reworded view s') (ha : a.Reworded view a') :
    (s.decide a).Reworded view (s'.decide a') := by
  refine h.write ?_
  have hid : a'.id = a.id := ha.congr (f := Approval.id) fun _ => rfl
  have hmodify (a : Approval) (key : Int) (rows : List Approval) :
      (rows.map fun row => if Row.key row == key then a else row).map (Approval.seen view) =
        (rows.map (Approval.seen view)).map fun row =>
          if Row.key row == key then a.seen view else row := by
    rw [List.map_map, List.map_map]
    refine List.map_congr_left fun row _ => ?_
    have hkey : Row.key (row.seen view) = Row.key row := rfl
    simp only [Function.comp_apply, hkey]
    split <;> rfl
  unfold Signoff.Reworded Table.modify
  rw [hmodify, hmodify, hid, h.rows, ha]

end Reworded

end Site

end Signoff
