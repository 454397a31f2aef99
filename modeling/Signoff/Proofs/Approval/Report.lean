import Signoff.Proofs.Approval.Standing

/-! # What overviews report

    The overview of an item looks at the highest level with rows, and at the
    levels behind it. What it reports is a statement about all rows and all
    required levels, as long as the workflow says the same all along:

    * `Workflow.progress_cases`: what each report means for the rows, whatever
      the history of the item.
    * `Workflow.Reports`: what a report has to mean.
    * `Orderly.complete_iff`: where the levels are in order, the highest level with
      rows stands for every required one.
    * `reports_of_steady`: so overviews report what they should.
-/

namespace Signoff

variable {s : Site} {item : Item} {itemId : Int} {actor : Option String} {w : Workflow}
  {e : Evaluation} {rows : List Approval} {p : Progress} {ops : List Operation}

namespace Workflow

/-! ## Single reports -/

/-- An item that has no rows is not submitted, one with a rejection is rejected, a complete one is
    approved, and any other one is under way. -/
theorem progress_cases (h : w.progress rows (.ok e) = .ok p) :
    (p = .notSubmitted ∧ ∀ l, Approval.on rows l = []) ∨
      (p = .rejected ∧ ∃ l, ∃ a ∈ Approval.on rows l, a.status = .rejected) ∨
      (p = .approved ∧ ∃ top, w.Complete e rows top) ∨
      ((p = .pending ∨ p = .inProgress) ∧ (∃ l, Approval.on rows l ≠ []) ∧
        (∀ l, ∀ a ∈ Approval.on rows l, a.status ≠ .rejected) ∧ ¬ ∃ top, w.Complete e rows top) := by
  by_cases happroved : p = .approved
  · subst happroved
    obtain ⟨e', top, he, hcomplete⟩ := complete_of_progress h
    cases he
    exact .inr (.inr (.inl ⟨rfl, top, hcomplete⟩))
  have hincomplete : ¬ ∃ top, w.Complete e rows top := by
    rintro ⟨top, hcomplete⟩
    have hsame : Except.ok p = Except.ok Progress.approved := h.symm.trans (hcomplete.progress rfl)
    exact happroved (Except.ok.inj hsame)
  unfold progress at h
  cases htop : highest? rows with
  | none =>
    rw [htop] at h
    cases h
    refine .inl ⟨rfl, fun l => ?_⟩
    have hnone := List.find?_eq_none.mp htop l (List.mem_reverse.mpr l.mem_all)
    exact List.isEmpty_iff.mp (by simpa using hnone)
  | some top =>
    simp only [htop] at h
    have hrows : ∃ l, Approval.on rows l ≠ [] := ⟨top, (highest?_eq_some htop).1⟩
    by_cases hrejected : (Level.all.any fun l => w.standing rows l == some .rejected) = true
    · rw [if_pos hrejected] at h
      cases h
      exact .inr (.inl ⟨rfl, any_rejected_iff.mp hrejected⟩)
    · rw [if_neg hrejected] at h
      have hnone : ∀ l, ∀ a ∈ Approval.on rows l, a.status ≠ .rejected := by
        intro l a ha hstatus
        exact hrejected (any_rejected_iff.mpr ⟨l, a, ha, hstatus⟩)
      have hway : p = .pending ∨ p = .inProgress := by
        -- Both ways to get here end under way, since the item is not approved.
        split at h
        · simp only [bind, Except.bind, pure, Except.pure] at h
          split at h
          · cases h
            exact .inr rfl
          · cases h
            exact absurd rfl happroved
        · split at h
          · cases h
            exact .inr rfl
          · cases h
            exact .inl rfl
      exact .inr (.inr (.inr ⟨hway, hrows, hnone, hincomplete⟩))

/-- There always is a report where the workflow says something about the item. -/
theorem exists_progress (w : Workflow) (rows : List Approval) (e : Evaluation) :
    ∃ p, w.progress rows (.ok e) = .ok p := by
  unfold progress
  split
  · exact ⟨_, rfl⟩
  · split
    · exact ⟨_, rfl⟩
    · split
      · exact ⟨_, rfl⟩
      · exact ⟨_, rfl⟩

/-- Every required level has rows, and is satisfied by them. -/
def AllSatisfied (w : Workflow) (e : Evaluation) (rows : List Approval) : Prop :=
  ∀ l ∈ e.required, Approval.on rows l ≠ [] ∧ w.satisfied l.name (Approval.on rows l) = true

/-- What the report on an item means, in terms of all its rows and all required levels. -/
structure Reports (w : Workflow) (e : Evaluation) (rows : List Approval) (p : Progress) : Prop where
  notSubmitted : p = .notSubmitted ↔ rows = []
  rejected : p = .rejected ↔ ∃ a ∈ rows, a.status = .rejected
  approved : p = .approved ↔ (∀ a ∈ rows, a.status ≠ .rejected) ∧ w.AllSatisfied e rows
  underWay : p = .pending ∨ p = .inProgress ↔
    rows ≠ [] ∧ (∀ a ∈ rows, a.status ≠ .rejected) ∧ ¬ w.AllSatisfied e rows
  isComplete : p.isComplete = true ↔ p = .approved ∨ p = .rejected

end Workflow

/-! ## Reports on levels in order -/

namespace Orderly

theorem eq_nil_iff (h : Orderly w e rows) : rows = [] ↔ ∀ l, Approval.on rows l = [] := by
  constructor
  · rintro rfl l
    rfl
  · intro hnone
    rw [List.eq_nil_iff_forall_not_mem]
    intro a ha
    obtain ⟨l, hl⟩ := h.named a ha
    have hmem : a ∈ Approval.on rows l := List.mem_filter.mpr ⟨ha, beq_iff_eq.mpr hl⟩
    rw [hnone l] at hmem
    cases hmem

theorem exists_on_iff (h : Orderly w e rows) {P : Approval → Prop} :
    (∃ l, ∃ a ∈ Approval.on rows l, P a) ↔ ∃ a ∈ rows, P a := by
  constructor
  · rintro ⟨l, a, ha, hP⟩
    exact ⟨a, (List.mem_filter.mp ha).1, hP⟩
  · rintro ⟨a, ha, hP⟩
    obtain ⟨l, hl⟩ := h.named a ha
    exact ⟨l, a, List.mem_filter.mpr ⟨ha, beq_iff_eq.mpr hl⟩, hP⟩

/-- Where the levels are in order, an item is complete once every required level is satisfied and nothing
    is rejected. -/
theorem complete_iff (h : Orderly w e rows) (hasks : e.autoApproved = false)
    (hrequired : e.required ≠ []) :
    (∃ top, w.Complete e rows top) ↔
      (∀ a ∈ rows, a.status ≠ .rejected) ∧ w.AllSatisfied e rows := by
  constructor
  · rintro ⟨top, hcomplete⟩
    constructor
    · intro a ha hstatus
      obtain ⟨l, hl⟩ := h.named a ha
      exact hcomplete.noneRejected l a (List.mem_filter.mpr ⟨ha, beq_iff_eq.mpr hl⟩) hstatus
    · intro l hl
      have hle : l.index ≤ top.index := hcomplete.isLast hasks l hl
      by_cases hsame : l = top
      · subst hsame
        exact ⟨hcomplete.hasRows, hcomplete.satisfied⟩
      · -- The level is in front of the highest one, so it has been cleared.
        have hne : l.index ≠ top.index := fun heq => hsame (Level.index_injective heq)
        have hlt : l.index < top.index := by omega
        have hrows : Approval.on rows l ≠ [] := h.stacked l top hlt hcomplete.hasRows
        exact ⟨hrows, (h.cleared l top hlt hcomplete.hasRows).1⟩
  · rintro ⟨hnone, hall⟩
    rcases h.levels with hempty | ⟨top, htop, hlevels⟩
    · -- Some level is required, and it has rows.
      obtain ⟨l, hl⟩ := List.exists_mem_of_ne_nil _ hrequired
      exact absurd (hempty l) (hall l hl).1
    · obtain ⟨hrows, hsatisfied⟩ := hall top htop
      exact ⟨top,
        { hasRows := hrows
          highest := fun l hl => (hlevels l).mp hl
          satisfied := hsatisfied
          noneRejected := fun l a ha => hnone a (List.mem_filter.mp ha).1
          isLast := fun _ l hl => (hlevels l).mp (hall l hl).1 }⟩

/-- So the report means what it has to mean. -/
theorem reports (h : Orderly w e rows) (hasks : e.autoApproved = false)
    (hrequired : e.required ≠ []) (hp : w.progress rows (.ok e) = .ok p) : w.Reports e rows p := by
  have hcomplete := h.complete_iff hasks hrequired
  have hsomewhere : (∃ l, ∃ a ∈ Approval.on rows l, a.status = .rejected) ↔
      ∃ a ∈ rows, a.status = .rejected := h.exists_on_iff
  have hword : p.isComplete = true ↔ p = .approved ∨ p = .rejected := by
    cases p <;> simp [Progress.isComplete]
  rcases Workflow.progress_cases hp with
    ⟨rfl, hempty⟩ | ⟨rfl, hsome⟩ | ⟨rfl, hdone⟩ | ⟨hway, hrows, hnone, hopen⟩
  · -- Without rows nothing is rejected, and no required level is satisfied.
    have hrows : rows = [] := h.eq_nil_iff.mpr hempty
    have hall : ¬ w.AllSatisfied e rows := by
      intro hall
      obtain ⟨l, hl⟩ := List.exists_mem_of_ne_nil _ hrequired
      exact (hall l hl).1 (hempty l)
    exact
      { notSubmitted := by simp [hrows]
        rejected := by simp [hrows]
        approved := by simp [hall]
        underWay := by simp [hrows]
        isComplete := hword }
  · have hrejected : ∃ a ∈ rows, a.status = .rejected := hsomewhere.mp hsome
    have hnone : ¬ ∀ a ∈ rows, a.status ≠ .rejected := by simpa using hrejected
    have hrows : rows ≠ [] := by
      rintro rfl
      simp at hrejected
    exact
      { notSubmitted := by simp [hrows]
        rejected := by simpa using hrejected
        approved := by simp only [reduceCtorEq, hnone, false_and]
        underWay := by simp only [reduceCtorEq, hnone, false_and, and_false, or_self]
        isComplete := hword }
  · obtain ⟨hnone, hall⟩ := hcomplete.mp hdone
    have hrows : rows ≠ [] := by
      rintro rfl
      obtain ⟨l, hl⟩ := List.exists_mem_of_ne_nil _ hrequired
      exact (hall l hl).1 rfl
    exact
      { notSubmitted := by simp [hrows]
        rejected := by simpa using hnone
        approved := by simpa [hall] using hnone
        underWay := by simp [hall]
        isComplete := hword }
  · have hnone' : ∀ a ∈ rows, a.status ≠ .rejected := by
      intro a ha hstatus
      obtain ⟨l, b, hb, hrejected⟩ := hsomewhere.mpr ⟨a, ha, hstatus⟩
      exact hnone l b hb hrejected
    have hall : ¬ w.AllSatisfied e rows := fun hall => hopen (hcomplete.mpr ⟨hnone', hall⟩)
    have hrows' : rows ≠ [] := by
      rintro rfl
      obtain ⟨l, hl⟩ := hrows
      exact hl rfl
    have hne : p ≠ .notSubmitted ∧ p ≠ .rejected ∧ p ≠ .approved := by
      rcases hway with rfl | rfl <;> simp
    exact
      { notSubmitted := by simp [hne.1, hrows']
        rejected := by simpa [hne.2.1] using hnone'
        approved := by simp [hne.2.2, hall]
        underWay := by simpa [hway, hrows', hall] using hnone'
        isComplete := hword }

end Orderly

namespace Site

/-! ## Reports along a run -/

/-- In a steady run from no approvals, on an item of which the workflow requires some level, the overview
    reports what it should to everybody who may read it. -/
theorem reports_of_steady (hsound : s.Sound) (hnone : s.approvalsOf itemId = [])
    (hasks : e.autoApproved = false) (hrequired : e.required ≠ [])
    (hops : ∀ op ∈ ops, ¬ op.Deletes)
    (hsteady : s.Throughout (fun s _ => s.Says itemId w e) ops)
    (hitem : (Office.requireItem itemId true).answer (s.run ops).office = .ok item)
    (heval : (s.run ops).evaluationOf item = .ok (w, e))
    (hpermitted : (Approvals.demandIf actor item .readItems).answer (s.run ops) = .ok ()) :
    ∃ v, (Approvals.overview itemId actor).answer (s.run ops) = .ok v ∧
      w.Reports e ((s.run ops).approvalsOf itemId) v.progress := by
  have hnil : Orderly w e (s.approvalsOf itemId) := hnone ▸ Orderly.nil
  have horderly : Orderly w e ((s.run ops).approvalsOf itemId) :=
    orderly_run hsound hasks hops hsteady hnil
  have hid : item.id = itemId := Office.id_of_requireItem hitem
  obtain ⟨p, hp⟩ := w.exists_progress ((s.run ops).approvalsOf itemId) e
  have hprogress : (progressOf item).answer (s.run ops) = .ok p := by
    obtain ⟨hw, he⟩ := workflow?_of_evaluationOf heval
    have hrows := levelRows_of_named horderly.named
    rw [answer_progressOf, hid, hrows, hw]
    change w.progress _ (w.evaluate _) = _
    rw [he, hp]
  obtain ⟨v, hv, rfl⟩ := overview_of_progressOf hitem hpermitted hprogress
  exact ⟨v, hv, horderly.reports hasks hrequired hp⟩

/-- Both approvals of the small site are given, and the overview reports what it should. -/
theorem reports_of_steady_small :
    let s := small.run [.request .noted 1 (some "A"),
      .transition .noted 1 (.text "approved") (some "A") none,
      .transition .noted 2 (.text "approved") (some "B") none]
    ∃ v, (Approvals.overview 1 (some "A")).answer s = .ok v ∧
      Workflow.small.Reports (Workflow.small.evaluationOf []) (s.approvalsOf 1) v.progress := by
  intro s
  have hitem : (Office.requireItem 1 true).answer s.office = .ok .small := by
    with_unfolding_all rfl
  have heval : s.evaluationOf .small = .ok (.small, Workflow.small.evaluationOf []) := by
    with_unfolding_all rfl
  have hpermitted : (Approvals.demandIf (some "A") .small .readItems).answer s = .ok () := by
    with_unfolding_all rfl
  exact reports_of_steady sound_small rfl rfl (by decide) (by simp [Operation.Deletes])
    steady_small hitem heval hpermitted

end Site

end Signoff
