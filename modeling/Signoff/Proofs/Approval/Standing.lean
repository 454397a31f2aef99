import Signoff.Approval.Overview
import Signoff.Proofs.Approval.Steady

/-! # Items that count as approved

    An item counts as approved by its highest level with rows. What is in front
    of that level is another question, as the workflow may change its mind:

    * `Workflow.Complete`: what it means to count as approved.
    * `Site.complete_of_approved`: overviews and the archive go by this.
    * `Stacked`: along every run the levels have rows from the first one upwards.
    * `Site.Treats`: how a level is treated; `Attended` is what stays true of a
      level that is always treated alike.
    * `satisfied_of_approved`: such a level is satisfied where the item counts as
      approved.
-/

namespace Signoff

variable {s : Site} {item : Item} {itemId key : Int} {now : Moment} {actor : Option String}
  {w : Workflow} {e : Evaluation} {rows rows' : List Approval} {o : Opening} {l top : Level}
  {ops : List Operation}

namespace Workflow

/-! ## Progress -/

/-- The highest level with rows, as an item counts as approved by it. -/
structure Complete (w : Workflow) (e : Evaluation) (rows : List Approval) (top : Level) : Prop where
  hasRows : Approval.on rows top ≠ []
  highest : ∀ l, Approval.on rows l ≠ [] → l.index ≤ top.index
  satisfied : w.satisfied top.name (Approval.on rows top) = true
  noneRejected : ∀ l, ∀ a ∈ Approval.on rows l, a.status ≠ .rejected
  isLast : e.autoApproved = false → ∀ l ∈ e.required, l.index ≤ top.index

theorem highest?_eq_some (h : highest? rows = some top) :
    Approval.on rows top ≠ [] ∧ ∀ l, Approval.on rows l ≠ [] → l.index ≤ top.index := by
  obtain ⟨htop, above, below, hall, habove⟩ := List.find?_eq_some_iff_append.mp h
  refine ⟨by simpa using htop, fun l hl => ?_⟩
  have hmem : l ∈ above ++ top :: below := hall ▸ List.mem_reverse.mpr l.mem_all
  have hsorted : (above ++ top :: below).Pairwise fun k l => l.index < k.index :=
    hall ▸ List.pairwise_reverse.mpr Level.all_sorted
  rcases List.mem_append.mp hmem with hmem | hmem
  · -- The search has passed these levels, so they have no rows.
    have hnone := habove l hmem
    exact absurd (List.isEmpty_iff.mp (by simpa using hnone)) hl
  · rcases List.mem_cons.mp hmem with rfl | hmem
    · exact Nat.le_refl _
    · have := (List.pairwise_cons.mp (List.pairwise_append.mp hsorted).2.1).1 l hmem
      omega

/-- The highest level with rows is the only one that all others with rows are in front of. -/
theorem highest?_of_rows (hrows : Approval.on rows top ≠ [])
    (hhighest : ∀ l, Approval.on rows l ≠ [] → l.index ≤ top.index) : highest? rows = some top := by
  cases hfound : highest? rows with
  | none =>
    have hnone := List.find?_eq_none.mp hfound top (List.mem_reverse.mpr top.mem_all)
    exact absurd (List.isEmpty_iff.mp (by simpa using hnone)) hrows
  | some found =>
    obtain ⟨hfoundRows, habove⟩ := highest?_eq_some hfound
    have hsame : found.index = top.index :=
      Nat.le_antisymm (hhighest found hfoundRows) (habove top hrows)
    rw [Level.index_injective hsame]

theorem satisfied_of_standing (h : w.standing rows l = some .approved) :
    w.satisfied l.name (Approval.on rows l) = true := by
  unfold standing at h
  simp only at h
  split at h
  · cases h
  · split at h
    · cases h
    · split at h
      · next hsatisfied => exact hsatisfied
      · cases h

theorem ne_rejected_of_standing (h : w.standing rows l ≠ some .rejected) :
    ∀ a ∈ Approval.on rows l, a.status ≠ .rejected := by
  intro a ha hstatus
  have hne : (Approval.on rows l).isEmpty = false := by
    cases hon : Approval.on rows l with
    | nil => simp [hon] at ha
    | cons => rfl
  have hany : (Approval.on rows l).any (fun a => a.status == .rejected) = true :=
    List.any_eq_true.mpr ⟨a, ha, by simp [hstatus]⟩
  refine h ?_
  unfold standing
  simp [hne, hany]

/-- Where nothing on a level is rejected, the level is not, and it is approved once it is satisfied. -/
theorem standing_of_none_rejected (h : ∀ a ∈ Approval.on rows l, a.status ≠ .rejected) :
    w.standing rows l ≠ some .rejected ∧
      (Approval.on rows l ≠ [] → w.satisfied l.name (Approval.on rows l) = true →
        w.standing rows l = some .approved) := by
  have hany : (Approval.on rows l).any (fun a => a.status == .rejected) = false := by
    rw [List.any_eq_false]
    intro a ha hstatus
    exact h a ha (beq_iff_eq.mp hstatus)
  unfold standing
  simp only [hany, Bool.false_eq_true, ↓reduceIte]
  constructor
  · split
    · nofun
    · split <;> nofun
  · intro hrows hsatisfied
    rw [if_neg (by simpa using hrows), if_pos hsatisfied]

/-- Some level is rejected just if some row on a level is. -/
theorem any_rejected_iff :
    (Level.all.any fun l => w.standing rows l == some .rejected) = true ↔
      ∃ l, ∃ a ∈ Approval.on rows l, a.status = .rejected := by
  constructor
  · intro hany
    obtain ⟨l, -, hstands⟩ := List.any_eq_true.mp hany
    refine ⟨l, ?_⟩
    by_contra hnone
    push Not at hnone
    exact (standing_of_none_rejected hnone).1 (beq_iff_eq.mp hstands)
  · rintro ⟨l, a, ha, hstatus⟩
    have hstands : w.standing rows l = some .rejected := by
      by_contra hne
      exact ne_rejected_of_standing hne a ha hstatus
    exact List.any_eq_true.mpr ⟨l, l.mem_all, beq_iff_eq.mpr hstands⟩

/-- An item counts as approved by its highest level with rows. -/
theorem complete_of_progress {evaluation : Result Evaluation}
    (h : w.progress rows evaluation = .ok .approved) :
    ∃ e top, evaluation = .ok e ∧ w.Complete e rows top := by
  unfold progress at h
  split at h
  · cases h
  · next top htop =>
    obtain ⟨hrows, hhighest⟩ := highest?_eq_some htop
    split at h
    · cases h
    · next hrejected =>
      split at h
      · next hstanding =>
        obtain ⟨e, he, h⟩ := Result.bind_eq_ok h
        refine ⟨e, top, he, hrows, hhighest, satisfied_of_standing (beq_iff_eq.mp hstanding),
          fun l a ha hstatus => ?_, fun hauto l hl => ?_⟩
        · exact hrejected (any_rejected_iff.mpr ⟨l, a, ha, hstatus⟩)
        · by_contra hlt
          have hlater : (top.after.any fun l => e.required.contains l) = true :=
            List.any_eq_true.mpr ⟨l, Level.mem_after.mpr (by omega), by simpa using hl⟩
          simp only [hauto, hlater] at h
          cases h
      · split at h <;> cases h

/-- A complete item counts as approved. -/
theorem Complete.progress {evaluation : Result Evaluation} (h : w.Complete e rows top)
    (he : evaluation = .ok e) : w.progress rows evaluation = .ok .approved := by
  have hrejected : (Level.all.any fun l => w.standing rows l == some .rejected) = false := by
    rw [← Bool.not_eq_true, any_rejected_iff]
    rintro ⟨l, a, ha, hstatus⟩
    exact h.noneRejected l a ha hstatus
  have htop : w.standing rows top = some .approved :=
    (standing_of_none_rejected (h.noneRejected top)).2 h.hasRows h.satisfied
  have hlast : (!e.autoApproved && top.after.any fun l => e.required.contains l) = false := by
    cases hauto : e.autoApproved with
    | true => rfl
    | false =>
      rw [Bool.not_false, Bool.true_and, List.any_eq_false]
      intro l hl hrequired
      have hle := h.isLast hauto l (by simpa using hrequired)
      have hlt := Level.mem_after.mp hl
      omega
  unfold Workflow.progress
  rw [highest?_of_rows h.hasRows h.highest, he]
  simp only [hrejected, htop, hlast, bind, Except.bind]
  rfl

end Workflow

/-! ## Overviews and the archive -/

namespace Site

/-- The overview of an item says how far it has come. -/
theorem progressOf_of_overview {v : Overview}
    (h : (Approvals.overview itemId actor).answer s = .ok v) :
    ∃ item, (Office.requireItem itemId true).answer s.office = .ok item ∧
      (progressOf item).answer s = .ok v.progress := by
  unfold Approvals.overview at h
  rw [(Office.reads_requireItem itemId true).within.answer_bind] at h
  obtain ⟨item, hitem, h⟩ := Result.bind_eq_ok h
  rw [(reads_demandIf actor item .readItems).answer_bind] at h
  obtain ⟨_, -, h⟩ := Result.bind_eq_ok h
  refine ⟨item, hitem, ?_⟩
  unfold Approvals.overviewOf at h
  rw [Task.answer_bind_of_exec (exec_rowsOf s item.id)] at h
  obtain ⟨rows, -, h⟩ := Result.bind_eq_ok h
  rw [Task.answer_bind_of_exec (exec_workflowOf s item.boardId)] at h
  obtain ⟨w, -, h⟩ := Result.bind_eq_ok h
  rw [Task.answer_bind, Approvals.answer_progressOf_lookedUp] at h
  obtain ⟨progress, hprogress, h⟩ := Result.bind_eq_ok h
  cases h
  exact hprogress

/-- Whoever may read an item that stands somewhere gets its overview. -/
theorem overview_of_progressOf {p : Progress}
    (hitem : (Office.requireItem itemId true).answer s.office = .ok item)
    (hpermitted : (Approvals.demandIf actor item .readItems).answer s = .ok ())
    (hprogress : (progressOf item).answer s = .ok p) :
    ∃ v, (Approvals.overview itemId actor).answer s = .ok v ∧ v.progress = p := by
  -- The overview looks at no more than the progress does.
  have hanswer := hprogress
  rw [answer_progressOf] at hanswer
  obtain ⟨rows, hrows, hanswer⟩ := Result.bind_eq_ok hanswer
  obtain ⟨w, hw, -⟩ := Result.bind_eq_ok hanswer
  let v : Overview :=
    { itemId := item.id
      standing := w.standing rows
      progress := p
      rows := Level.all.flatMap (Approval.on rows) }
  have hoverview : (Approvals.overviewOf item).answer s = .ok v := by
    unfold Approvals.overviewOf
    rw [Task.answer_bind_of_exec (exec_rowsOf s item.id), hrows]
    change (workflowOf item.boardId >>= _).answer s = _
    rw [Task.answer_bind_of_exec (exec_workflowOf s item.boardId), hw]
    change (progressOf item >>= _).answer (s.lookedUp item.boardId) = _
    rw [Task.answer_bind, Approvals.answer_progressOf_lookedUp, hprogress]
    rfl
  refine ⟨v, ?_, rfl⟩
  unfold Approvals.overview
  rw [(Office.reads_requireItem itemId true).within.answer_bind, Task.answer_within, hitem]
  change (Approvals.demandIf actor item .readItems >>= _).answer s = _
  rw [(reads_demandIf actor item .readItems).answer_bind, hpermitted]
  exact hoverview

/-- Only an item that counts as approved is archived. -/
theorem progressOf_of_archive (h : (Approvals.archive itemId actor).answer s = .ok true) :
    ∃ item, (Office.requireItem itemId true).answer s.office = .ok item ∧
      (progressOf item).answer s = .ok .approved := by
  unfold Approvals.archive at h
  rw [(Office.reads_requireItem itemId false).within.answer_bind] at h
  obtain ⟨item, hitem, h⟩ := Result.bind_eq_ok h
  rw [(reads_demandIf actor item .archiveItem).answer_bind] at h
  obtain ⟨_, -, h⟩ := Result.bind_eq_ok h
  refine ⟨item, Office.requireItem_archived hitem, ?_⟩
  rw [Task.answer_bind] at h
  obtain ⟨progress, hprogress, h⟩ := Result.bind_eq_ok h
  split at h
  · next happroved => rw [hprogress, beq_iff_eq.mp happroved]
  · cases h

/-- The overview says that the item is approved, or the archive takes it. -/
def CountsAsApproved (s : Site) (itemId : Int) (actor : Option String) : Prop :=
  (∃ v, (Approvals.overview itemId actor).answer s = .ok v ∧ v.progress = .approved) ∨
    (Approvals.archive itemId actor).answer s = .ok true

/-- An item that counts as approved is complete. -/
theorem complete_of_progressOf (h : (progressOf item).answer s = .ok .approved) :
    ∃ w e top, s.evaluationOf item = .ok (w, e) ∧ w.Complete e (s.approvalsOf item.id) top := by
  rw [answer_progressOf] at h
  obtain ⟨rows, hrows, h⟩ := Result.bind_eq_ok h
  obtain ⟨w, hw, h⟩ := Result.bind_eq_ok h
  obtain ⟨e, top, he, hcomplete⟩ := Workflow.complete_of_progress h
  refine ⟨w, e, top, ?_, ?_⟩
  · unfold evaluationOf
    rw [hw]
    change (w.evaluate _ >>= _) = _
    rw [he]
    rfl
  · rw [← (levelRows_eq_ok hrows).1]
    exact hcomplete

theorem complete_of_approved (h : s.CountsAsApproved itemId actor) :
    ∃ item w e top, s.office.items.get? itemId = some item ∧ s.evaluationOf item = .ok (w, e) ∧
      w.Complete e (s.approvalsOf itemId) top := by
  have hprogress : ∃ item, (Office.requireItem itemId true).answer s.office = .ok item ∧
      (progressOf item).answer s = .ok .approved := by
    rcases h with ⟨v, hv, happroved⟩ | h
    · exact happroved ▸ progressOf_of_overview hv
    · exact progressOf_of_archive h
  obtain ⟨item, hitem, hprogress⟩ := hprogress
  obtain ⟨w, e, top, heval, hcomplete⟩ := complete_of_progressOf hprogress
  rw [Office.id_of_requireItem hitem] at hcomplete
  exact ⟨item, w, e, top, (Office.get?_of_requireItem hitem).1, heval, hcomplete⟩

end Site

/-! ## Levels along a run -/

/-- An approval is written on each level that has a draft. -/
theorem Draft.on_ne_nil {ds : List Draft} {d : Draft} (hd : d ∈ ds) (hlevel : d.level = l.name) :
    Approval.on (Draft.rowsFrom itemId now key ds) l ≠ [] := by
  intro hnil
  have hrows : List.Forall₂ (fun (d : Draft) (a : Approval) => ∃ k, a = d.row itemId now k) _
      (Approval.on (Draft.rowsFrom itemId now key ds) l) := Draft.forall₂_on ds l
  rw [hnil, List.forall₂_nil_right_iff, List.filter_eq_nil_iff] at hrows
  exact hrows d hd (beq_iff_eq.mpr hlevel)

/-- When everything is approved, every level has rows. -/
theorem on_approved_ne_nil (rows : List Approval) (l : Level) :
    Approval.on (rows ++ Draft.rowsFrom itemId now key
      ((Site.missingLevels rows).map (Draft.unasked actor))) l ≠ [] := by
  rw [on_append]
  by_cases hl : Approval.on rows l = []
  · -- The level was missing, so it has got a row now.
    have hmissing : l ∈ Site.missingLevels rows :=
      List.mem_filter.mpr ⟨l.mem_all, List.isEmpty_iff.mpr hl⟩
    exact List.append_ne_nil_of_right_ne_nil _
      (Draft.on_ne_nil (List.mem_map_of_mem hmissing) rfl)
  · exact List.append_ne_nil_of_left_ne_nil hl _

/-- No turn leaves a level without rows in front of one with rows. -/
theorem Turn.stacked (h : Turn s itemId rows rows') (hstacked : Stacked rows) : Stacked rows' := by
  cases h with
  | kept hkept => exact hstacked.kept hkept
  | opened hkept _ _ _ _ ho => exact (hstacked.kept hkept).opened ho
  | approved => exact fun l _ _ _ => on_approved_ne_nil rows l

/-- How the workflow treats a level of an item. -/
structure Treatment where
  /-- The approvals that the level needs, as a function of its rows. -/
  needed : Int → Int
  /-- Does the item have to pass the level? -/
  isRequired : Bool
  /-- Does the item need no approval at all? -/
  isAuto : Bool

/-- The level is treated like this in the state, if the workflow says anything about the item. -/
def Site.Treats (s : Site) (itemId : Int) (l : Level) (t : Treatment) : Prop :=
  ∀ item w e, s.office.items.get? itemId = some item → s.evaluationOf item = .ok (w, e) →
    neededOf (w.configOf? l) = t.needed ∧ (l ∈ e.required ↔ t.isRequired = true) ∧
      e.autoApproved = t.isAuto

/-- How a level is treated by what the workflow says. -/
def Treatment.of (w : Workflow) (e : Evaluation) (l : Level) : Treatment where
  needed := neededOf (w.configOf? l)
  isRequired := decide (l ∈ e.required)
  isAuto := e.autoApproved

theorem Site.Says.treats (h : s.Says itemId w e) (l : Level) :
    s.Treats itemId l (Treatment.of w e l) := by
  intro item w' e' hitem heval
  cases (h item hitem).symm.trans heval
  exact ⟨rfl, by simp [Treatment.of], rfl⟩

/-- The rows satisfy the level as it is treated. -/
def Treatment.Satisfies (t : Treatment) (rows : List Approval) : Prop :=
  rows ≠ [] ∧ t.needed rows.length ≤ ((rows.map (·.status)).count .approved : Int)

theorem satisfied_iff {t : Treatment} (h : neededOf (w.configOf? l) = t.needed) :
    w.satisfied l.name rows = true ↔ t.Satisfies rows := by
  unfold Workflow.satisfied Treatment.Satisfies
  rw [levelSatisfied_iff, Workflow.configNamed?_name, h, List.length_map]
  simp

/-- What stays true of the rows of an item while a level is always treated alike. -/
structure Attended (t : Treatment) (l : Level) (rows : List Approval) : Prop where
  stacked : Stacked rows
  /-- An item that needs no approval has no rows, or rows on every level. -/
  whole : t.isAuto = true → rows = [] ∨ ∀ k, Approval.on rows k ≠ []
  /-- A level that the item does not have to pass has approved rows only. -/
  unasked : t.isAuto = true ∨ t.isRequired = false →
    ∀ a ∈ Approval.on rows l, a.status = .approved
  /-- A level that it has to pass is satisfied before any level behind is opened. -/
  asked : t.isAuto = false → t.isRequired = true → ∀ k, l.index < k.index →
    Approval.on rows k ≠ [] → t.Satisfies (Approval.on rows l)

namespace Attended

variable {t : Treatment}

theorem nil : Attended t l [] where
  stacked := Stacked.nil
  whole _ := .inl rfl
  unasked := by simp [Approval.on]
  asked _ _ _ _ h := absurd rfl h

theorem kept (h : Attended t l rows) (hkept : AllKept rows rows') : Attended t l rows' where
  stacked := h.stacked.kept hkept
  whole hauto := by
    rcases h.whole hauto with hnil | hall
    · subst hnil
      exact .inl (List.forall₂_nil_left_iff.mp hkept)
    · exact .inr fun k => (hkept.on k).ne_nil_iff.mpr (hall k)
  unasked hnot a' ha' := by
    obtain ⟨a, ha, hrow⟩ := (hkept.on l).exists_mem_left ha'
    exact hrow.approved (h.unasked hnot a ha)
  asked hauto hrequired k hlt hk := by
    obtain ⟨hne, hneeded⟩ := h.asked hauto hrequired k hlt ((hkept.on k).ne_nil_iff.mp hk)
    refine ⟨(hkept.on l).ne_nil_iff.mpr hne, ?_⟩
    have hcount := count_approved_mono (hkept.on l).statuses
    rw [← (hkept.on l).length_eq]
    omega

theorem opened (h : Attended t l rows) (hne : t.isAuto = true → rows ≠ [])
    (hneeded : neededOf (w.configOf? l) = t.needed) (hrequired : l ∈ e.required ↔ t.isRequired = true)
    (ho : w.Opens e rows o) :
    Attended t l (rows ++ Draft.rowsFrom itemId now key o.drafts) := by
  -- Where the item needs no approval, there is no level left to open.
  have hauto : t.isAuto = false := by
    by_contra hauto
    rw [Bool.not_eq_false] at hauto
    rcases h.whole hauto with hnil | hall
    · exact hne hauto hnil
    · exact hall o.level ho.isEmpty
  refine ⟨h.stacked.opened ho, fun h => ?_, fun hnot => ?_, fun _ hmust k hlt hk => ?_⟩
  · rw [hauto] at h
    cases h
  · have hunrequired : l ∉ e.required := by
      rw [hrequired]
      rcases hnot with hnot | hnot
      · rw [hauto] at hnot
        cases hnot
      · simp [hnot]
    have hlevel : l ≠ o.level := by
      rintro rfl
      exact hunrequired ho.isRequired
    by_cases hpassed : l ∈ o.passedOver
    · obtain ⟨b, hb, happroved⟩ := ho.on_passedOver itemId now key hpassed
      intro a ha
      rw [hb, List.mem_singleton] at ha
      exact ha ▸ happroved
    · rw [ho.on_other itemId now key hlevel hpassed]
      exact h.unasked hnot
  · -- A level behind has rows now, so the opening was at or behind it, and had to wait for `l`.
    have hle := (h.stacked.on_opened_ne_nil ho k).mp hk
    have hlevel : l ≠ o.level := by
      rintro rfl
      omega
    have hmem : l ∈ e.required := hrequired.mpr hmust
    rw [ho.on_other itemId now key hlevel fun hpassed => ho.not_required hpassed hmem]
    exact (satisfied_iff hneeded).mp (ho.front l hmem (by omega)).2

theorem approved (h : Attended t l rows) (hauto : t.isAuto = true) :
    Attended t l (rows ++ Draft.rowsFrom itemId now key
      ((Site.missingLevels rows).map (Draft.unasked actor))) where
  stacked _ _ _ _ := on_approved_ne_nil rows _
  whole _ := .inr (on_approved_ne_nil rows)
  unasked hnot a ha := by
    rw [on_append] at ha
    rcases List.mem_append.mp ha with ha | ha
    · exact h.unasked hnot a ha
    · obtain ⟨d, hd, k, rfl⟩ := Draft.mem_rowsFrom (List.mem_filter.mp ha).1
      obtain ⟨missing, -, rfl⟩ := List.mem_map.mp hd
      rfl
  asked h _ _ _ _ := by
    rw [hauto] at h
    cases h

/-- Every turn that treats the level alike leaves it attended. -/
theorem turn (h : Attended t l rows) (htreats : s.Treats itemId l t)
    (hturn : Turn s itemId rows rows') : Attended t l rows' := by
  cases hturn with
  | kept hkept => exact h.kept hkept
  | opened hkept hitem heval hasked _ ho =>
    obtain ⟨hneeded, hrequired, hauto⟩ := htreats _ _ _ hitem heval
    refine (h.kept hkept).opened (fun h => ?_) hneeded hrequired ho
    rcases hasked with hasked | hrows
    · rw [hauto, h] at hasked
      cases hasked
    · rintro rfl
      exact hrows (List.forall₂_nil_right_iff.mp hkept)
  | approved hitem heval happroved =>
    obtain ⟨-, -, hauto⟩ := htreats _ _ _ hitem heval
    exact h.approved (hauto.symm.trans happroved)

/-- An attended level is satisfied where the item counts as approved. -/
theorem satisfied (h : Attended t l rows) (hcomplete : w.Complete e rows top)
    (hneeded : neededOf (w.configOf? l) = t.needed) (hl : Approval.on rows l ≠ []) :
    w.satisfied l.name (Approval.on rows l) = true := by
  -- A level that was never asked for has approved rows only; any other one was satisfied before a
  -- level behind was opened, or is the highest one itself.
  by_cases hnot : t.isAuto = true ∨ t.isRequired = false
  · exact w.satisfied_of_all_approved hl (h.unasked hnot)
  · obtain ⟨hauto, hrequired⟩ := not_or.mp hnot
    rw [Bool.not_eq_true] at hauto
    rw [Bool.not_eq_false] at hrequired
    rcases Nat.lt_or_eq_of_le (hcomplete.highest l hl) with hlt | heq
    · exact (satisfied_iff hneeded).mpr (h.asked hauto hrequired top hlt hcomplete.hasRows)
    · have hsame : l = top := Level.index_injective heq
      exact hsame ▸ hcomplete.satisfied

end Attended

namespace Site

theorem stacked_run (hsound : s.Sound) (hops : ∀ op ∈ ops, ¬ op.Deletes)
    (h : Stacked (s.approvalsOf itemId)) : Stacked ((s.run ops).approvalsOf itemId) := by
  have halways : s.Throughout (fun _ _ => True) ops := throughout_of_forall fun _ _ => trivial
  exact rows_run (fun _ _ hturn hstacked => hturn.stacked hstacked) hsound hops halways h

/-- Where an item counts as approved behind a run from no approvals, nothing on it is rejected, its
    highest level with rows is satisfied, and every level that it has to pass has rows, unless it needs
    no approval. A level with rows is satisfied if the workflow has treated it alike all along. -/
theorem satisfied_of_approved (hsound : s.Sound) (hnone : s.approvalsOf itemId = [])
    (hops : ∀ op ∈ ops, ¬ op.Deletes) (happroved : (s.run ops).CountsAsApproved itemId actor) :
    ∃ item w e top, (s.run ops).office.items.get? itemId = some item ∧
      (s.run ops).evaluationOf item = .ok (w, e) ∧
      w.Complete e ((s.run ops).approvalsOf itemId) top ∧
      (e.autoApproved = false → ∀ l ∈ e.required,
        Approval.on ((s.run ops).approvalsOf itemId) l ≠ []) ∧
      ∀ l t, Approval.on ((s.run ops).approvalsOf itemId) l ≠ [] →
        s.Throughout (fun s _ => s.Treats itemId l t) ops → (s.run ops).Treats itemId l t →
        w.satisfied l.name (Approval.on ((s.run ops).approvalsOf itemId) l) = true := by
  obtain ⟨item, w, e, top, hitem, heval, hcomplete⟩ := complete_of_approved happroved
  refine ⟨item, w, e, top, hitem, heval, hcomplete, fun hauto l hl => ?_,
    fun l t hl htreated htreats => ?_⟩
  · have hstacked : Stacked ((s.run ops).approvalsOf itemId) :=
      stacked_run hsound hops (hnone ▸ Stacked.nil)
    -- A required level is not behind the highest one with rows, and none in front of it is empty.
    rcases Nat.lt_or_eq_of_le (hcomplete.isLast hauto l hl) with hlt | heq
    · exact hstacked l top hlt hcomplete.hasRows
    · have hsame : l = top := Level.index_injective heq
      exact hsame ▸ hcomplete.hasRows
  · have hattended : Attended t l ((s.run ops).approvalsOf itemId) :=
      rows_run (fun _ htreats hturn hattended => hattended.turn htreats hturn) hsound hops htreated
        (hnone ▸ Attended.nil)
    exact hattended.satisfied hcomplete (htreats item w e hitem heval).1 hl

/-- Both levels of the small site are approved, so the first one is satisfied. -/
theorem satisfied_of_approved_small :
    let s := small.run [.request .noted 1 (some "A"),
      .transition .noted 1 (.text "approved") (some "A") none,
      .transition .noted 2 (.text "approved") (some "B") none]
    s.CountsAsApproved 1 none ∧
      Workflow.small.satisfied "LEVEL_1" (Approval.on (s.approvalsOf 1) .first) = true := by
  intro s
  let e := Workflow.small.evaluationOf []
  have happroved : s.CountsAsApproved 1 none := by
    have hprogress : ((Approvals.overview 1 none).answer s).toOption.map (·.progress) =
        some .approved := by
      decide +kernel
    cases hanswer : (Approvals.overview 1 none).answer s with
    | error fault =>
      rw [hanswer] at hprogress
      cases hprogress
    | ok v =>
      rw [hanswer] at hprogress
      exact .inl ⟨v, hanswer, Option.some.inj hprogress⟩
  have hops : ∀ op ∈ [Operation.request .noted 1 (some "A"),
      .transition .noted 1 (.text "approved") (some "A") none,
      .transition .noted 2 (.text "approved") (some "B") none], ¬ op.Deletes := by
    simp [Operation.Deletes]
  obtain ⟨item, w, e', top, hitem, heval, -, -, hlevels⟩ :=
    satisfied_of_approved sound_small rfl hops happroved
  have hfound {s : Site} (hitem : s.office.items.get? 1 = some .small)
      (heval : s.evaluationOf .small = .ok (.small, e)) :
      s.Treats 1 .first (Treatment.of .small e .first) :=
    (says_of_found hitem heval).treats .first
  have hend : s.evaluationOf .small = .ok (.small, e) := by with_unfolding_all rfl
  have hlast : s.office.items.get? 1 = some .small := by with_unfolding_all rfl
  cases hlast.symm.trans hitem
  cases hend.symm.trans heval
  refine ⟨happroved, hlevels .first (Treatment.of .small e .first) (by decide +kernel) ?_
    (hfound hlast hend)⟩
  exact ⟨hfound rfl (by with_unfolding_all rfl),
    hfound (by with_unfolding_all rfl) (by with_unfolding_all rfl),
    hfound (by with_unfolding_all rfl) (by with_unfolding_all rfl), trivial⟩

/-- A request opens the first level of the small site. When the purchase turns out to be petty, another
    request approves the other levels, and the item counts as approved with the first one pending. -/
theorem approved_with_pending_level :
    let s := small.run [.request .noted 1 (some "A"),
      .office (.changeStatus .nobody 1 (some "A") (.text "Petty")), .request .noted 1 (some "A")]
    small.approvalsOf 1 = [] ∧ s.workflow? 1 = .ok .small ∧
      ((Approvals.overview 1 (some "A")).answer s).toOption.map (·.progress) = some .approved ∧
      ((Approvals.archive 1 (some "A")).answer s).toOption = some true ∧
      (Approval.on (s.approvalsOf 1) .first).map (·.status) = [.pending] ∧
      Workflow.small.satisfied "LEVEL_1" (Approval.on (s.approvalsOf 1) .first) = false := by
  intro s
  refine ⟨rfl, ?_, ?_, ?_, ?_, ?_⟩
  · with_unfolding_all rfl
  all_goals decide +kernel

end Site

end Signoff
