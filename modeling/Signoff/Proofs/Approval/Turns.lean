import Signoff.Proofs.Approval.Transitions

/-! # What one operation does to the approvals of an item

    An operation decides one row at most, and adds rows behind the others:

    * `Approval.Kept`: what no decision changes about a row.
    * `Turn`: rows are kept, and a level may be opened or everything approved.
    * `turn_request`, `turn_transition`: requests and decisions take such a turn
      on every item.
-/

namespace Signoff

/-! ## Rows that are kept -/

/-- The row is the same approval: its status may change unless it is approved, and an approver stays. -/
structure Approval.Kept (a a' : Approval) : Prop where
  id : a'.id = a.id
  itemId : a'.itemId = a.itemId
  level : a'.level = a.level
  createdAt : a'.createdAt = a.createdAt
  approved : a.status = .approved → a'.status = .approved
  approver : a.hasApprover = true → a'.approver = a.approver

namespace Approval

theorem Kept.refl (a : Approval) : a.Kept a := ⟨rfl, rfl, rfl, rfl, fun h => h, fun _ => rfl⟩

theorem Kept.trans {a a' a'' : Approval} (h : a.Kept a') (h' : a'.Kept a'') : a.Kept a'' where
  id := h'.id.trans h.id
  itemId := h'.itemId.trans h.itemId
  level := h'.level.trans h.level
  createdAt := h'.createdAt.trans h.createdAt
  approved := h'.approved ∘ h.approved
  approver := by
    intro hhas
    -- The approver of the first row is named in the second one, so the second step keeps it too.
    have hsame := h.approver hhas
    have hhas' : a'.hasApprover = true := by
      unfold hasApprover
      rw [hsame]
      exact hhas
    rw [h'.approver hhas', hsame]

theorem kept_decided {a : Approval} {next : Status} (comments actor : Option String)
    (now : Moment) (h : a.status = .approved → next = .approved) :
    a.Kept (a.decided next comments actor now) where
  id := rfl
  itemId := rfl
  level := rfl
  createdAt := rfl
  approved := h
  approver := by
    intro hhas
    simp [decided, hhas]

end Approval

/-- Row by row, the approvals are kept. -/
abbrev AllKept (rows rows' : List Approval) : Prop := List.Forall₂ Approval.Kept rows rows'

namespace AllKept

variable {rows rows' : List Approval}

theorem refl (rows : List Approval) : AllKept rows rows :=
  List.forall₂_same.mpr fun a _ => Approval.Kept.refl a

/-- The rows on a level of any name are kept. -/
theorem named (h : AllKept rows rows') (level : String) :
    AllKept (rows.filter fun a => a.level == level) (rows'.filter fun a => a.level == level) := by
  induction h with
  | nil => exact .nil
  | @cons a a' rest rest' ha _ ih =>
    rw [List.filter_cons, List.filter_cons, ha.level]
    split
    · exact .cons ha ih
    · exact ih

theorem on (h : AllKept rows rows') (l : Level) :
    AllKept (Approval.on rows l) (Approval.on rows' l) :=
  h.named l.name

theorem ids (h : AllKept rows rows') : rows'.map (·.id) = rows.map (·.id) := by
  induction h with
  | nil => rfl
  | cons ha _ ih => rw [List.map_cons, List.map_cons, ha.id, ih]

theorem statuses (h : AllKept rows rows') :
    List.Forall₂ (fun s s' : Status => s = .approved → s' = .approved) (rows.map (·.status))
      (rows'.map (·.status)) := by
  rw [List.forall₂_map_left_iff, List.forall₂_map_right_iff]
  exact h.imp fun _ _ ha => ha.approved

/-- A satisfied level stays satisfied. -/
theorem satisfied (h : AllKept rows rows') {w : Workflow} {level : String}
    (hs : w.satisfied level rows = true) : w.satisfied level rows' = true :=
  levelSatisfied_mono h.statuses hs

theorem ne_nil_iff (h : AllKept rows rows') : rows' ≠ [] ↔ rows ≠ [] := by
  cases h <;> simp

theorem exists_mem {a : Approval} (h : AllKept rows rows') (ha : a ∈ rows) :
    ∃ a' ∈ rows', a.Kept a' := by
  induction h with
  | nil => cases ha
  | @cons b b' rest rest' hb _ ih =>
    rcases List.mem_cons.mp ha with rfl | ha
    · exact ⟨b', List.mem_cons_self .., hb⟩
    · obtain ⟨a', ha', hkept⟩ := ih ha
      exact ⟨a', List.mem_cons_of_mem _ ha', hkept⟩

theorem exists_mem_left {a' : Approval} (h : AllKept rows rows') (ha' : a' ∈ rows') :
    ∃ a ∈ rows, a.Kept a' := by
  induction h with
  | nil => cases ha'
  | @cons b b' rest rest' hb _ ih =>
    rcases List.mem_cons.mp ha' with rfl | ha'
    · exact ⟨b, List.mem_cons_self .., hb⟩
    · obtain ⟨a, ha, hkept⟩ := ih ha'
      exact ⟨a, List.mem_cons_of_mem _ ha, hkept⟩

/-- An approved row stays there and stays approved. -/
theorem exists_approved (h : AllKept rows rows') (ha : ∃ a ∈ rows, a.status = .approved) :
    ∃ a ∈ rows', a.status = .approved := by
  obtain ⟨a, hmem, happroved⟩ := ha
  obtain ⟨a', ha', hkept⟩ := h.exists_mem hmem
  exact ⟨a', ha', hkept.approved happroved⟩

end AllKept

/-! ## Turns -/

/-- What becomes of the approvals of an item in one operation. -/
inductive Turn (s : Site) (itemId : Int) (rows : List Approval) : List Approval → Prop where
  /-- A row is decided, or nothing happens. -/
  | kept {rows' : List Approval} (h : AllKept rows rows') : Turn s itemId rows rows'
  /-- A level is opened, maybe behind a decision. -/
  | opened {rows' : List Approval} {item : Item} {w : Workflow} {e : Evaluation} {o : Opening}
      {now : Moment} {key : Int} (h : AllKept rows rows')
      (hitem : s.office.items.get? itemId = some item)
      (heval : s.evaluationOf item = .ok (w, e))
      (hasked : e.autoApproved = false ∨ rows ≠ [])
      (hnamed : ∀ a ∈ rows', ∃ l : Level, a.level = l.name) (ho : w.Opens e rows' o) :
      Turn s itemId rows (rows' ++ Draft.rowsFrom itemId now key o.drafts)
  /-- Every level without rows is approved. -/
  | approved {item : Item} {w : Workflow} {e : Evaluation} {now : Moment} {key : Int}
      {actor : Option String} (hitem : s.office.items.get? itemId = some item)
      (heval : s.evaluationOf item = .ok (w, e)) (hauto : e.autoApproved = true)
      (hnamed : ∀ a ∈ rows, ∃ l : Level, a.level = l.name) :
      Turn s itemId rows (rows ++ Draft.rowsFrom itemId now key
        ((Site.missingLevels rows).map (Draft.unasked actor)))

namespace Site

variable {s : Site}

theorem approvalsOf_congr {s s' : Site} (h : s'.approvals = s.approvals) (itemId : Int) :
    s'.approvalsOf itemId = s.approvalsOf itemId := by
  unfold approvalsOf
  rw [h]

/-- Nothing happens to the approvals. -/
theorem turn_of_same {s' : Site} (h : s'.approvals = s.approvals) (itemId : Int) :
    Turn s itemId (s.approvalsOf itemId) (s'.approvalsOf itemId) := by
  rw [approvalsOf_congr h]
  exact .kept (AllKept.refl _)

/-- The next level is opened as the workflow says, or nothing is. -/
theorem nextOpened_eq (s : Site) (itemId : Int) (w : Workflow) (e : Evaluation) :
    s.nextOpened itemId w e = s ∨
      ∃ o, w.opening e (s.approvalsOf itemId) = some o ∧
        (∀ a ∈ s.approvalsOf itemId, ∃ l : Level, a.level = l.name) ∧
        s.nextOpened itemId w e = s.addDrafts itemId o.drafts := by
  unfold nextOpened
  cases hrows : s.levelRows itemId with
  | error fault => exact .inl rfl
  | ok rows =>
    obtain ⟨rfl, hnamed⟩ := levelRows_eq_ok hrows
    cases ho : w.opening e (s.approvalsOf itemId) with
    | none => exact .inl (by simp only [ho])
    | some o => exact .inr ⟨o, rfl, hnamed, by simp only [ho]⟩

/-- So the next level is opened in its order. -/
theorem nextOpened_cases (s : Site) (itemId : Int) {w : Workflow} {e : Evaluation}
    (hsorted : Ascending e.required) :
    s.nextOpened itemId w e = s ∨
      ∃ o, w.Opens e (s.approvalsOf itemId) o ∧
        (∀ a ∈ s.approvalsOf itemId, ∃ l : Level, a.level = l.name) ∧
        s.nextOpened itemId w e = s.addDrafts itemId o.drafts := by
  rcases nextOpened_eq s itemId w e with hsame | ⟨o, ho, hnamed, hopened⟩
  · exact .inl hsame
  · exact .inr ⟨o, Workflow.opens_of_opening hsorted ho, hnamed, hopened⟩

theorem allApproved_cases (s : Site) (itemId : Int) (actor : Option String) :
    s.allApproved itemId actor = s ∨
      (∀ a ∈ s.approvalsOf itemId, ∃ l : Level, a.level = l.name) ∧
        s.allApproved itemId actor =
          s.addDrafts itemId ((missingLevels (s.approvalsOf itemId)).map (Draft.unasked actor)) := by
  unfold allApproved
  cases hrows : s.levelRows itemId with
  | error fault => exact .inl rfl
  | ok rows =>
    obtain ⟨rfl, hnamed⟩ := levelRows_eq_ok hrows
    exact .inr ⟨hnamed, rfl⟩

theorem approvalsOf_nextOpened_ne {itemId other : Int} (hne : other ≠ itemId) (w : Workflow)
    (e : Evaluation) : (s.nextOpened itemId w e).approvalsOf other = s.approvalsOf other := by
  rcases nextOpened_eq s itemId w e with hsame | ⟨o, -, -, hopened⟩
  · rw [hsame]
  · rw [hopened, approvalsOf_addDrafts_ne s hne]

theorem approvalsOf_allApproved_ne {itemId other : Int} (hne : other ≠ itemId)
    (actor : Option String) :
    (s.allApproved itemId actor).approvalsOf other = s.approvalsOf other := by
  rcases allApproved_cases s itemId actor with hsame | ⟨-, hadd⟩
  · rw [hsame]
  · rw [hadd, approvalsOf_addDrafts_ne s hne]

/-! ## Decisions on a table with distinct keys -/

/-- The row, or the decided one in its place. -/
def replaced (d row : Approval) : Approval := if Row.key row == d.id then d else row

/-- Behind a decision there are the decided row and others. -/
theorem mem_decide {d b : Approval} (h : b ∈ (s.decide d).approvals.rows) :
    b = d ∨ b ∈ s.approvals.rows ∧ b.id ≠ d.id := by
  obtain ⟨row, hrow, hb⟩ : ∃ row ∈ s.approvals.rows, replaced d row = b := List.mem_map.mp h
  unfold replaced at hb
  split at hb
  · exact .inl hb.symm
  · next hkey =>
    subst hb
    exact .inr ⟨hrow, fun hid => hkey (beq_iff_eq.mpr hid)⟩

theorem replaced_cases {a d row : Approval} (hkeys : s.approvals.KeysDistinct)
    (ha : a ∈ s.approvals.rows) (hid : d.id = a.id) (hrow : row ∈ s.approvals.rows) :
    replaced d row = row ∨ row = a ∧ replaced d row = d := by
  unfold replaced
  split
  · next hkey =>
    have hsame : Row.key row = Row.key a := (beq_iff_eq.mp hkey).trans hid
    exact .inr ⟨hkeys.eq_of_key_eq hrow ha hsame, rfl⟩
  · exact .inl rfl

/-- A decision replaces a row of the item that it belongs to. -/
theorem approvalsOf_decide {d : Approval}
    (h : ∀ row ∈ s.approvals.rows, (replaced d row).itemId = row.itemId) (itemId : Int) :
    (s.decide d).approvalsOf itemId = (s.approvalsOf itemId).map (replaced d) := by
  change (s.approvals.rows.map (replaced d)).filter _ = _
  rw [List.filter_map]
  have hfilter : s.approvals.rows.filter ((fun row : Approval => row.itemId == itemId) ∘ replaced d) =
      s.approvalsOf itemId := by
    refine List.filter_congr fun row hrow => ?_
    rw [Function.comp_apply, h row hrow]
  rw [hfilter]

/-- Other items keep their approvals. -/
theorem approvalsOf_decide_ne {a d : Approval} (hkeys : s.approvals.KeysDistinct)
    (ha : a ∈ s.approvals.rows) (hid : d.id = a.id) (hitem : d.itemId = a.itemId) {other : Int}
    (hne : other ≠ a.itemId) : (s.decide d).approvalsOf other = s.approvalsOf other := by
  have hsame : ∀ row ∈ s.approvals.rows, (replaced d row).itemId = row.itemId := by
    intro row hrow
    rcases replaced_cases hkeys ha hid hrow with hsame | ⟨rfl, hd⟩
    · rw [hsame]
    · rw [hd, hitem]
  rw [approvalsOf_decide hsame]
  refine (List.map_congr_left fun row hmem => ?_).trans (List.map_id _)
  obtain ⟨hrow, hother⟩ := List.mem_filter.mp hmem
  rcases replaced_cases hkeys ha hid hrow with hsame | ⟨rfl, -⟩
  · exact hsame
  · exact absurd (beq_iff_eq.mp hother).symm hne

/-- Level by level, a decision replaces a row. -/
theorem rowsNamed_decide {a d : Approval} (hkeys : s.approvals.KeysDistinct)
    (ha : a ∈ s.approvals.rows) (hid : d.id = a.id) (hitem : d.itemId = a.itemId)
    (hlevel : d.level = a.level) (itemId : Int) (level : String) :
    (s.decide d).rowsNamed itemId level = (s.rowsNamed itemId level).map (replaced d) := by
  have hrow : ∀ row ∈ s.approvals.rows, (replaced d row).itemId = row.itemId ∧
      (replaced d row).level = row.level := by
    intro row hrow
    rcases replaced_cases hkeys ha hid hrow with hsame | ⟨rfl, hd⟩
    · rw [hsame]
      exact ⟨rfl, rfl⟩
    · rw [hd]
      exact ⟨hitem, hlevel⟩
  have hfilter : (s.approvalsOf itemId).filter
      ((fun row : Approval => row.level == level) ∘ replaced d) = s.rowsNamed itemId level := by
    refine List.filter_congr fun row hmem => ?_
    rw [Function.comp_apply, (hrow row (List.mem_filter.mp hmem).1).2]
  rw [rowsNamed, approvalsOf_decide fun row hmem => (hrow row hmem).1, List.filter_map, hfilter]

/-- A decision leaves a row, or puts the decided one in its place. -/
theorem allKept_decide {a d : Approval} (hkeys : s.approvals.KeysDistinct)
    (ha : a ∈ s.approvals.rows) (hkept : a.Kept d) (itemId : Int) :
    AllKept (s.approvalsOf itemId) ((s.decide d).approvalsOf itemId) := by
  have hrow : ∀ row ∈ s.approvals.rows, row.Kept (replaced d row) := by
    intro row hrow
    rcases replaced_cases hkeys ha hkept.id hrow with hsame | ⟨rfl, hd⟩
    · rw [hsame]
      exact Approval.Kept.refl row
    · rw [hd]
      exact hkept
  rw [approvalsOf_decide fun row hmem => (hrow row hmem).itemId]
  refine List.forall₂_map_right_iff.mpr (List.forall₂_same.mpr fun row hmem => ?_)
  exact hrow row (List.mem_filter.mp hmem).1

end Site

/-! ## Turns of requests and decisions -/

open Site

variable {s : Site}

/-- Opening the next level behind rows that are kept is a turn on every item. -/
theorem turn_nextOpened {s' : Site} {item : Item} {itemId : Int} {w : Workflow} {e : Evaluation}
    (hkept : ∀ other, AllKept (s.approvalsOf other) (s'.approvalsOf other))
    (hitem : s.office.items.get? itemId = some item) (heval : s.evaluationOf item = .ok (w, e))
    (hasked : e.autoApproved = false ∨ s.approvalsOf itemId ≠ []) (other : Int) :
    Turn s other (s.approvalsOf other) ((s'.nextOpened itemId w e).approvalsOf other) := by
  have hsorted : Ascending e.required :=
    Workflow.ascending_required (workflow?_of_evaluationOf heval).2
  rcases nextOpened_cases s' itemId hsorted with hsame | ⟨o, ho, hnamed, hadd⟩
  · rw [hsame]
    exact .kept (hkept other)
  · rw [hadd]
    by_cases hother : other = itemId
    · subst hother
      rw [approvalsOf_addDrafts]
      exact .opened (hkept other) hitem heval hasked hnamed ho
    · rw [approvalsOf_addDrafts_ne s' hother]
      exact .kept (hkept other)

/-- So is approving every level without rows. -/
theorem turn_allApproved {item : Item} {itemId : Int} {w : Workflow} {e : Evaluation}
    (actor : Option String) (hitem : s.office.items.get? itemId = some item)
    (heval : s.evaluationOf item = .ok (w, e)) (hauto : e.autoApproved = true) (other : Int) :
    Turn s other (s.approvalsOf other) ((s.allApproved itemId actor).approvalsOf other) := by
  rcases allApproved_cases s itemId actor with hsame | ⟨hnamed, hadd⟩
  · rw [hsame]
    exact .kept (AllKept.refl _)
  · rw [hadd]
    by_cases hother : other = itemId
    · subst hother
      rw [approvalsOf_addDrafts]
      exact .approved hitem heval hauto hnamed
    · rw [approvalsOf_addDrafts_ne s hother]
      exact .kept (AllKept.refl _)

/-- A request takes a turn on every item. -/
theorem turn_request (c : Channels) (itemId : Int) (actor : Option String) (s : Site)
    (other : Int) :
    Turn s other (s.approvalsOf other)
      (((Approvals.request c itemId actor).after s).approvalsOf other) := by
  rcases Approvals.after_request c itemId actor s with
    hsame | ⟨item, w, e, hitem, heval, happrovals⟩
  · exact turn_of_same hsame other
  · rw [approvalsOf_congr happrovals]
    by_cases hauto : e.autoApproved = true
    · rw [if_pos hauto]
      exact turn_allApproved actor hitem heval hauto other
    · rw [if_neg hauto]
      have hkept : ∀ other, AllKept (s.approvalsOf other) (s.approvalsOf other) :=
        fun other => AllKept.refl _
      exact turn_nextOpened hkept hitem heval (.inl (by simpa using hauto)) other

/-- A decision keeps the row that it decides. -/
theorem Approvals.Decision.kept {key : Int} {requested : Value} {actor comments : Option String}
    {a : Approval} {next : Status} {item : Item} {w : Workflow}
    (h : Approvals.Decision s key requested actor comments a next item w) :
    a.Kept (a.decided next comments actor s.office.clock) :=
  Approval.kept_decided comments actor _ (Approvals.allowedStatus_eq_ok h.allowed).2

section Satisfying

variable {key : Int} {requested : Value} {actor comments : Option String} {a : Approval}
  {next : Status} {item : Item} {w : Workflow} {l : Level}

/-- A level that a decision satisfies is its own, and the decision approves. -/
theorem Approvals.approves_of_satisfied (hkeys : s.approvals.KeysDistinct)
    (hdecision : Approvals.Decision s key requested actor comments a next item w)
    (hbefore : w.satisfied l.name (Approval.on (s.approvalsOf a.itemId) l) = false)
    (hafter : w.satisfied l.name (Approval.on
      ((s.decide (a.decided next comments actor s.office.clock)).approvalsOf a.itemId) l) = true) :
    next = .approved ∧ a.level = l.name := by
  obtain ⟨ha, -⟩ := Table.mem_of_get? hdecision.found
  let d := a.decided next comments actor s.office.clock
  have hid : d.id = a.id := rfl
  have hlevel : Approval.on ((s.decide d).approvalsOf a.itemId) l =
      (Approval.on (s.approvalsOf a.itemId) l).map (replaced d) :=
    rowsNamed_decide hkeys ha hid rfl rfl a.itemId l.name
  -- Were the row on another level, or not approved, the level would have been satisfied before.
  by_contra hnot
  have hback : w.satisfied l.name (Approval.on (s.approvalsOf a.itemId) l) = true := by
    have hsatisfied : w.satisfied l.name
        ((Approval.on (s.approvalsOf a.itemId) l).map (replaced d)) = true := by
      rw [← hlevel]
      exact hafter
    refine levelSatisfied_mono ?_ hsatisfied
    rw [List.forall₂_map_left_iff, List.forall₂_map_left_iff, List.forall₂_map_right_iff]
    refine List.forall₂_same.mpr fun row hrow happroved => ?_
    obtain ⟨hmem, hon⟩ := List.mem_filter.mp hrow
    rcases replaced_cases hkeys ha hid (List.mem_filter.mp hmem).1 with hsame | ⟨rfl, hd⟩
    · rwa [hsame] at happroved
    · rw [hd] at happroved
      exact absurd ⟨happroved, beq_iff_eq.mp hon⟩ hnot
  rw [hback] at hbefore
  cases hbefore

/-- So the decision counts as one that satisfies its level for the first time. -/
theorem Approvals.completes_of_satisfied (hkeys : s.approvals.KeysDistinct)
    (hdecision : Approvals.Decision s key requested actor comments a next item w)
    (hbefore : w.satisfied l.name (Approval.on (s.approvalsOf a.itemId) l) = false)
    (hafter : w.satisfied l.name (Approval.on
      ((s.decide (a.decided next comments actor s.office.clock)).approvalsOf a.itemId) l) = true) :
    next = .approved ∧ isSatisfied w s a = false ∧
      isSatisfied w (s.decide (a.decided next comments actor s.office.clock))
        (a.decided next comments actor s.office.clock) = true := by
  obtain ⟨hnext, hname⟩ := approves_of_satisfied hkeys hdecision hbefore hafter
  let d := a.decided next comments actor s.office.clock
  have hname' : d.level = l.name := hname
  refine ⟨hnext, ?_, ?_⟩
  · unfold isSatisfied
    rw [hname]
    exact hbefore
  · change w.satisfied d.level ((s.decide d).rowsNamed a.itemId d.level) = true
    rw [hname']
    exact hafter

end Satisfying

/-- A transition takes a turn on every item. -/
theorem turn_transition (hkeys : s.approvals.KeysDistinct) (c : Channels) (key : Int)
    (requested : Value) (actor comments : Option String) (other : Int) :
    Turn s other (s.approvalsOf other)
      (((Approvals.transition c key requested actor comments).after s).approvalsOf other) := by
  rcases Approvals.after_transition c key requested actor comments s with
    ⟨hsame, -⟩ | ⟨a, next, item, w, hdecision, happrovals, -⟩
  · exact turn_of_same hsame other
  · rw [approvalsOf_congr happrovals]
    obtain ⟨hmem, -⟩ := Table.mem_of_get? hdecision.found
    have hkept : ∀ other, AllKept (s.approvalsOf other)
        ((s.decide (a.decided next comments actor s.office.clock)).approvalsOf other) :=
      allKept_decide hkeys hmem hdecision.kept
    unfold Approvals.decidedSite
    split
    · rcases goneOn_cases (s.decide (a.decided next comments actor s.office.clock)) item with
        hsame | ⟨w', e, heval, hopened⟩
      · rw [hsame]
        exact .kept (hkept other)
      · have hitemId : item.id = a.itemId := hdecision.id_eq
        have hrows : s.approvalsOf a.itemId ≠ [] :=
          List.ne_nil_of_mem (List.mem_filter.mpr ⟨hmem, beq_self_eq_true a.itemId⟩)
        rw [hopened, hitemId]
        -- The decision does not change what the workflow says, so `heval` holds of `s` as well.
        exact turn_nextOpened hkept hdecision.itemFound heval (.inr hrows) other
    · exact .kept (hkept other)

end Signoff
