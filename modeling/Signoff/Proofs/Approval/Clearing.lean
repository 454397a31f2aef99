import Signoff.Proofs.Approval.Atomic
import Signoff.Proofs.Approval.Steady

/-! # Levels that are cleared

    A level is cleared when its rows come to satisfy it. Only a decision on one of
    them does so, and never again:

    * `Turn.on_kept`: a level that has rows keeps them, and gets no others. So it
      stays satisfied.
    * `Turn.satisfied_of_unasked`: a level that nobody is asked about is satisfied
      from the start.
    * `Site.Clears`: a level that had rows in front is satisfied behind, and was
      not in front.
    * `clears_iff`: when a decision clears a level. `approvalsOf_of_error`: a
      decision that fails clears none.
-/

namespace Signoff

variable {s s' : Site} {itemId key : Int} {item : Item} {w w' : Workflow} {e : Evaluation}
  {a d : Approval} {l : Level} {next : Status} {requested : Value} {actor comments : Option String}
  {c : Channels} {op : Operation} {ops : List Operation} {rows rows' : List Approval}
  {fault : Fault}

/-! ## Levels that have rows -/

namespace Turn

/-- A level that has rows keeps them, and gets no others. -/
theorem on_kept (h : Turn s itemId rows rows') (hrows : Approval.on rows l ≠ []) :
    AllKept (Approval.on rows l) (Approval.on rows' l) := by
  cases h with
  | kept hkept => exact hkept.on l
  | @opened kept _ _ _ o now key hkept _ _ _ _ ho =>
    have hkept' : Approval.on kept l ≠ [] := (hkept.on l).ne_nil_iff.mpr hrows
    have hlevel : l ≠ o.level := by
      rintro rfl
      exact hkept' ho.isEmpty
    have hpassed : l ∉ o.passedOver := fun hl => hkept' ((ho.mem_passedOver l).mp hl).2.1
    rw [ho.on_other itemId now key hlevel hpassed]
    exact hkept.on l
  | @approved _ _ _ now key actor _ _ _ _ =>
    have hnone : Approval.on (Draft.rowsFrom itemId now key
        ((Site.missingLevels rows).map (Draft.unasked actor))) l = [] := by
      rw [Approval.on, List.filter_eq_nil_iff]
      intro a ha hlevel
      obtain ⟨d, hd, k, rfl⟩ := Draft.mem_rowsFrom ha
      obtain ⟨m, hm, rfl⟩ := List.mem_map.mp hd
      have hsame : m = l := Level.name_injective (beq_iff_eq.mp hlevel)
      subst hsame
      exact hrows (List.isEmpty_iff.mp (List.mem_filter.mp hm).2)
    rw [on_append, hnone, List.append_nil]
    exact AllKept.refl _

/-- A level with a row that was approved when it was created had no rows in front, and is satisfied. -/
theorem satisfied_of_unasked (h : Turn s itemId rows rows') (ha : a ∈ rows')
    (hnew : a.id ∉ rows.map (·.id)) (happroved : a.status = .approved) (hlevel : a.level = l.name) :
    Approval.on rows l = [] ∧ ∀ w : Workflow, w.satisfied l.name (Approval.on rows' l) = true := by
  have hon : a ∈ Approval.on rows' l := List.mem_filter.mpr ⟨ha, beq_iff_eq.mpr hlevel⟩
  have hempty : Approval.on rows l = [] := by
    by_contra hrows
    -- Otherwise the rows of the level are those that it had.
    obtain ⟨b, hb, hkept⟩ := (h.on_kept hrows).exists_mem_left hon
    apply hnew
    rw [hkept.id]
    exact List.mem_map_of_mem (List.mem_filter.mp hb).1
  have hkeptNil {kept : List Approval} (hkept : AllKept rows kept) : Approval.on kept l = [] := by
    by_contra hrows
    exact (hkept.on l).ne_nil_iff.mp hrows hempty
  have hall : ∀ b ∈ Approval.on rows' l, b.status = .approved := by
    cases h with
    | kept hkept =>
      rw [hkeptNil hkept] at hon
      cases hon
    | @opened kept _ _ _ o now key hkept _ _ _ _ ho =>
      by_cases hopened : l = o.level
      · -- The rows of the opened level wait.
        subst hopened
        have hpending := ho.pending_opened itemId now key a hon
        rw [happroved] at hpending
        cases hpending
      · by_cases hpassed : l ∈ o.passedOver
        · obtain ⟨b, hb, hstatus⟩ := ho.on_passedOver itemId now key hpassed
          rw [hb]
          intro b' hb'
          rw [List.mem_singleton.mp hb']
          exact hstatus
        · rw [ho.on_other itemId now key hopened hpassed, hkeptNil hkept] at hon
          cases hon
    | approved =>
      rw [on_append, hempty, List.nil_append]
      intro b hb
      obtain ⟨d, hd, k, rfl⟩ := Draft.mem_rowsFrom (List.mem_filter.mp hb).1
      obtain ⟨m, -, rfl⟩ := List.mem_map.mp hd
      rfl
  exact ⟨hempty, fun w => w.satisfied_of_all_approved (List.ne_nil_of_mem hon) hall⟩

end Turn

namespace Site

/-- The rows on a level of the item satisfy it. -/
def Satisfied (s : Site) (w : Workflow) (itemId : Int) (l : Level) : Prop :=
  w.satisfied l.name (Approval.on (s.approvalsOf itemId) l) = true

/-- The rows that a level of the item had in front satisfy it behind, and did not do so in front. -/
structure Clears (w : Workflow) (itemId : Int) (l : Level) (s s' : Site) : Prop where
  hasRows : Approval.on (s.approvalsOf itemId) l ≠ []
  unsatisfied : ¬ s.Satisfied w itemId l
  satisfied : s'.Satisfied w itemId l

theorem Satisfied.hasRows (h : s.Satisfied w itemId l) :
    Approval.on (s.approvalsOf itemId) l ≠ [] := by
  intro hnil
  unfold Satisfied at h
  rw [hnil] at h
  cases h

/-- Along a run without deletions a level keeps its rows. -/
theorem hasRows_run (hsound : s.Sound) (hops : ∀ op ∈ ops, ¬ op.Deletes)
    (h : Approval.on (s.approvalsOf itemId) l ≠ []) :
    Approval.on ((s.run ops).approvalsOf itemId) l ≠ [] :=
  rows_run (P := fun _ _ => True) (I := fun rows => Approval.on rows l ≠ [])
    (fun _ _ hturn hrows => (hturn.on_kept hrows).ne_nil_iff.mpr hrows) hsound hops
    (throughout_of_forall fun _ _ => trivial) h

/-- So a level that is satisfied stays satisfied. -/
theorem Satisfied.run (h : s.Satisfied w itemId l) (hsound : s.Sound)
    (hops : ∀ op ∈ ops, ¬ op.Deletes) : (s.run ops).Satisfied w itemId l := by
  refine (rows_run (P := fun _ _ => True) (I := fun rows => Approval.on rows l ≠ [] ∧
    w.satisfied l.name (Approval.on rows l) = true) ?_ hsound hops
    (throughout_of_forall fun _ _ => trivial) ⟨h.hasRows, h⟩).2
  rintro s op rows rows' - - hturn ⟨hrows, hsatisfied⟩
  have hkept := hturn.on_kept hrows
  exact ⟨hkept.ne_nil_iff.mpr hrows, hkept.satisfied hsatisfied⟩

theorem not_clears_of_same (h : s'.approvalsOf itemId = s.approvalsOf itemId) :
    ¬ Clears w itemId l s s' := by
  intro hclears
  have hsatisfied := hclears.satisfied
  unfold Satisfied at hsatisfied
  rw [h] at hsatisfied
  exact hclears.unsatisfied hsatisfied

end Site

namespace Approvals

open Site

/-- Going on leaves a level that has rows as it is. -/
theorem on_goneOn (hrows : Approval.on (s.approvalsOf itemId) l ≠ []) (item : Item) :
    Approval.on ((s.goneOn item).approvalsOf itemId) l = Approval.on (s.approvalsOf itemId) l := by
  rcases goneOn_cases s item with hsame | ⟨w, e, heval, hgone⟩
  · rw [hsame]
  · have hsorted : Ascending e.required :=
      Workflow.ascending_required (workflow?_of_evaluationOf heval).2
    rw [hgone]
    rcases nextOpened_cases s item.id hsorted with hsame | ⟨o, ho, -, hopened⟩
    · rw [hsame]
    · rw [hopened]
      exact (admits_opening ho).rowsNamed_eq hrows

/-- So a decision leaves the levels that have rows behind its write as they are there. -/
theorem on_decidedSite (hrows : Approval.on ((s.decide d).approvalsOf itemId) l ≠ [])
    (a : Approval) (item : Item) (w : Workflow) :
    Approval.on ((decidedSite s a d item w).approvalsOf itemId) l =
      Approval.on ((s.decide d).approvalsOf itemId) l := by
  unfold decidedSite
  split
  · exact on_goneOn hrows item
  · rfl

/-- The workflow that a decision goes by is the one that counts for its item. -/
theorem Decision.workflow_eq (h : Decision s key requested actor comments a next item w')
    (hsaid : s.Says a.itemId w e) : w' = w := by
  have heval : s.evaluationOf item = .ok (w, e) := hsaid item h.itemFound
  have hboth := h.workflow.symm.trans (workflow?_of_evaluationOf heval).1
  exact Except.ok.inj hboth

/-- A decision clears a level just if it is an approval on this level that satisfies it for the first
    time. -/
theorem clears_iff (hkeys : s.approvals.KeysDistinct) (hsaid : s.Says itemId w e)
    (hdecision : Decision s key requested actor comments a next item w')
    (hd : d = a.decided next comments actor s.office.clock)
    (hafter : s'.approvals = (decidedSite s a d item w').approvals) :
    Clears w itemId l s s' ↔ d.status = .approved ∧
      (!isSatisfied w' s a && isSatisfied w' (s.decide d) d) = true ∧ item.id = itemId ∧
        d.level = l.name := by
  obtain ⟨ha, -⟩ := Table.mem_of_get? hdecision.found
  have hid : item.id = a.itemId := hdecision.id_eq
  have hkept : AllKept (s.approvalsOf itemId) ((s.decide d).approvalsOf itemId) := by
    rw [hd]
    exact allKept_decide hkeys ha hdecision.kept itemId
  have hlevel (hrows : Approval.on (s.approvalsOf itemId) l ≠ []) :
      Approval.on (s'.approvalsOf itemId) l = Approval.on ((s.decide d).approvalsOf itemId) l := by
    rw [approvalsOf_congr hafter]
    exact on_decidedSite ((hkept.on l).ne_nil_iff.mpr hrows) a item w'
  rw [Bool.and_eq_true, Bool.not_eq_true']
  constructor
  · rintro ⟨hrows, hunsatisfied, hsatisfied⟩
    unfold Satisfied at hunsatisfied hsatisfied
    rw [hlevel hrows] at hsatisfied
    have hitem : a.itemId = itemId := by
      by_contra hne
      rw [hd, approvalsOf_decide_ne hkeys ha hdecision.kept.id hdecision.kept.itemId (Ne.symm hne)]
        at hsatisfied
      exact hunsatisfied hsatisfied
    subst hitem
    obtain rfl : w' = w := hdecision.workflow_eq hsaid
    rw [Bool.not_eq_true] at hunsatisfied
    rw [hd] at hsatisfied ⊢
    obtain ⟨hnext, hname⟩ := approves_of_satisfied hkeys hdecision hunsatisfied hsatisfied
    obtain ⟨-, hbefore, hbehind⟩ := completes_of_satisfied hkeys hdecision hunsatisfied hsatisfied
    exact ⟨hnext, ⟨hbefore, hbehind⟩, hid, hname⟩
  · rintro ⟨-, ⟨hbefore, hbehind⟩, hitem, hname⟩
    obtain rfl : a.itemId = itemId := hid.symm.trans hitem
    obtain rfl : w' = w := hdecision.workflow_eq hsaid
    have hname' : a.level = l.name := by
      rw [hd] at hname
      exact hname
    have hrows : Approval.on (s.approvalsOf a.itemId) l ≠ [] := by
      apply List.ne_nil_of_mem
      exact List.mem_filter.mpr
        ⟨List.mem_filter.mpr ⟨ha, beq_self_eq_true _⟩, beq_iff_eq.mpr hname'⟩
    refine ⟨hrows, ?_, ?_⟩
    · unfold isSatisfied at hbefore
      rw [hname'] at hbefore
      rw [Satisfied, Bool.not_eq_true]
      exact hbefore
    · have hitem' : d.itemId = a.itemId := by
        rw [hd]
        rfl
      unfold isSatisfied at hbehind
      rw [hname, hitem'] at hbehind
      rw [Satisfied, hlevel hrows]
      exact hbehind

/-- A decision that fails leaves the rows of an item alone, as far as the workflow says something about
    the item. -/
theorem approvalsOf_of_error (htidy : s.Tidy) (hkeys : s.approvals.KeysDistinct)
    (hsaid : s.Says itemId w e)
    (h : (transition c key requested actor comments).answer s = .error fault) :
    ((transition c key requested actor comments).after s).approvalsOf itemId =
      s.approvalsOf itemId := by
  rcases untouched_or_stranded htidy hkeys h with
    huntouched | ⟨a, next, item, w', hstranded, hwritten⟩
  · exact approvalsOf_congr huntouched.approvals itemId
  · -- The decision is stranded, so it is on another item.
    have hne : itemId ≠ a.itemId := by
      rintro rfl
      have heval := hsaid item hstranded.itemFound
      cases hstranded.unevaluated.symm.trans heval
    obtain ⟨ha, -⟩ := Table.mem_of_get? hstranded.found
    rw [approvalsOf_congr hwritten.approvals]
    exact approvalsOf_decide_ne hkeys ha hstranded.kept.id hstranded.kept.itemId hne

end Approvals

end Signoff
