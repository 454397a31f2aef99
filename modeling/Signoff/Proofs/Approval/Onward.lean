import Signoff.Proofs.Approval.Steady
import Signoff.Proofs.Approval.Tidy

/-! # The flow goes on

    While the workflow says the same about an item, its flow is at its end, or it
    waits for somebody: for the decision of a row, for a rejection to be taken
    back, or for another request. The last happens only when a row was approved
    beside a rejected one, since the next level is not opened then, and nothing
    opens it later:

    * `Settled`: every level with rows is satisfied. `Reached`: every level that
      the item has to pass has rows.
    * `Workflow.reached_of_opening`: where nothing is to be opened, a settled
      item has reached its last level.
    * `Onward`: an item that is settled has reached its last level. Openings
      and decisions keep this, unless a decision approves beside a rejection.
    * `onward_of_steady`: what a steady run comes to.
    * `halted_flow`: a run that needs another request.
-/

namespace Signoff

variable {s : Site} {w : Workflow} {e : Evaluation} {rows rows' : List Approval} {o : Opening}
  {itemId key : Int} {now : Moment} {item : Item} {a : Approval} {next : Status}
  {requested : Value} {actor comments : Option String} {ops : List Operation} {op : Operation}

/-- Every level that has rows is satisfied. -/
def Settled (w : Workflow) (rows : List Approval) : Prop :=
  ∀ l, Approval.on rows l ≠ [] → w.satisfied l.name (Approval.on rows l) = true

/-- Every level that the item has to pass has rows. -/
def Reached (e : Evaluation) (rows : List Approval) : Prop :=
  ∀ l ∈ e.required, Approval.on rows l ≠ []

/-- A level is not satisfied, and one of its rows is still to be decided. -/
def Waiting (w : Workflow) (rows : List Approval) : Prop :=
  ∃ l, w.satisfied l.name (Approval.on rows l) = false ∧
    ∃ a ∈ Approval.on rows l, a.status = .pending

namespace Reached

theorem append (h : Reached e rows) (new : List Approval) : Reached e (rows ++ new) := by
  intro l hl
  rw [on_append]
  exact List.append_ne_nil_of_left_ne_nil (h l hl) _

theorem kept (h : Reached e rows) (hkept : AllKept rows rows') : Reached e rows' := by
  intro l hl
  exact (hkept.on l).ne_nil_iff.mpr (h l hl)

end Reached

/-! ## Openings -/

namespace Workflow

/-- The search for a level to open stops where a level is not satisfied, or goes past all of them. -/
theorem reached_of_openingFrom (hsettled : Settled w rows) {last : Option Level} {ls : List Level}
    (h : w.openingFrom e rows last ls = none) : ∀ l ∈ ls, Approval.on rows l ≠ [] := by
  induction ls generalizing last with
  | nil => simp
  | cons k rest ih =>
    unfold openingFrom at h
    split at h
    · cases h
    · next hempty =>
      have hrows : Approval.on rows k ≠ [] := fun hnil => hempty (by rw [hnil]; rfl)
      rw [if_pos (hsettled k hrows)] at h
      intro l hl
      rcases List.mem_cons.mp hl with rfl | hl
      · exact hrows
      · exact ih h l hl

/-- Where nothing is rejected and nothing is to be opened, a settled item has reached its last level. -/
theorem reached_of_opening (hnone : ∀ a ∈ rows, a.status ≠ .rejected) (hsettled : Settled w rows)
    (h : w.opening e rows = none) : Reached e rows := by
  unfold opening at h
  rw [if_neg] at h
  · exact reached_of_openingFrom hsettled h
  · intro hany
    obtain ⟨a, ha, hstatus⟩ := List.any_eq_true.mp hany
    exact hnone a ha (beq_iff_eq.mp hstatus)

/-- Behind an opening an item is not settled. -/
theorem Opens.not_settled (hw : w.Sound) (ho : w.Opens e rows o) :
    ¬ Settled w (rows ++ Draft.rowsFrom itemId now key o.drafts) := by
  intro hsettled
  have hsatisfied := hsettled o.level (ho.opened_ne_nil itemId now key)
  rw [ho.unsatisfied_opened itemId now key hw] at hsatisfied
  cases hsatisfied

end Workflow

/-! ## Items that go on -/

/-- An item with rows that is settled has reached its last level. -/
def Onward (w : Workflow) (e : Evaluation) (rows : List Approval) : Prop :=
  rows ≠ [] → Settled w rows → Reached e rows

namespace Site

/-- A decision that settles the item completes its level. -/
theorem completes_of_settled (hkeys : s.approvals.KeysDistinct)
    (hdecision : Approvals.Decision s key requested actor comments a next item w)
    (hbefore : ¬ Settled w (s.approvalsOf a.itemId))
    (hafter : Settled w
      ((s.decide (a.decided next comments actor s.office.clock)).approvalsOf a.itemId)) :
    next = .approved ∧ Approvals.isSatisfied w s a = false ∧
      Approvals.isSatisfied w (s.decide (a.decided next comments actor s.office.clock))
        (a.decided next comments actor s.office.clock) = true := by
  obtain ⟨l, hrows, hunsatisfied⟩ : ∃ l, Approval.on (s.approvalsOf a.itemId) l ≠ [] ∧
      w.satisfied l.name (Approval.on (s.approvalsOf a.itemId) l) = false := by
    simpa [Settled] using hbefore
  have hkept := allKept_decide hkeys (Table.mem_of_get? hdecision.found).1 hdecision.kept a.itemId
  exact Approvals.completes_of_satisfied hkeys hdecision hunsatisfied
    (hafter l ((hkept.on l).ne_nil_iff.mpr hrows))

/-- A request opens the next level, or nothing. -/
theorem onward_nextOpened (hw : w.Sound) (hsorted : Ascending e.required)
    (h : Onward w e (s.approvalsOf itemId)) :
    Onward w e ((s.nextOpened itemId w e).approvalsOf itemId) := by
  rcases nextOpened_cases s itemId hsorted with hsame | ⟨o, ho, -, hopened⟩
  · rw [hsame]
    exact h
  · rw [hopened, approvalsOf_addDrafts]
    intro _ hsettled
    exact absurd hsettled (ho.not_settled hw)

/-- Where nothing is rejected, the flow goes on as far as it can. -/
theorem onward_of_nextOpened (hw : w.Sound) (hsorted : Ascending e.required)
    (hnamed : ∀ a ∈ s.approvalsOf itemId, ∃ l : Level, a.level = l.name)
    (hnone : ∀ a ∈ s.approvalsOf itemId, a.status ≠ .rejected) :
    Onward w e ((s.nextOpened itemId w e).approvalsOf itemId) := by
  unfold nextOpened
  rw [levelRows_of_named hnamed]
  cases ho : w.opening e (s.approvalsOf itemId) with
  | none =>
    simp only [ho]
    intro _ hsettled
    exact Workflow.reached_of_opening hnone hsettled ho
  | some o =>
    simp only [ho, approvalsOf_addDrafts]
    intro _ hsettled
    exact absurd hsettled ((Workflow.opens_of_opening hsorted ho).not_settled hw)

/-- A decision keeps an item onward, unless it approves a row beside a rejected one. -/
theorem onward_decision (hkeys : s.approvals.KeysDistinct) (hw : w.Sound)
    (heval : s.evaluationOf item = .ok (w, e))
    (hdecision : Approvals.Decision s key requested actor comments a next item w)
    (hnamed : ∀ b ∈ s.approvalsOf a.itemId, ∃ l : Level, b.level = l.name)
    (hbeside : next = .approved → ∀ b ∈ s.approvalsOf a.itemId, b.id ≠ key → b.status ≠ .rejected)
    (h : Onward w e (s.approvalsOf a.itemId)) :
    Onward w e ((Approvals.decidedSite s a (a.decided next comments actor s.office.clock) item
      w).approvalsOf a.itemId) := by
  obtain ⟨ha, hkey⟩ := Table.mem_of_get? hdecision.found
  let d := a.decided next comments actor s.office.clock
  have hid : item.id = a.itemId := hdecision.id_eq
  have hkept : AllKept (s.approvalsOf a.itemId) ((s.decide d).approvalsOf a.itemId) :=
    allKept_decide hkeys ha hdecision.kept a.itemId
  have hrows : s.approvalsOf a.itemId ≠ [] :=
    List.ne_nil_of_mem (List.mem_filter.mpr ⟨ha, beq_self_eq_true a.itemId⟩)
  have hgone : (s.decide d).goneOn item = (s.decide d).nextOpened a.itemId w e := by
    have heval' : (s.decide d).evaluationOf item = .ok (w, e) := heval
    unfold goneOn
    rw [heval', hid]
  by_cases hsettled : Settled w (s.approvalsOf a.itemId)
  · -- The item had reached its last level before, and rows are not lost.
    have hreached : Reached e ((s.decide d).approvalsOf a.itemId) := (h hrows hsettled).kept hkept
    intro _ _
    unfold Approvals.decidedSite
    split
    · rw [hgone]
      rcases nextOpened_eq (s.decide d) a.itemId w e with hsame | ⟨o, -, -, hopened⟩
      · rw [hsame]
        exact hreached
      · rw [hopened, approvalsOf_addDrafts]
        exact hreached.append _
    · exact hreached
  · have hsorted : Ascending e.required :=
      Workflow.ascending_required (workflow?_of_evaluationOf heval).2
    unfold Approvals.decidedSite
    split
    · next hcompletes =>
      -- The flow goes on, since all other rows were not rejected, and this one is approved now.
      rw [hgone]
      apply onward_of_nextOpened hw hsorted
      · intro b' hb'
        obtain ⟨b, hb, hrow⟩ := hkept.exists_mem_left hb'
        obtain ⟨l, hl⟩ := hnamed b hb
        exact ⟨l, hrow.level.trans hl⟩
      · intro b' hb' hrejected
        obtain ⟨hmem, hitem⟩ := List.mem_filter.mp hb'
        rcases mem_decide hmem with rfl | ⟨hold, hne⟩
        · rw [hcompletes.1] at hrejected
          cases hrejected
        · have hother : b'.id ≠ key := fun hsame => hne (hsame.trans hkey.symm)
          exact hbeside hcompletes.1 b' (List.mem_filter.mpr ⟨hold, hitem⟩) hother hrejected
    · next hstays =>
      intro _ hafter
      exact absurd (completes_of_settled hkeys hdecision hsettled hafter) hstays

end Site

/-- The operation approves a row of the item while another of its rows is rejected. -/
def Operation.ApprovesBeside (itemId : Int) (s : Site) : Operation → Prop
  | .transition _ key requested _ _ =>
    requested = .text "approved" ∧ (∃ a ∈ s.approvalsOf itemId, a.id = key) ∧
      ∃ b ∈ s.approvalsOf itemId, b.id ≠ key ∧ b.status = .rejected
  | _ => False

/-- Only one word approves. -/
theorem Approvals.requested_of_approved (h : allowedStatus a requested = .ok .approved) :
    requested = .text "approved" := by
  obtain ⟨⟨word, rfl, hword⟩, -⟩ := allowedStatus_eq_ok h
  by_contra hne
  have happroved : word ≠ "approved" := fun hword => hne (by rw [hword])
  unfold Status.ofWord? Status.ofWord at hword
  rw [if_neg happroved] at hword
  -- The other words name other statuses, or none.
  by_cases hpending : word = "pending"
  · rw [if_pos hpending] at hword
    cases hword
  · rw [if_neg hpending] at hword
    by_cases hrejected : word = "rejected"
    · rw [if_pos hrejected] at hword
      cases hword
    · rw [if_neg hrejected] at hword
      cases hword

namespace Site

/-- A request keeps every item onward. -/
theorem onward_request (c : Channels) (actor : Option String) (other : Int)
    (hinformed : s.Informed) (hsaid : s.Says itemId w e) (hasks : e.autoApproved = false)
    (h : Onward w e (s.approvalsOf itemId)) :
    Onward w e (((Approvals.request c other actor).after s).approvalsOf itemId) := by
  rcases Approvals.after_request c other actor s with
    hsame | ⟨item, w', e', hitem, heval, happrovals⟩
  · rw [approvalsOf_congr hsame]
    exact h
  · rw [approvalsOf_congr happrovals]
    by_cases hother : itemId = other
    · subst hother
      cases (hsaid item hitem).symm.trans heval
      rw [if_neg (by simp [hasks])]
      obtain ⟨hw, he⟩ := workflow?_of_evaluationOf heval
      exact onward_nextOpened (hinformed.sound hw) (Workflow.ascending_required he) h
    · -- Rows are added to another item.
      split
      · rw [approvalsOf_allApproved_ne hother]
        exact h
      · rw [approvalsOf_nextOpened_ne hother]
        exact h

/-- So does a decision that does not approve beside a rejection. -/
theorem onward_transition (c : Channels) (key : Int) (requested : Value)
    (actor comments : Option String) (hsound : s.Sound) (hsaid : s.Says itemId w e)
    (hbeside : ¬ (Operation.transition c key requested actor comments).ApprovesBeside itemId s)
    (horderly : Orderly w e (s.approvalsOf itemId)) (h : Onward w e (s.approvalsOf itemId)) :
    Onward w e (((Approvals.transition c key requested actor comments).after s).approvalsOf
      itemId) := by
  rcases Approvals.after_transition c key requested actor comments s with
    ⟨hsame, -⟩ | ⟨a, next, item, w', hdecision, happrovals, -⟩
  · rw [approvalsOf_congr hsame]
    exact h
  · rw [approvalsOf_congr happrovals]
    obtain ⟨ha, hkey⟩ := Table.mem_of_get? hdecision.found
    have hid : item.id = a.itemId := hdecision.id_eq
    by_cases hitemId : itemId = a.itemId
    · subst hitemId
      have heval := hsaid item hdecision.itemFound
      obtain ⟨hw, -⟩ := workflow?_of_evaluationOf heval
      cases hw.symm.trans hdecision.workflow
      refine onward_decision hsound.keysDistinct (hsound.informed.sound hw) heval hdecision
        horderly.named (fun hnext b hb hne hrejected => hbeside ?_) h
      have hmem : a ∈ s.approvalsOf a.itemId :=
        List.mem_filter.mpr ⟨ha, beq_self_eq_true a.itemId⟩
      have hrequested := Approvals.requested_of_approved (hnext ▸ hdecision.allowed)
      exact ⟨hrequested, ⟨a, hmem, hkey⟩, b, hb, hne, hrejected⟩
    · -- A row of another item is decided.
      have hrow : (a.decided next comments actor s.office.clock).id = a.id := rfl
      have hother : (s.decide (a.decided next comments actor s.office.clock)).approvalsOf itemId =
          s.approvalsOf itemId := approvalsOf_decide_ne hsound.keysDistinct ha hrow rfl hitemId
      unfold Approvals.decidedSite
      split
      · rcases goneOn_cases (s.decide (a.decided next comments actor s.office.clock)) item with
          hsame | ⟨w'', e', -, hgone⟩
        · rw [hsame, hother]
          exact h
        · rw [hgone, hid, approvalsOf_nextOpened_ne hitemId, hother]
          exact h
      · rw [hother]
        exact h

theorem onward_after (hsound : s.Sound) (hdelete : ¬ op.Deletes) (hsaid : s.Says itemId w e)
    (hasks : e.autoApproved = false) (hbeside : ¬ op.ApprovesBeside itemId s)
    (horderly : Orderly w e (s.approvalsOf itemId)) (h : Onward w e (s.approvalsOf itemId)) :
    Onward w e ((op.after s).approvalsOf itemId) := by
  by_cases hquiet : op.IsQuiet
  · rw [approvalsOf_congr (Operation.approvals_after hquiet)]
    exact h
  · cases op with
    | request c other actor =>
      rw [Operation.after, Operation.perform, Task.after_discard]
      exact onward_request c actor other hsound.informed hsaid hasks h
    | transition c key requested actor comments =>
      rw [Operation.after, Operation.perform, Task.after_discard]
      exact onward_transition c key requested actor comments hsound hsaid hbeside horderly h
    | delete key actor => exact absurd trivial hdelete
    | _ => exact absurd trivial hquiet

/-- An item stays onward along a steady run in which nothing is approved beside a rejection. -/
theorem onward_run (hsound : s.Sound) (hasks : e.autoApproved = false)
    (hops : ∀ op ∈ ops, ¬ op.Deletes) (hsteady : s.Throughout (fun s _ => s.Says itemId w e) ops)
    (hbeside : s.Throughout (fun s op => ¬ op.ApprovesBeside itemId s) ops)
    (horderly : Orderly w e (s.approvalsOf itemId)) (h : Onward w e (s.approvalsOf itemId)) :
    Onward w e ((s.run ops).approvalsOf itemId) := by
  induction ops generalizing s with
  | nil => exact h
  | cons op rest ih =>
    obtain ⟨hsaid, hsteady⟩ := hsteady
    obtain ⟨hfirst, hbeside⟩ := hbeside
    have hop := hops op (List.mem_cons_self ..)
    refine ih (hsound.after op) (fun op' hop' => hops op' (List.mem_cons_of_mem _ hop')) hsteady
      hbeside ?_ (onward_after hsound hop hsaid hasks hfirst horderly h)
    exact orderly_turn hsound.informed hsaid hasks (op.turn hsound.keysDistinct hop itemId) horderly

/-! ## Statuses along a run -/

/-- Every row of the item is pending, approved or rejected. -/
def Spoken (s : Site) (itemId : Int) : Prop :=
  ∀ a ∈ s.approvalsOf itemId, ∀ word, a.status ≠ .other word

theorem Spoken.decide (h : s.Spoken itemId)
    (hdecision : Approvals.Decision s key requested actor comments a next item w) :
    (s.decide (a.decided next comments actor s.office.clock)).Spoken itemId := by
  intro b hb word hstatus
  obtain ⟨hmem, hitem⟩ := List.mem_filter.mp hb
  rcases mem_decide hmem with rfl | ⟨hold, -⟩
  · -- Nobody can ask for any other status.
    obtain ⟨⟨asked, -, hasked⟩, -⟩ := Approvals.allowedStatus_eq_ok hdecision.allowed
    have hnext : next = .other word := hstatus
    unfold Status.ofWord? at hasked
    split at hasked
    · cases hasked
    · next hother =>
      cases hasked
      exact hother word hnext
  · exact h b (List.mem_filter.mpr ⟨hold, hitem⟩) word hstatus

theorem Spoken.addDrafts {ds : List Draft} {other : Int} (h : s.Spoken itemId)
    (hds : ∀ d ∈ ds, d.Proper) : (s.addDrafts other ds).Spoken itemId := by
  intro b hb word hstatus
  obtain ⟨hmem, hitem⟩ := List.mem_filter.mp hb
  rcases List.mem_append.mp hmem with hold | hnew
  · exact h b (List.mem_filter.mpr ⟨hold, hitem⟩) word hstatus
  · obtain ⟨d, hd, k, rfl⟩ := Draft.mem_rowsFrom hnew
    have hdraft : d.status = .other word := hstatus
    rcases (hds d hd).status with hpending | happroved
    · rw [hpending] at hdraft
      cases hdraft
    · rw [happroved] at hdraft
      cases hdraft

theorem Spoken.after (h : s.Spoken itemId) (op : Operation) : (op.after s).Spoken itemId := by
  obtain ⟨s', hwritten, hsame⟩ := written_after s op
  have hs' : s'.Spoken itemId := by
    cases hwritten with
    | nothing => exact h
    | removed =>
      intro b hb
      obtain ⟨hmem, hitem⟩ := List.mem_filter.mp hb
      exact h b (List.mem_filter.mpr ⟨(List.mem_filter.mp hmem).1, hitem⟩)
    | decided hdecision => exact h.decide hdecision
    | added hadds =>
      have hproper := hadds.admits.proper
      cases hadds with
      | opened => exact h.addDrafts hproper
      | approved => exact h.addDrafts hproper
      | goneOn hdecision => exact (h.decide hdecision).addDrafts hproper
  intro b hb
  rw [approvalsOf_congr hsame] at hb
  exact hs' b hb

theorem Spoken.run (h : s.Spoken itemId) (ops : List Operation) : (s.run ops).Spoken itemId := by
  induction ops generalizing s with
  | nil => exact h
  | cons op rest ih => exact ih (h.after op)

/-- An item that is not settled waits for a decision, unless something is rejected. -/
theorem waiting_of_not_settled (hspoken : s.Spoken itemId)
    (hnone : ∀ a ∈ s.approvalsOf itemId, a.status ≠ .rejected)
    (h : ¬ Settled w (s.approvalsOf itemId)) : Waiting w (s.approvalsOf itemId) := by
  obtain ⟨l, hrows, hunsatisfied⟩ : ∃ l, Approval.on (s.approvalsOf itemId) l ≠ [] ∧
      w.satisfied l.name (Approval.on (s.approvalsOf itemId) l) = false := by
    simpa [Settled] using h
  refine ⟨l, hunsatisfied, ?_⟩
  by_contra hnobody
  have hall : ∀ a ∈ Approval.on (s.approvalsOf itemId) l, a.status = .approved := by
    intro a ha
    have hmem := (List.mem_filter.mp ha).1
    cases hstatus : a.status with
    | pending => exact absurd ⟨a, ha, hstatus⟩ hnobody
    | approved => rfl
    | rejected => exact absurd hstatus (hnone a hmem)
    | other word => exact absurd hstatus (hspoken a hmem word)
  -- A level of approved rows only is satisfied.
  rw [w.satisfied_of_all_approved hrows hall] at hunsatisfied
  cases hunsatisfied

/-! ## Steady runs -/

/-- Behind a steady run from no approvals, an item with rows is rejected, or waits for a decision, or has
    reached its last level, or would go on with another request. If nothing was approved beside a
    rejection, no such request is needed: an item with nothing rejected waits for a decision, or has
    reached its last level. -/
theorem onward_of_steady (hsound : s.Sound) (hnone : s.approvalsOf itemId = [])
    (hasks : e.autoApproved = false) (hops : ∀ op ∈ ops, ¬ op.Deletes)
    (hsteady : s.Throughout (fun s _ => s.Says itemId w e) ops) :
    ((∃ a ∈ (s.run ops).approvalsOf itemId, a.status = .rejected) ∨
        Waiting w ((s.run ops).approvalsOf itemId) ∨
        Settled w ((s.run ops).approvalsOf itemId) ∧ Reached e ((s.run ops).approvalsOf itemId) ∨
        ∃ o, w.opening e ((s.run ops).approvalsOf itemId) = some o) ∧
      (s.Throughout (fun s op => ¬ op.ApprovesBeside itemId s) ops →
        (s.run ops).approvalsOf itemId ≠ [] →
        (∀ a ∈ (s.run ops).approvalsOf itemId, a.status ≠ .rejected) →
          Waiting w ((s.run ops).approvalsOf itemId) ∨
            Settled w ((s.run ops).approvalsOf itemId) ∧
              Reached e ((s.run ops).approvalsOf itemId)) := by
  have hspoken : (s.run ops).Spoken itemId := by
    apply Spoken.run
    intro a ha
    rw [hnone] at ha
    cases ha
  constructor
  · by_cases hrejected : ∃ a ∈ (s.run ops).approvalsOf itemId, a.status = .rejected
    · exact .inl hrejected
    · have hfree : ∀ a ∈ (s.run ops).approvalsOf itemId, a.status ≠ .rejected :=
        fun a ha hstatus => hrejected ⟨a, ha, hstatus⟩
      by_cases hsettled : Settled w ((s.run ops).approvalsOf itemId)
      · cases ho : w.opening e ((s.run ops).approvalsOf itemId) with
        | some o => exact .inr (.inr (.inr ⟨o, rfl⟩))
        | none =>
          have hreached := Workflow.reached_of_opening hfree hsettled ho
          exact .inr (.inr (.inl ⟨hsettled, hreached⟩))
      · exact .inr (.inl (waiting_of_not_settled hspoken hfree hsettled))
  · intro hbeside hrows hfree
    have horderly : Orderly w e (s.approvalsOf itemId) := hnone ▸ Orderly.nil
    have honward : Onward w e ((s.run ops).approvalsOf itemId) := by
      apply onward_run hsound hasks hops hsteady hbeside horderly
      rw [hnone]
      exact fun h => absurd rfl h
    by_cases hsettled : Settled w ((s.run ops).approvalsOf itemId)
    · exact .inr ⟨hsettled, honward hrows hsettled⟩
    · exact .inl (waiting_of_not_settled hspoken hfree hsettled)

/-- On the small site the approval of the first level opens the second one, which waits. -/
theorem onward_of_steady_small :
    let s := small.run [.request .noted 1 (some "A"),
      .transition .noted 1 (.text "approved") (some "A") none]
    Waiting .small (s.approvalsOf 1) ∨
      Settled .small (s.approvalsOf 1) ∧
        Reached (Workflow.small.evaluationOf []) (s.approvalsOf 1) := by
  intro s
  have hitem : small.office.items.get? 1 = some .small := rfl
  have hitem' : (small.run [.request .noted 1 (some "A")]).office.items.get? 1 = some .small := by
    with_unfolding_all rfl
  have hsteady : small.Throughout (fun s _ => s.Says 1 .small (Workflow.small.evaluationOf []))
      [.request .noted 1 (some "A"), .transition .noted 1 (.text "approved") (some "A") none] :=
    ⟨says_of_found hitem (by with_unfolding_all rfl),
      says_of_found hitem' (by with_unfolding_all rfl), trivial⟩
  have hpending : (small.run [.request .noted 1 (some "A")]).approvalsOf 1 =
      [{ id := 1, itemId := 1, level := "LEVEL_1", status := .pending, approver := some "A",
         comments := none, createdAt := ⟨0⟩, decidedAt := none }] := by
    with_unfolding_all rfl
  have hbeside : small.Throughout (fun s op => ¬ op.ApprovesBeside 1 s)
      [.request .noted 1 (some "A"), .transition .noted 1 (.text "approved") (some "A") none] := by
    refine ⟨id, ?_, trivial⟩
    rintro ⟨-, -, b, hb, hne, -⟩
    change b ∈ (small.run [.request .noted 1 (some "A")]).approvalsOf 1 at hb
    rw [hpending, List.mem_singleton] at hb
    exact hne (by rw [hb])
  have hstatuses : (s.approvalsOf 1).map (·.status) = [.approved, .pending] := by decide +kernel
  obtain ⟨-, hgoes⟩ := onward_of_steady sound_small (by rfl) (by rfl)
    (by simp [Operation.Deletes]) hsteady
  refine hgoes hbeside ?_ ?_
  · intro hnil
    rw [hnil] at hstatuses
    cases hstatuses
  · intro a ha hrejected
    have hmem := List.mem_map_of_mem (f := (·.status)) ha
    rw [hstatuses, hrejected] at hmem
    simp at hmem

end Site

/-! ## A flow that halts -/

/-- The first level is shared by two approvers, one of whom is enough. -/
def Workflow.shared : Workflow where
  name := "Purchases"
  levels := [
    { level := .first, approvers := ["A", "B"], isParallel := true, requiredApprovals := some 1 },
    { level := .second, approvers := ["B"] }]

/-- The small site, with the shared level. -/
def Site.shared : Site := { Site.small with known := [(1, .shared)] }

/-- One approver rejects, the other one approves, and the first one changes his mind. Nothing is rejected
    any more, and the first level is satisfied; but nobody is asked on the second one, before somebody
    requests the approval once more. -/
theorem halted_flow :
    let ops := [Operation.request .noted 1 (some "A"),
      .transition .noted 2 (.text "rejected") (some "B") none,
      .transition .noted 1 (.text "approved") (some "A") none,
      .transition .noted 2 (.text "approved") (some "B") none]
    let e := Workflow.shared.evaluationOf []
    let s := Site.shared.run ops
    Site.shared.approvalsOf 1 = [] ∧
      Site.shared.Throughout (fun s _ => s.Says 1 .shared e) ops ∧
      (s.approvalsOf 1).map (·.status) = [.approved, .approved] ∧
      Settled .shared (s.approvalsOf 1) ∧ ¬ Reached e (s.approvalsOf 1) ∧
      Reached e (((Operation.request .noted 1 (some "A")).after s).approvalsOf 1) := by
  intro ops e s
  have hsays {s : Site} (hitem : s.office.items.get? 1 = some .small)
      (heval : s.evaluationOf .small = .ok (.shared, e)) : s.Says 1 .shared e :=
    Site.says_of_found hitem heval
  refine ⟨rfl, ⟨?_, ?_, ?_, ?_, trivial⟩, ?_, ?_, ?_, ?_⟩
  · exact hsays rfl (by with_unfolding_all rfl)
  · exact hsays (by with_unfolding_all rfl) (by with_unfolding_all rfl)
  · exact hsays (by with_unfolding_all rfl) (by with_unfolding_all rfl)
  · exact hsays (by with_unfolding_all rfl) (by with_unfolding_all rfl)
  · decide +kernel
  · intro l
    cases l <;> decide +kernel
  · intro hreached
    exact hreached .second (by decide +kernel) (by with_unfolding_all rfl)
  · intro l hl
    cases l with
    | first => decide +kernel
    | second => decide +kernel
    | third => exact absurd hl (by decide +kernel)

end Signoff
