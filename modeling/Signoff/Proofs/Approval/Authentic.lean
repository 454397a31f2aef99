import Signoff.Proofs.Access.Entitled
import Signoff.Proofs.Approval.Finality
import Signoff.Proofs.Approval.Tidy

/-! # Decisions are authentic

    A row changes only when somebody who is entitled to decides it, and nothing
    but a removal takes it away:

    * `Site.Signed`: every approver that is named has a name. A row with such an
      approver keeps the approver in every decision.
    * `Approval.Succeeded`: what becomes of a row that is not removed.
    * `Site.Authentic`: what holds of one operation and every row.
    * `authentic_run`: and so along a run.
    * `decisions_authentic`: every operation of a run, and the run as a whole.
-/

open Signoff.Task (Reads)

namespace Signoff

variable {s : Site} {key : Int} {a a' : Approval} {op : Operation} {ops : List Operation}

/-! ## Approvers with a name -/

/-- Every approver has a name. -/
def Site.Signed (s : Site) : Prop :=
  ∀ a ∈ s.approvals.rows, ∀ user, a.approver = some user → user.isEmpty = false

namespace Site

theorem signed_of_nil (h : s.approvals.rows = []) : s.Signed := by
  intro a ha
  rw [h] at ha
  cases ha

/-- A decision by somebody with a name leaves every approver with one. -/
theorem Signed.decision (h : s.Signed) {requested : Value} {actor comments : Option String}
    {next : Status} {item : Item} {w : Workflow}
    (hdecision : Approvals.Decision s key requested actor comments a next item w) :
    (s.decide (a.decided next comments actor s.office.clock)).Signed := by
  obtain ⟨hmem, -⟩ := Table.mem_of_get? hdecision.found
  obtain ⟨user, rfl, huser⟩ := Office.actor_of_demand hdecision.permitted
  intro b hb approver happrover
  rcases mem_decide hb with rfl | ⟨hold, -⟩
  · simp only [Approval.decided] at happrover
    split at happrover
    · exact h a hmem approver happrover
    · cases happrover
      exact huser
  · exact h b hold approver happrover

theorem Signed.addDrafts (h : s.Signed) {itemId : Int} {ds : List Draft}
    (hds : ∀ d ∈ ds, d.Proper) : (s.addDrafts itemId ds).Signed := by
  intro b hb
  rcases List.mem_append.mp hb with hb | hb
  · exact h b hb
  · obtain ⟨d, hd, k, rfl⟩ := Draft.mem_rowsFrom hb
    exact (hds d hd).named

/-- Every operation leaves every approver with a name. -/
theorem Signed.after (h : s.Signed) (op : Operation) : (op.after s).Signed := by
  obtain ⟨s', hwritten, hsame⟩ := written_after s op
  have hs' : s'.Signed := by
    cases hwritten with
    | nothing => exact h
    | removed => exact fun b hb => h b (List.mem_filter.mp hb).1
    | decided hdecision => exact h.decision hdecision
    | added hadds =>
      have hproper := hadds.admits.proper
      cases hadds with
      | opened => exact h.addDrafts hproper
      | approved => exact h.addDrafts hproper
      | goneOn hdecision => exact (h.decision hdecision).addDrafts hproper
  unfold Signed
  rw [hsame]
  exact hs'

end Site

/-! ## One row -/

/-- What becomes of a row that is not removed: nothing, unless an entitled user decides it. -/
inductive Approval.Succeeded (s : Site) (op : Operation) (a : Approval) : Approval → Prop where
  | same : Succeeded s op a a
  | decided {c : Channels} {requested : Value} {user : String} {comments : Option String}
      {next : Status} (hop : op = .transition c a.id requested (some user) comments)
      (hentitled : Access.Entitled s.office a user) :
      Succeeded s op a (a.decided next comments (some user) s.office.clock)

namespace Approval.Succeeded

theorem id_eq (h : a.Succeeded s op a') : a'.id = a.id := by
  cases h <;> rfl

/-- An approver with a name stays. -/
theorem approver_eq (h : a.Succeeded s op a') {user : String} (huser : user.isEmpty = false)
    (happrover : a.approver = some user) : a'.approver = some user := by
  cases h with
  | same => exact happrover
  | decided =>
    have hhas : a.hasApprover = true := by simp [hasApprover, happrover, huser]
    simp [Approval.decided, hhas, happrover]

end Approval.Succeeded

namespace Approvals

/-- A removal takes away the row of its key, or nothing. -/
theorem after_delete (key : Int) (actor : Option String) (s : Site) :
    ((delete key actor).after s).approvals = s.approvals ∨
      ((delete key actor).after s).approvals = s.approvals.erase key := by
  unfold delete Task.after
  have hreads : Reads (Site.requireApproval key) := Site.keeps_requireApproval key
  rw [hreads.exec_bind]
  cases hfound : (Site.requireApproval key).answer s with
  | error fault => exact .inl rfl
  | ok b =>
    simp only
    rw [(Office.reads_demand actor (.approval b) .deleteApproval).within.exec_bind]
    cases (Site.within (Office.demand actor (.approval b) .deleteApproval)).answer s with
    | error fault => exact .inl rfl
    | ok _ =>
      right
      have hkey : b.id = key := (Table.mem_of_get? (get?_of_requireApproval hfound)).2
      show s.approvals.erase b.id = s.approvals.erase key
      rw [hkey]

end Approvals

namespace Site

/-- A transition leaves a row as it is, or an entitled user has decided it. -/
theorem succeeded_transition (hkeys : s.approvals.KeysDistinct)
    (hroles : Access.ListsRoles s.office) (ha : a ∈ s.approvals.rows) (c : Channels) (key : Int)
    (requested : Value) (actor comments : Option String) :
    ∃ a' ∈ ((Approvals.transition c key requested actor comments).after s).approvals.rows,
      a.Succeeded s (.transition c key requested actor comments) a' := by
  rcases Approvals.after_transition c key requested actor comments s with
    ⟨hsame, -⟩ | ⟨b, next, item, w, hdecision, hwritten, -⟩
  · exact ⟨a, hsame ▸ ha, .same⟩
  · rw [hwritten]
    obtain ⟨hb, hkey⟩ := Table.mem_of_get? hdecision.found
    by_cases hid : b.id = a.id
    · -- The keys are distinct, so this is the row that is decided.
      obtain rfl : b = a := hkeys.eq_of_key_eq hb ha hid
      obtain rfl : b.id = key := hkey
      obtain ⟨user, rfl, -⟩ := Office.actor_of_demand hdecision.permitted
      have hentitled := Access.entitled_of_demand hroles hdecision.permitted
      let d := b.decided next comments (some user) s.office.clock
      have hd : d ∈ (s.decide d).approvals.rows :=
        List.mem_map.mpr ⟨b, ha, if_pos (beq_self_eq_true b.id)⟩
      exact ⟨d, mem_decidedSite_of_decide hd, .decided rfl hentitled⟩
    · exact ⟨a, mem_decidedSite hid ha, .same⟩

/-- In one operation a row is removed, or an entitled user decides it, or it stays as it is. -/
theorem succeeded_after (hkeys : s.approvals.KeysDistinct) (hroles : Access.ListsRoles s.office)
    (ha : a ∈ s.approvals.rows) (op : Operation) :
    (∃ actor, op = .delete a.id actor ∧ ∀ b ∈ (op.after s).approvals.rows, b.id ≠ a.id) ∨
      ∃ a' ∈ (op.after s).approvals.rows, a.Succeeded s op a' := by
  by_cases hquiet : op.IsQuiet
  · refine .inr ⟨a, ?_, .same⟩
    rw [Operation.approvals_after hquiet]
    exact ha
  · cases op with
    | request c itemId actor =>
      right
      rw [Operation.after, Operation.perform, Task.after_discard]
      exact ⟨a, mem_after_request c itemId actor ha, .same⟩
    | transition c key requested actor comments =>
      right
      rw [Operation.after, Operation.perform, Task.after_discard]
      exact succeeded_transition hkeys hroles ha c key requested actor comments
    | delete key actor =>
      change (∃ actor', Operation.delete key actor = .delete a.id actor' ∧
        ∀ b ∈ ((Approvals.delete key actor).after s).approvals.rows, b.id ≠ a.id) ∨
        ∃ a' ∈ ((Approvals.delete key actor).after s).approvals.rows, _
      rcases Approvals.after_delete key actor s with hsame | herased
      · exact .inr ⟨a, hsame ▸ ha, .same⟩
      · rw [herased]
        by_cases hid : a.id = key
        · subst hid
          refine .inl ⟨actor, rfl, fun b hb => ?_⟩
          exact bne_iff_ne.mp (List.mem_filter.mp hb).2
        · refine .inr ⟨a, List.mem_filter.mpr ⟨ha, ?_⟩, .same⟩
          exact bne_iff_ne.mpr hid
    | _ => exact absurd trivial hquiet

/-! ## One operation -/

/-- What an operation may do to the approvals. -/
structure Authentic (s : Site) (op : Operation) : Prop where
  /-- Only requests, decisions and removals write approvals. -/
  quiet : op.IsQuiet → (op.after s).approvals = s.approvals
  /-- A row is removed, or it keeps its key and its approver. It changes only in a transition by a user
      who is entitled to decide it in the state in front. -/
  rows : ∀ key a, s.approvals.get? key = some a →
    ((∃ actor, op = .delete key actor) ∧ (op.after s).approvals.get? key = none) ∨
      ∃ a', (op.after s).approvals.get? key = some a' ∧
        (∀ user, a.approver = some user → a'.approver = some user) ∧
        (a' ≠ a → ∃ c requested user comments,
          op = .transition c key requested (some user) comments ∧
            Access.Entitled s.office a user)

/-- Every operation is authentic. -/
theorem authentic (hkeys : s.approvals.KeysDistinct) (hsigned : s.Signed)
    (hroles : Access.ListsRoles s.office) (op : Operation) : s.Authentic op where
  quiet := Operation.approvals_after
  rows := by
    intro key a hget
    obtain ⟨ha, rfl⟩ := Table.mem_of_get? hget
    have hkeys' := op.keysDistinct_after hkeys
    rcases succeeded_after hkeys hroles ha op with ⟨actor, hop, hgone⟩ | ⟨a', ha', hsucceeded⟩
    · refine .inl ⟨⟨actor, hop⟩, List.find?_eq_none.mpr fun b hb hkey => ?_⟩
      exact hgone b hb (beq_iff_eq.mp hkey)
    · refine .inr ⟨a', ?_, ?_, ?_⟩
      · have hfound := hkeys'.get?_of_mem ha'
        rwa [show Row.key a' = Row.key a from hsucceeded.id_eq] at hfound
      · intro user happrover
        exact hsucceeded.approver_eq (hsigned a ha user happrover) happrover
      · intro hne
        cases hsucceeded with
        | same => exact absurd rfl hne
        | decided hop hentitled => exact ⟨_, _, _, _, hop, hentitled⟩

/-! ## Runs -/

/-- Along a run that does not remove it a row keeps its approver, and if it changes, then one of the
    operations is a transition on it by a user who is entitled at that moment. -/
theorem authentic_run (h : s.Throughout (fun s op => s.Authentic op) ops)
    (hget : s.approvals.get? key = some a) (hops : ∀ op ∈ ops, ∀ actor, op ≠ .delete key actor) :
    ∃ a', (s.run ops).approvals.get? key = some a' ∧
      (∀ user, a.approver = some user → a'.approver = some user) ∧
      (a' ≠ a → ∃ front c requested user comments rest b,
        ops = front ++ .transition c key requested (some user) comments :: rest ∧
          (s.run front).approvals.get? key = some b ∧
          Access.Entitled (s.run front).office b user) := by
  induction ops generalizing s a with
  | nil => exact ⟨a, hget, fun _ => id, fun hne => absurd rfl hne⟩
  | cons op later ih =>
    obtain ⟨hop, hlater⟩ := h
    rcases hop.rows key a hget with ⟨⟨actor, hdelete⟩, -⟩ | ⟨b, hb, happrover, hchange⟩
    · exact absurd hdelete (hops op (List.mem_cons_self ..) actor)
    · obtain ⟨a', ha', hrest, hchanges⟩ :=
        ih hlater hb fun op' hop' => hops op' (List.mem_cons_of_mem _ hop')
      refine ⟨a', ha', fun user => hrest user ∘ happrover user, fun hne => ?_⟩
      -- It changed in the first operation, or else in one of the others.
      by_cases hsame : b = a
      · obtain ⟨front, c, requested, user, comments, rest, b', hsplit, hfound, hentitled⟩ :=
          hchanges (hsame ▸ hne)
        refine ⟨op :: front, c, requested, user, comments, rest, b', ?_, hfound, hentitled⟩
        rw [hsplit, List.cons_append]
      · obtain ⟨c, requested, user, comments, hop, hentitled⟩ := hchange hsame
        refine ⟨[], c, requested, user, comments, later, a, ?_, hget, hentitled⟩
        rw [hop, List.nil_append]

/-- Along every run the row of an approval changes only in a transition on it, whose actor in that state
    is its approver or holds an elevated role in the workspace of its item; its approver never changes
    once there is one; and every other operation but a request or a removal leaves the table as it is. -/
theorem decisions_authentic (hkeys : s.approvals.KeysDistinct) (hsigned : s.Signed)
    (hroles : s.Throughout (fun s _ => Access.ListsRoles s.office) ops) :
    s.Throughout (fun s op => s.Authentic op) ops ∧
      ∀ before later, ops = before ++ later → ∀ key a,
        (s.run before).approvals.get? key = some a →
        (∀ op ∈ later, ∀ actor, op ≠ .delete key actor) →
        ∃ a', (s.run ops).approvals.get? key = some a' ∧
          (∀ user, a.approver = some user → a'.approver = some user) ∧
          (a' ≠ a → ∃ front c requested user comments rest b,
            later = front ++ .transition c key requested (some user) comments :: rest ∧
              (s.run (before ++ front)).approvals.get? key = some b ∧
              Access.Entitled (s.run (before ++ front)).office b user) := by
  have hall : s.Throughout (fun s op => s.Authentic op) ops := by
    induction ops generalizing s with
    | nil => trivial
    | cons op rest ih =>
      exact ⟨authentic hkeys hsigned hroles.1 op,
        ih (op.keysDistinct_after hkeys) (hsigned.after op) hroles.2⟩
  refine ⟨hall, ?_⟩
  rintro before later rfl key a hget hlater
  rw [run_append]
  obtain ⟨a', ha', happrover, hchange⟩ :=
    authentic_run (throughout_append.mp hall).2 hget hlater
  refine ⟨a', ha', happrover, fun hne => ?_⟩
  obtain ⟨front, c, requested, user, comments, rest, b, hsplit, hfound, hentitled⟩ := hchange hne
  rw [← run_append] at hfound hentitled
  exact ⟨front, c, requested, user, comments, rest, b, hsplit, hfound, hentitled⟩

/-- On the small site a member approves the row that she is asked for, and the other one, who is neither
    its approver nor elevated, changes nothing about it. -/
theorem decisions_authentic_small :
    let ops : List Operation := [.request .noted 1 (some "A"),
      .transition .noted 1 (.text "rejected") (some "B") none,
      .transition .noted 1 (.text "approved") (some "A") none]
    small.Throughout (fun s op => s.Authentic op) ops ∧
      ((small.run (ops.take 2)).approvals.get? 1).map (·.status) = some .pending ∧
      ((small.run ops).approvals.get? 1).map (·.status) = some .approved := by
  intro ops
  have hroles : small.Throughout (fun s _ => Access.ListsRoles s.office) ops := by
    -- The settings say nothing about roles, and no operation of this run changes them.
    refine ⟨Access.listsRoles_of_default ?_, Access.listsRoles_of_default ?_,
      Access.listsRoles_of_default ?_, trivial⟩ <;>
    · with_unfolding_all rfl
  refine ⟨(decisions_authentic sound_small.keysDistinct (signed_of_nil rfl) hroles).1, ?_, ?_⟩
  · decide +kernel
  · decide +kernel

end Site

end Signoff
