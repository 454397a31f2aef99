import Signoff.Proofs.Approval.Faults
import Signoff.Proofs.Approval.Order
import Signoff.Proofs.Run

/-! # Steady runs

    A run is steady for an item if the workflow says the same about it all along:

    * `Site.Says`: what the workflow says about the item in a state.
    * `orderly_turn`: a single operation keeps the order of the levels.
    * `orderly_run`: so a steady run from no approvals is orderly.
    * `Orderly.checkSequence`: in such an order no decision is out of sequence.
-/

namespace Signoff

variable {s : Site} {w : Workflow} {e : Evaluation} {itemId key : Int} {ops : List Operation}

namespace Site

/-- The workflow that counts for the item, and what it means for it. -/
def Says (itemId : Int) (w : Workflow) (e : Evaluation) (s : Site) : Prop :=
  ∀ item, s.office.items.get? itemId = some item → s.evaluationOf item = .ok (w, e)

theorem says_of_found {item : Item} (hitem : s.office.items.get? itemId = some item)
    (heval : s.evaluationOf item = .ok (w, e)) : s.Says itemId w e := by
  intro found hfound
  cases hitem.symm.trans hfound
  exact heval

/-! ## Order along a run -/

/-- A turn keeps the order while the workflow asks for approvals. -/
theorem orderly_turn {rows rows' : List Approval} (hinformed : s.Informed)
    (hsaid : s.Says itemId w e) (hasks : e.autoApproved = false) (hturn : Turn s itemId rows rows')
    (h : Orderly w e rows) : Orderly w e rows' := by
  have hsame {item : Item} {w' : Workflow} {e' : Evaluation}
      (hitem : s.office.items.get? itemId = some item) (heval : s.evaluationOf item = .ok (w', e')) :
      w' = w ∧ e' = e := by
    have hpair : (w', e') = (w, e) := Except.ok.inj (heval.symm.trans (hsaid item hitem))
    exact Prod.mk.inj hpair
  cases hturn with
  | kept hkept => exact h.kept hkept
  | opened hkept hitem heval _ _ hopens =>
    obtain ⟨rfl, rfl⟩ := hsame hitem heval
    have hsound := hinformed.sound (workflow?_of_evaluationOf heval).1
    exact (h.kept hkept).opened hsound hopens
  | approved hitem heval hauto =>
    -- The workflow does ask for approvals.
    obtain ⟨rfl, rfl⟩ := hsame hitem heval
    rw [hasks] at hauto
    cases hauto

/-- A steady run keeps the order. -/
theorem orderly_run (hsound : s.Sound) (hasks : e.autoApproved = false)
    (hops : ∀ op ∈ ops, ¬ op.Deletes) (hsteady : s.Throughout (fun s _ => s.Says itemId w e) ops)
    (h : Orderly w e (s.approvalsOf itemId)) : Orderly w e ((s.run ops).approvalsOf itemId) :=
  rows_run (fun hinformed hsaid hturn => orderly_turn hinformed hsaid hasks hturn) hsound hops
    hsteady h

end Site

/-! ## Sequence -/

/-- Where the levels are in order, every row has an approval on the level in front. -/
theorem Orderly.checkSequence {a : Approval} (h : Orderly w e (s.approvalsOf a.itemId))
    (ha : a ∈ s.approvals.rows) : Approvals.checkSequence s a = .ok () := by
  have hmem : a ∈ s.approvalsOf a.itemId := List.mem_filter.mpr ⟨ha, beq_self_eq_true _⟩
  obtain ⟨l, hl⟩ := h.named a hmem
  have hname : Level.ofName a.level = .ok l := by
    rw [hl, Level.ofName, Level.ofName?_name]
  unfold Approvals.checkSequence
  rw [hname]
  cases hfront : l.previous? with
  | none =>
    simp only [bind, Except.bind, hfront]
    rfl
  | some p =>
    simp only [bind, Except.bind, hfront]
    have hrows : Approval.on (s.approvalsOf a.itemId) l ≠ [] :=
      List.ne_nil_of_mem (List.mem_filter.mpr ⟨hmem, beq_iff_eq.mpr hl⟩)
    have hlt : p.index < l.index := by
      have := Level.index_of_previous? hfront
      omega
    obtain ⟨-, b, hb, happroved⟩ := h.cleared p l hlt hrows
    have hany : (s.rowsNamed a.itemId p.name).any (fun b => b.status == .approved) = true :=
      List.any_eq_true.mpr ⟨b, hb, by simp [happroved]⟩
    exact if_pos hany

namespace Site

/-- In a steady run from no approvals the levels of the item are in order at the end, and no decision on
    the item was ever out of sequence. -/
theorem orderly_of_steady (hsound : s.Sound) (hnone : s.approvalsOf itemId = [])
    (hasks : e.autoApproved = false) (hops : ∀ op ∈ ops, ¬ op.Deletes) (hsteady : s.Throughout (fun s _ => s.Says itemId w e) ops) :
    Orderly w e ((s.run ops).approvalsOf itemId) ∧
      ∀ before c key requested actor comments later a level previous,
        ops = before ++ .transition c key requested actor comments :: later →
        (s.run before).approvals.get? key = some a → a.itemId = itemId →
        (Approvals.transition c key requested actor comments).answer (s.run before) ≠
          .error (.outOfSequence level previous) := by
  have hnil : Orderly w e (s.approvalsOf itemId) := hnone ▸ Orderly.nil
  refine ⟨orderly_run hsound hasks hops hsteady hnil, ?_⟩
  intro before c key requested actor comments later a level previous hsplit ha hitem hanswer
  subst hsplit
  subst hitem
  obtain ⟨hfirst, hsaid, -⟩ := throughout_append.mp hsteady
  have horderly : Orderly w e ((s.run before).approvalsOf a.itemId) :=
    orderly_run hsound hasks (fun op hop => hops op (List.mem_append_left _ hop)) hfirst hnil
  -- The run up to the decision is steady as well, so the levels were in order when it was examined.
  have heval : ∀ a' item, (s.run before).approvals.get? key = some a' →
      (s.run before).office.items.get? a'.itemId = some item →
      ∃ w e, (s.run before).evaluationOf item = .ok (w, e) := by
    intro a' item ha' hitem
    cases ha.symm.trans ha'
    exact ⟨w, e, hsaid item hitem⟩
  obtain ⟨a', ha', hcheck⟩ := Approvals.checkSequence_of_transition heval hanswer
  cases ha.symm.trans ha'
  rw [horderly.checkSequence (Table.mem_of_get? ha).1] at hcheck
  cases hcheck

/-- A request opens the first level of the small site, and its approval the second one. -/
theorem orderly_of_steady_small :
    Orderly .small (Workflow.small.evaluationOf [])
        ((small.run [.request .noted 1 (some "A"),
          .transition .noted 1 (.text "approved") (some "A") none]).approvalsOf 1) ∧
      ∀ level previous, (Approvals.transition .noted 1 (.text "approved") (some "A") none).answer
        (small.run [.request .noted 1 (some "A")]) ≠ .error (.outOfSequence level previous) := by
  have hitem : small.office.items.get? 1 = some .small := rfl
  have hitem' : (small.run [.request .noted 1 (some "A")]).office.items.get? 1 = some .small := by
    with_unfolding_all rfl
  have hsteady : small.Throughout (fun s _ => s.Says 1 .small (Workflow.small.evaluationOf []))
      [.request .noted 1 (some "A"), .transition .noted 1 (.text "approved") (some "A") none] :=
    ⟨says_of_found hitem (by with_unfolding_all rfl),
      says_of_found hitem' (by with_unfolding_all rfl), trivial⟩
  obtain ⟨horderly, hsequence⟩ := orderly_of_steady sound_small (by rfl) (by rfl)
    (by simp [Operation.Deletes]) hsteady
  refine ⟨horderly, fun level previous => ?_⟩
  have hrow : (small.run [.request .noted 1 (some "A")]).approvals.get? 1 =
      some { id := 1, itemId := 1, level := "LEVEL_1", status := .pending, approver := some "A",
             comments := none, createdAt := ⟨0⟩, decidedAt := none } := by
    with_unfolding_all rfl
  exact hsequence [.request .noted 1 (some "A")] _ _ _ _ _ [] _ level previous rfl hrow rfl

/-! ## Both approvals of the small site -/

/-- The workflow says the same about the desk of the small site until both of its approvals are given. -/
theorem steady_small : small.Throughout
    (fun s _ => s.Says 1 .small (Workflow.small.evaluationOf []))
    [.request .noted 1 (some "A"), .transition .noted 1 (.text "approved") (some "A") none,
      .transition .noted 2 (.text "approved") (some "B") none] := by
  have hsaid (ops : List Operation)
      (hitem : (small.run ops).office.items.get? 1 = some .small)
      (heval : (small.run ops).evaluationOf .small =
        .ok (.small, Workflow.small.evaluationOf [])) :
      (small.run ops).Says 1 .small (Workflow.small.evaluationOf []) :=
    says_of_found hitem heval
  exact ⟨hsaid [] rfl (by with_unfolding_all rfl),
    hsaid [.request .noted 1 (some "A")] (by with_unfolding_all rfl) (by with_unfolding_all rfl),
    hsaid [.request .noted 1 (some "A"), .transition .noted 1 (.text "approved") (some "A") none]
      (by with_unfolding_all rfl) (by with_unfolding_all rfl), trivial⟩

end Site

end Signoff
