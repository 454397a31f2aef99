import Signoff.Proofs.Approval.Authentic
import Signoff.Proofs.Approval.Pauses

/-! # The alerts about one approval

    Reminders and alerts about deadlines go to the approver of an approval, and
    an approver with a name stays. So the pauses between what is sent to one user
    are pauses between what is sent about the approval, as long as it is there:

    * `Site.kept_after`: an operation that leaves a row under a key leaves the same
      approval.
    * `Site.exists_addressee`: along a run all alerts but escalations go to one
      user.
    * `Alerts.Paced`, `Site.alerts_apart`: how far they are apart.
-/

namespace Signoff

open Alerts

/-- How far two alerts about one approval are apart, the first one in front of the second: reminders a
    day, alerts about a deadline that has passed a day, and half a day to one about an approaching
    deadline from any other about a deadline. -/
structure Alerts.Paced (x y : Alert) : Prop where
  reminders : x.kind = .reminder → y.kind = .reminder →
    x.sentAt.micros + 24 * Duration.hourMicros < y.sentAt.micros
  passed : x.kind = .passed → y.kind = .passed →
    x.sentAt.micros + 24 * Duration.hourMicros < y.sentAt.micros
  approaching : x.kind = .approaching ∨ x.kind = .passed → y.kind = .approaching →
    x.sentAt.micros + 12 * Duration.hourMicros < y.sentAt.micros

namespace Site

variable {s : Site} {key : Int} {a a' : Approval} {op : Operation} {ops : List Operation}

/-- There is an approval of this key. -/
def Has (key : Int) (s : Site) : Prop := (s.approvals.get? key).isSome

instance (key : Int) (s : Site) : Decidable (s.Has key) :=
  inferInstanceAs (Decidable (_ = true))

/-- An approval that is there in front of an operation and behind it is the same one. -/
theorem kept_after (hkeys : s.approvals.KeysDistinct) (ha : s.approvals.get? key = some a)
    (ha' : (op.after s).approvals.get? key = some a') : a.Kept a' := by
  obtain ⟨hmem, hkey⟩ := Table.mem_of_get? ha
  obtain ⟨hmem', hkey'⟩ := Table.mem_of_get? ha'
  by_cases hdeletes : op.Deletes
  · cases op with
    | delete k actor =>
      have hkeep : a' ∈ s.approvals.rows := by
        change a' ∈ ((Approvals.delete k actor).after s).approvals.rows at hmem'
        rcases Approvals.after_delete k actor s with hsame | herased
        · rwa [hsame] at hmem'
        · rw [herased] at hmem'
          exact (List.mem_filter.mp hmem').1
      rw [hkeys.eq_of_key_eq hkeep hmem (hkey'.trans hkey.symm)]
      exact Approval.Kept.refl a
    | _ => exact absurd hdeletes id
  · have hop : ∀ op' ∈ [op], ¬ op'.Deletes := by simpa using hdeletes
    -- Without a deletion every row is kept, and its key finds nothing else.
    obtain ⟨b, hb, hkept⟩ := exists_kept_run hkeys hop (mem_approvalsOf.mpr ⟨hmem, rfl⟩)
    have hsame : b = a' := (op.keysDistinct_after hkeys).eq_of_key_eq (mem_approvalsOf.mp hb).1 hmem'
      (hkept.id.trans (hkey.trans hkey'.symm))
    exact hsame ▸ hkept

/-- So it is along a run in which it is always there. -/
theorem kept_run (hkeys : s.approvals.KeysDistinct) (hthere : s.Throughout (fun s _ => s.Has key) ops)
    (ha : s.approvals.get? key = some a) (ha' : (s.run ops).approvals.get? key = some a') :
    a.Kept a' := by
  induction ops generalizing s a with
  | nil =>
    rw [Option.some.inj (ha.symm.trans ha')]
    exact Approval.Kept.refl a'
  | cons op rest ih =>
    cases rest with
    | nil => exact kept_after hkeys ha ha'
    | cons next more =>
      obtain ⟨b, hb⟩ := Option.isSome_iff_exists.mp hthere.2.1
      exact (kept_after hkeys ha hb).trans (ih (op.keysDistinct_after hkeys) hthere.2 hb ha')

/-- What an operation sends about an approval goes to its approver, if it is no escalation. -/
theorem approver_of_maySend (hkeys : s.approvals.KeysDistinct) (ha : s.approvals.get? key = some a)
    {y : Alert} (hy : op.MaySend key s.approvals y) (hkind : y.kind ≠ .escalation) :
    a.hasApprover = true ∧ a.approver = some y.user := by
  unfold Operation.MaySend at hy
  rw [if_neg hkind] at hy
  obtain ⟨b, hb, hkey, happrover, hname⟩ := hy
  obtain ⟨hmem, hkey'⟩ := Table.mem_of_get? ha
  obtain rfl : b = a := hkeys.eq_of_key_eq hb hmem (hkey.trans hkey'.symm)
  exact ⟨by simp [Approval.hasApprover, happrover, hname], happrover⟩

/-- As long as the approval is there, all alerts about it but escalations go to one user, who is its
    approver if it has one at the beginning. -/
theorem exists_addressee (hkeys : s.approvals.KeysDistinct) (hops : ∀ op ∈ ops, ¬ op.WritesNotices)
    (hthere : s.Throughout (fun s _ => s.Has key) ops) :
    ∃ user, (∀ a, s.approvals.get? key = some a → a.hasApprover = true → a.approver = some user) ∧
      Prolongs (fun y => y.kind ≠ .escalation → y.user = user) (s.office.alerts key)
        ((s.run ops).office.alerts key) := by
  -- From the last operation backwards: the user is the approver in front of the first operation that
  -- finds one, and stays the approver from there on.
  induction ops generalizing s with
  | nil =>
    cases ha : s.approvals.get? key with
    | none => exact ⟨"", by simp, .refl _⟩
    | some a =>
      refine ⟨a.approver.getD "", fun b hb hhas => ?_, .refl _⟩
      cases hb
      cases happrover : a.approver with
      | none => simp [Approval.hasApprover, happrover] at hhas
      | some user => rfl
  | cons op rest ih =>
    have hfirst := op.prolongs_alerts key s (hops op (List.mem_cons_self ..))
    have hrest := ih (op.keysDistinct_after hkeys)
      (fun op' hop' => hops op' (List.mem_cons_of_mem _ hop')) hthere.2
    obtain ⟨a, ha⟩ := Option.isSome_iff_exists.mp hthere.1
    obtain ⟨user', happrover', hprolongs⟩ := hrest
    by_cases hhas : a.hasApprover = true
    · obtain ⟨user, happrover⟩ : ∃ user, a.approver = some user := by
        cases hnone : a.approver with
        | none => simp [Approval.hasApprover, hnone] at hhas
        | some user => exact ⟨user, rfl⟩
      have hsent : ∀ y, (op.IsQuiet ∧ op.MaySend key s.approvals y) → y.kind ≠ .escalation →
          y.user = user := by
        intro y hy hkind
        have hsame := (approver_of_maySend hkeys ha hy.2 hkind).2
        rw [happrover] at hsame
        exact (Option.some.inj hsame).symm
      refine ⟨user, fun b hb _ => ?_, ?_⟩
      · rw [← Option.some.inj (ha.symm.trans hb), happrover]
      · cases rest with
        | nil => exact hfirst.imp hsent
        | cons next more =>
          -- The approver stays, so whatever is sent later goes to the same user.
          obtain ⟨b, hb⟩ := Option.isSome_iff_exists.mp hthere.2.1
          have hsame : b.approver = some user := ((kept_after hkeys ha hb).approver hhas).trans happrover
          have hhas' : b.hasApprover = true := by
            unfold Approval.hasApprover at hhas ⊢
            rwa [hsame, ← happrover]
          have huser : user' = user := by
            have hboth := happrover' b hb hhas'
            rw [hsame] at hboth
            exact (Option.some.inj hboth).symm
          rw [huser] at hprolongs
          exact (hfirst.imp hsent).trans hprolongs
    · -- Without an approver nothing but escalations is sent yet.
      refine ⟨user', fun b hb hhas' => ?_, (hfirst.imp fun y hy hkind => ?_).trans hprolongs⟩
      · rw [Option.some.inj (ha.symm.trans hb)] at hhas
        exact absurd hhas' hhas
      · exact absurd (approver_of_maySend hkeys ha hy.2 hkind).1 hhas

/-- As long as an approval is there, it stays the same one, and among the alerts that are sent about it
    any two reminders, and any two alerts about a deadline that has passed, are more than a day
    apart, and none about an approaching deadline comes within twelve hours behind another one about
    a deadline. -/
theorem alerts_apart (hkeys : s.approvals.KeysDistinct) (hops : ∀ op ∈ ops, ¬ op.WritesNotices)
    (hthere : s.Throughout (fun s _ => s.Has key) ops) :
    (∀ a a', s.approvals.get? key = some a → (s.run ops).approvals.get? key = some a' → a.Kept a') ∧
      ∃ new, (s.run ops).office.alerts key = s.office.alerts key ++ new ∧
        new.Pairwise Paced := by
  refine ⟨fun a a' ha ha' => kept_run hkeys hthere ha ha', ?_⟩
  obtain ⟨user, -, new, hnew, hspaced, -, huser⟩ := exists_addressee hkeys hops hthere
  refine ⟨new, hnew, hspaced.imp_of_mem ?_⟩
  intro x y hx hy hxy
  -- Both went to this user, so the pause between what is sent to one user is one between them.
  have hpause : x.kind ≠ .escalation → y.kind ≠ .escalation → x.kind ∈ y.kind.holders →
      x.sentAt.micros + y.kind.pause * Duration.hourMicros < y.sentAt.micros := by
    intro hkind hkind' hheld
    exact hxy (by rw [huser x hx hkind, huser y hy hkind']) hheld
  constructor
  · intro hkind hkind'
    rw [hkind, hkind'] at hpause
    exact hpause (by decide) (by decide) (by decide)
  · intro hkind hkind'
    rw [hkind, hkind'] at hpause
    exact hpause (by decide) (by decide) (by decide)
  · -- One about an approaching deadline is held back by both kinds.
    intro hkind hkind'
    rcases hkind with hkind | hkind
    · rw [hkind, hkind'] at hpause
      exact hpause (by decide) (by decide) (by decide)
    · rw [hkind, hkind'] at hpause
      exact hpause (by decide) (by decide) (by decide)

/-- Alerts about deadlines are sent two hours behind the requests, and thirty hours behind them again. -/
def chasing : List Operation :=
  [.sendDeadlineAlerts {} .null none,
    .office (.setClock ⟨(Moment.ofDate ⟨700000⟩).micros + 108000000000⟩),
    .sendDeadlineAlerts {} .null none]

theorem after_of_pairwise {c : Channels} {hoursBefore : Value} {now : Option Moment}
    (h : (s.approvals.rows.filter fun a => a.status == .pending).Pairwise fun a b =>
      (a.createdAt.micros < b.createdAt.micros
        || (a.createdAt.micros == b.createdAt.micros && a.id ≤ b.id)) = true) :
    (Operation.sendDeadlineAlerts c hoursBefore now).after s =
      ((s.approvals.rows.filter fun a => a.status == .pending).foldlM
        (Alerts.alert c (leadOf s hoursBefore) (now.getD s.office.clock)) {}).after s := by
  show (discard (Alerts.sendDeadlineAlerts c hoursBefore now)).after s = _
  rw [Task.after_discard, Task.after, exec_of_pairwise h]
  rfl

/-- On the second board the deadline is near at first and has passed later, on the first board it has
    passed both times. -/
theorem alerts_apart_paired :
    (paired.run (timing 3.0)).approvals.KeysDistinct ∧ (∀ op ∈ chasing, ¬ op.WritesNotices) ∧
      (paired.run (timing 3.0)).Throughout (fun s _ => s.Has 2) chasing ∧
      (∃ new, ((paired.run (timing 3.0)).run chasing).office.alerts 2 =
          (paired.run (timing 3.0)).office.alerts 2 ++ new ∧
        new.Pairwise Paced) ∧
      [1, 2].map (fun key => (((paired.run (timing 3.0)).run chasing).office.alerts key).map (·.kind)) =
        [[.approaching, .passed], [.passed, .passed]] := by
  have hkeys : (paired.run (timing 3.0)).approvals.KeysDistinct := by
    unfold Table.KeysDistinct
    decide +kernel
  have hops : ∀ op ∈ chasing, ¬ op.WritesNotices := by
    intro op hop
    simp only [chasing, List.mem_cons, List.not_mem_nil, or_false] at hop
    rcases hop with rfl | rfl | rfl <;> exact id
  have hthere : (paired.run (timing 3.0)).Throughout (fun s _ => s.Has 2) chasing := by
    have hfirst : (paired.run (timing 3.0)).Has 2 := by decide +kernel
    -- Neither alerts nor the clock write approvals.
    have hquiet (op : Operation) (h : op.IsQuiet) {s : Site} (hs : s.Has 2) : (op.after s).Has 2 := by
      unfold Has
      rwa [Operation.approvals_after h]
    have hsecond := hquiet (.sendDeadlineAlerts {} .null none) trivial hfirst
    exact ⟨hfirst, hsecond, hquiet (.office (.setClock _)) trivial hsecond, trivial⟩
  refine ⟨hkeys, hops, hthere, (alerts_apart hkeys hops hthere).2, ?_⟩
  have hrun : (paired.run (timing 3.0)).run chasing =
      (Operation.sendDeadlineAlerts {} .null none).after
        ((Operation.office (.setClock ⟨(Moment.ofDate ⟨700000⟩).micros + 108000000000⟩)).after
          ((Operation.sendDeadlineAlerts {} .null none).after (paired.run (timing 3.0)))) := rfl
  have hinner : (Operation.sendDeadlineAlerts {} .null none).after (paired.run (timing 3.0)) = _ :=
    after_of_pairwise (by decide +kernel)
  rw [hrun, hinner, after_of_pairwise (by decide +kernel)]
  decide +kernel

end Site

end Signoff
