import Signoff.Proofs.Approval.Pauses

/-! # Escalations of one approval

    An escalation goes to the user whom the workflow names at that moment, and it
    is held back by earlier escalations to the same user only:

    * `Site.EscalatesTo`: the user whom the workflow names now.
    * `watched_sendEscalations_to`: escalations go to this user. A pass changes
      nothing that the workflow looks at, so the user is the same throughout it.
    * `Site.escalations_apart`: escalations to one user are a day apart. All
      escalations of an approval are, if the workflow names the same user at each
      of them.
    * `Site.escalated_twice`: otherwise they need not be.
-/

open Signoff.Task (Keeps Same)

namespace Signoff

open Alerts

variable {s s' : Site} {key : Int} {boss : String} {op : Operation} {ops : List Operation}

namespace Site

/-- If the approval of the key is escalated to anybody now, it is to this user. -/
def EscalatesTo (key : Int) (boss : String) (s : Site) : Prop :=
  ∀ a ∈ s.approvals.rows, a.id = key → ∀ user ∈ s.escalationUser? a, user = boss

instance (key : Int) (boss : String) (s : Site) : Decidable (s.EscalatesTo key boss) :=
  inferInstanceAs (Decidable (∀ a ∈ s.approvals.rows, a.id = key →
    ∀ user ∈ s.escalationUser? a, user = boss))

theorem Alike.escalationUser? (h : s.Alike s') (a : Approval) :
    s'.escalationUser? a = s.escalationUser? a := by
  obtain ⟨notices, heard, hoffice⟩ := h.office
  have hitem : s'.liveItemOf? a = s.liveItemOf? a := by
    unfold liveItemOf?
    rw [hoffice]
  unfold Site.escalationUser?
  rw [hitem]
  simp only [h.workflow]

instance : Lasting fun s' => s.Alike s' ∧ s'.approvals = s.approvals where
  alike halike hsame h := ⟨Trans.trans h.1 halike, hsame.trans h.2⟩

theorem watched_sendEscalations_to (h : s.EscalatesTo key boss) (c : Channels) (now : Option Moment) :
    Keeps (Watched key (fun s' => s.Alike s' ∧ s'.approvals = s.approvals) fun y => y.user = boss)
      (Alerts.sendEscalations c now) := by
  refine watched_sendEscalations (fun _ h => h.2) (fun a ha s' user hI huser hkey _ => ?_) c now
  rw [hI.1.escalationUser? a] at huser
  exact h a ha hkey user huser

end Site

namespace Operation

open Site

theorem eq_of_escalates (h : op.Escalates) (hjobs : ¬ op.RunsJobs) :
    ∃ c now, op = .sendEscalations c now := by
  cases op with
  | sendEscalations c now => exact ⟨c, now, rfl⟩
  | runJob | runJobs | passDay => exact absurd trivial hjobs
  | _ => exact absurd h id

/-- What an operation escalates goes to the user whom the workflow names in front of it. -/
theorem prolongs_escalations (hnotices : ¬ op.WritesNotices)
    (h : op.Escalates → ¬ op.RunsJobs ∧ s.EscalatesTo key boss) :
    Prolongs (fun y => y.kind = .escalation → y.user = boss) (s.office.alerts key)
      ((op.after s).office.alerts key) := by
  by_cases hop : op.Escalates
  · -- The pass finds the user again and again in states that are like the one in front.
    obtain ⟨hjobs, hboss⟩ := h hop
    obtain ⟨c, now, rfl⟩ := eq_of_escalates hop hjobs
    have hwatched := (watched_sendEscalations_to hboss c now).discard s
    exact (hwatched ⟨Std.Refl.refl s, rfl⟩).2.imp fun y hy _ => hy
  · refine (op.prolongs_alerts key s hnotices).imp fun y hy hkind => ?_
    have hmay := hy.2
    unfold MaySend at hmay
    rw [if_pos hkind] at hmay
    exact absurd hmay hop

end Operation

namespace Site

/-- The workflow names this user whenever approvals are escalated by hand. -/
abbrev AlwaysEscalatesTo (key : Int) (boss : String) (s : Site) (ops : List Operation) : Prop :=
  s.Throughout (fun s op => op.Escalates → ¬ op.RunsJobs ∧ s.EscalatesTo key boss) ops

theorem prolongs_escalations_run (hops : ∀ op ∈ ops, ¬ op.WritesNotices)
    (h : s.AlwaysEscalatesTo key boss ops) :
    Prolongs (fun y => y.kind = .escalation → y.user = boss) (s.office.alerts key)
      ((s.run ops).office.alerts key) := by
  induction ops generalizing s with
  | nil => exact .refl _
  | cons op rest ih =>
    have hfirst := op.prolongs_escalations (hops op (List.mem_cons_self ..)) h.1
    exact hfirst.trans (ih (fun op' hop' => hops op' (List.mem_cons_of_mem _ hop')) h.2)

/-- Among the alerts that a run sends about an approval, two escalations to the same user are more than
    a day apart. If the workflow names the same user whenever approvals are escalated, any two
    escalations are. -/
theorem escalations_apart (hops : ∀ op ∈ ops, ¬ op.WritesNotices) :
    ∃ new, (s.run ops).office.alerts key = s.office.alerts key ++ new ∧
      (new.Pairwise fun x y => x.kind = .escalation → y.kind = .escalation → x.user = y.user →
        x.sentAt.micros + 24 * Duration.hourMicros < y.sentAt.micros) ∧
      ∀ boss, s.AlwaysEscalatesTo key boss ops →
        new.Pairwise fun x y => x.kind = .escalation → y.kind = .escalation →
          x.sentAt.micros + 24 * Duration.hourMicros < y.sentAt.micros := by
  have hrun : Prolongs (fun _ => True) (s.office.alerts key) ((s.run ops).office.alerts key) :=
    prolongs_run hops
  obtain ⟨new, hnew, hspaced, -, -⟩ := hrun
  have happart : new.Pairwise fun x y => x.kind = .escalation → y.kind = .escalation →
      x.user = y.user → x.sentAt.micros + 24 * Duration.hourMicros < y.sentAt.micros := by
    refine hspaced.imp fun {x y} hxy hkind hkind' huser => ?_
    have hpause := hxy huser
    rw [hkind'] at hpause
    exact hpause (by simp [hkind, Kind.holders])
  refine ⟨new, hnew, happart, fun boss hboss => ?_⟩
  obtain ⟨new', hnew', -, -, huser⟩ := prolongs_escalations_run hops hboss
  -- Both describe what was sent, and so the same alerts.
  obtain rfl : new = new' := List.append_cancel_left (hnew.symm.trans hnew')
  refine happart.imp_of_mem fun {x y} hx hy hxy hkind hkind' => ?_
  exact hxy hkind hkind' ((huser x hx hkind).trans (huser y hy hkind').symm)

/-! ## A workflow that names somebody else -/

/-- A workflow by which "A" approves, and after an hour approvals are escalated. -/
def escalating (boss : String) : Workflow :=
  { Workflow.timed "A" 1.0 with
    levels := [{ level := .first
                 approvers := ["A"]
                 timeoutHours := some 1.0
                 escalationUser := some boss }] }

/-- The owner saves it. -/
def nameBoss (boss : String) : Operation :=
  .saveWorkflow ⟨1, 1, "Purchases", ⟨0⟩⟩ (escalating boss).toValue (some "O")

/-- The clock shows so many hours since the beginning. -/
def setHours (hours : Nat) : Operation :=
  .office (.setClock ⟨(Moment.ofDate ⟨700000⟩).micros + hours * 3600000000⟩)

/-- The item of the board is requested, and two hours pass. -/
def overdue : Site := paired.run [nameBoss "M", .request .noted 2 (some "A"), setHours 2]

/-- The approval is escalated, and again a day and an hour later. -/
def escalatedAgain : List Operation :=
  [.sendEscalations {} none, setHours 27, .sendEscalations {} none]

/-- In between somebody else is named, and no time passes. -/
def escalatedAnew : List Operation :=
  [.sendEscalations {} none, nameBoss "N", .sendEscalations {} none]

theorem escalations_apart_overdue :
    (∀ op ∈ escalatedAgain, ¬ op.WritesNotices) ∧ overdue.AlwaysEscalatesTo 1 "M" escalatedAgain ∧
      ∃ new, (overdue.run escalatedAgain).office.alerts 1 = overdue.office.alerts 1 ++ new ∧
        new.map (fun y => (y.kind, y.user)) = [(.escalation, "M"), (.escalation, "M")] ∧
        new.Pairwise fun x y => x.kind = .escalation → y.kind = .escalation →
          x.sentAt.micros + 24 * Duration.hourMicros < y.sentAt.micros := by
  have hops : ∀ op ∈ escalatedAgain, ¬ op.WritesNotices := by
    intro op hop
    simp only [escalatedAgain, List.mem_cons, List.not_mem_nil, or_false] at hop
    rcases hop with rfl | rfl | rfl <;> exact id
  have hboss : overdue.AlwaysEscalatesTo 1 "M" escalatedAgain :=
    ⟨fun _ => ⟨id, by decide +kernel⟩, fun h => absurd h id, fun _ => ⟨id, by decide +kernel⟩, trivial⟩
  obtain ⟨new, hnew, -, hall⟩ := escalations_apart hops
  refine ⟨hops, hboss, new, hnew, ?_, hall "M" hboss⟩
  have hsent : ((overdue.run escalatedAgain).office.alerts 1).map (fun y => (y.kind, y.user)) =
      [(.escalation, "M"), (.escalation, "M")] := by decide +kernel
  have hbefore : overdue.office.alerts 1 = [] := by decide +kernel
  rwa [hnew, hbefore] at hsent

/-- The same approval is escalated to two users at the same moment. -/
theorem escalated_twice :
    overdue.office.alerts 1 = [] ∧
      (overdue.run escalatedAnew).office.alerts 1 =
        [⟨.escalation, "M", overdue.office.clock⟩, ⟨.escalation, "N", overdue.office.clock⟩] ∧
      ¬ ((overdue.run escalatedAnew).office.alerts 1).Pairwise fun x y =>
        x.kind = .escalation → y.kind = .escalation →
          x.sentAt.micros + 24 * Duration.hourMicros < y.sentAt.micros := by
  have hsent : (overdue.run escalatedAnew).office.alerts 1 =
      [⟨.escalation, "M", overdue.office.clock⟩, ⟨.escalation, "N", overdue.office.clock⟩] := by
    decide +kernel
  refine ⟨by decide +kernel, hsent, fun happart => ?_⟩
  rw [hsent, List.pairwise_pair] at happart
  have hapart := happart rfl rfl
  simp only [Duration.hourMicros] at hapart
  omega

end Site

end Signoff
