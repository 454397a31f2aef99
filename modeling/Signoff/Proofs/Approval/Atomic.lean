import Signoff.Proofs.Approval.Faults
import Signoff.Proofs.Approval.Tidy
import Signoff.Proofs.Workflow.Faults

/-! # Calls that fail

    A request or a decision that fails has written nothing and told nobody, with
    one exception. A decision is written before the workflow is asked what comes
    next, and the workflow may be unable to say it:

    * `Site.Untouched`: approvals and office are as they were.
    * `untouched_of_request`: requests fail before they write.
    * `Approvals.Stranded`: a decision that completes its level on an item that
      cannot be evaluated.
    * `untouched_or_stranded`: decisions fail before they write, or are stranded.
    * `stranded_decision`: one that is.
-/

open Signoff.Task (Keeps Same)

namespace Signoff

variable {s : Site} {itemId key : Int} {item : Item} {w : Workflow} {e : Evaluation}
  {a d : Approval} {next : Status} {requested : Value} {actor comments : Option String}
  {fault : Fault} {c : Channels}

namespace Site

/-! ## Items that can be evaluated -/

/-- Where the workflow says something about the item, the item stands somewhere. -/
theorem Tidy.returns_progressOf (h : s.Tidy) (heval : s.evaluationOf item = .ok (w, e)) :
    ∃ progress, (progressOf item).answer s = .ok progress := by
  cases hanswer : (progressOf item).answer s with
  | ok progress => exact ⟨progress, rfl⟩
  | error fault =>
    obtain ⟨hw, he⟩ := workflow?_of_evaluationOf heval
    rw [answer_progressOf, h.levelRows, hw] at hanswer
    change w.progress _ (w.evaluate _) = _ at hanswer
    rw [he] at hanswer
    unfold Workflow.progress at hanswer
    split at hanswer
    · cases hanswer
    · split at hanswer
      · cases hanswer
      · split at hanswer <;> cases hanswer

/-- Then the flow goes on. -/
theorem Tidy.returns_goOn (h : s.Tidy) (hitem : (s.office.items.get? item.id).isSome)
    (heval : s.evaluationOf item = .ok (w, e)) :
    ∃ aftermath, (Approvals.goOn item).answer s = .ok aftermath := by
  have hsorted : Ascending e.required :=
    Workflow.ascending_required (workflow?_of_evaluationOf heval).2
  obtain ⟨opened, hopened⟩ := h.nextAsked item.id w e
  rw [Approvals.answer_goOn hitem heval, hopened]
  change ∃ aftermath, (if opened.isEmpty then _ else _) = _
  split
  · -- Opening a level does not change what the workflow says.
    have heval' : (s.nextOpened item.id w e).evaluationOf item = .ok (w, e) := by
      rw [Approvals.evaluationOf_nextOpened, heval]
    obtain ⟨progress, hprogress⟩ := (h.nextOpened item.id w hsorted).returns_progressOf heval'
    rw [hprogress]
    exact ⟨_, rfl⟩
  · exact ⟨_, rfl⟩

/-! ## What a failed call leaves behind -/

/-- Approvals and office are as they were: nothing was written, and nobody was told. -/
structure Untouched (s s' : Site) : Prop where
  approvals : s'.approvals = s.approvals
  office : s'.office = s.office

theorem Untouched.of_looked {s' : Site} (h : s' = s ∨ ∃ boardId, s' = s.lookedUp boardId) :
    s.Untouched s' := by
  rcases h with rfl | ⟨boardId, rfl⟩
  · exact ⟨rfl, rfl⟩
  · exact ⟨lookedUp_approvals s boardId, lookedUp_office s boardId⟩

end Site

namespace Approvals

open Site

theorem returns_tellRequested (c : Channels) (item : Item) (e : Evaluation)
    (created : List Approval) (actor : Option String) :
    Task.Returns (tellRequested c item e created actor) := by
  refine .ite (.ite ?_ (.pure _)) (returns_announce c item _ actor)
  exact returns_send c item fun s m hm => s.isText_allComplete hm

/-- A request that fails leaves everything untouched. -/
theorem untouched_of_request (h : (request c itemId actor).answer s = .error fault) :
    s.Untouched ((request c itemId actor).after s) := by
  rcases request_cases c itemId actor s with
    ⟨fault', s', hexec, hlooked⟩ | ⟨item, w, e, created, -, hexec⟩
  · rw [Task.after, hexec]
    exact Untouched.of_looked hlooked
  · -- What is left to do is to tell about the rows, which does not fail.
    obtain ⟨u, hu⟩ := (returns_tellRequested c item e created actor).bind
      (fun _ => .pure created) ((s.requestedSite itemId w e actor).lookedUp item.boardId)
    rw [Task.answer, hexec] at h
    cases hu.symm.trans h

/-- What follows a decision fails only where the level is completed and the workflow says nothing about
    the item. Then nobody is told. -/
theorem exec_follow_error {s' : Site} {wasSatisfied : Bool} (htidy : s.Tidy)
    (hitem : (s.office.items.get? item.id).isSome)
    (h : (follow c item w wasSatisfied d actor comments).exec s = (.error fault, s')) :
    d.status = .approved ∧ wasSatisfied = false ∧ isSatisfied w s d = true ∧
      s.evaluationOf item = .error fault ∧ s' = s.lookedUp item.boardId := by
  -- Telling never fails, so a failure does not come from a branch on which only that is left.
  have hnever {α : Type} {t : SiteTask α} {s₁ : Site} (ht : Task.Returns t)
      (h : t.exec s₁ = (.error fault, s')) : False := by
    obtain ⟨x, hx⟩ := ht s₁
    rw [Task.answer, h] at hx
    cases hx
  unfold follow at h
  split at h
  · next happroved =>
    have htell (completed : Bool) (aftermath : Aftermath) :=
      returns_tellApproved c item d actor comments completed aftermath
    rw [Task.exec_get_bind] at h
    simp only at h
    split at h
    · next hcompleted =>
      obtain ⟨hwas, hsatisfied⟩ : wasSatisfied = false ∧ isSatisfied w s d = true := by
        simpa using hcompleted
      refine ⟨happroved, hwas, hsatisfied, ?_⟩
      cases heval : s.evaluationOf item with
      | ok we =>
        -- The flow has gone on, so only telling is left.
        obtain ⟨w', e⟩ := we
        obtain ⟨aftermath, haftermath⟩ := htidy.returns_goOn hitem heval
        have hgone : (goOn item).exec s = (.ok aftermath, (goOn item).after s) :=
          Prod.ext haftermath rfl
        rw [Task.exec_bind_ok hgone] at h
        exact absurd h (fun h => hnever (htell _ aftermath) h)
      | error fault' =>
        have hgone : (goOn item).exec s = (.error fault', s.lookedUp item.boardId) := by
          unfold goOn
          rw [Task.exec_bind, exec_evaluateItem, heval]
        rw [Task.exec_bind, hgone] at h
        cases h
        exact ⟨rfl, rfl⟩
    · rw [pure_bind] at h
      exact absurd h (fun h => hnever (htell _ _) h)
  · exact absurd h (fun h => hnever (returns_tellRejected c item d actor comments) h)
  · exact absurd h (fun h => hnever (.pure _) h)

/-- A decision that satisfies its level for the first time, on an item about which the workflow says
    nothing. -/
structure Stranded (s : Site) (key : Int) (requested : Value) (actor comments : Option String)
    (a : Approval) (next : Status) (item : Item) (w : Workflow) (fault : Fault) : Prop
    extends Decision s key requested actor comments a next item w where
  approves : next = .approved
  unsatisfied : isSatisfied w s a = false
  completes : isSatisfied w (s.decide (a.decided next comments actor s.office.clock)) a = true
  unevaluated : s.evaluationOf item = .error fault

/-- Only a limit of the evaluation strands a decision. -/
theorem Stranded.isLimit (h : Stranded s key requested actor comments a next item w fault) :
    fault.IsLimit := by
  have hunevaluated := h.unevaluated
  unfold evaluationOf at hunevaluated
  rw [h.workflow] at hunevaluated
  rcases Result.bind_eq_error hunevaluated with hw | ⟨w', hw, hunevaluated⟩
  · cases hw
  · rcases Result.bind_eq_error hunevaluated with he | ⟨e, -, he⟩
    · exact Workflow.fault_evaluate he
    · cases he

/-- A decision that fails leaves everything untouched, or is stranded. Then its row is written, and
    nothing else is. -/
theorem untouched_or_stranded (htidy : s.Tidy) (hkeys : s.approvals.KeysDistinct)
    (h : (transition c key requested actor comments).answer s = .error fault) :
    s.Untouched ((transition c key requested actor comments).after s) ∨
      ∃ a next item w, Stranded s key requested actor comments a next item w fault ∧
        (s.decide (a.decided next comments actor s.office.clock)).Untouched
          ((transition c key requested actor comments).after s) := by
  rcases transition_cases c key requested actor comments s with
    ⟨fault', s', hexec, hlooked, -⟩ | ⟨a, next, item, w, hdecision, hexec⟩
  · rw [Task.after, hexec]
    exact .inl (Untouched.of_looked hlooked)
  · -- From here on the row is written, and what follows may still fail.
    let mid := (s.decide (a.decided next comments actor s.office.clock)).lookedUp item.boardId
    have hid : item.id = a.itemId := hdecision.id_eq
    have hmid : mid.Tidy :=
      tidy_congr (lookedUp_approvals _ item.boardId) (htidy.decision hkeys hdecision)
    have hitem : (mid.office.items.get? item.id).isSome := by
      simp only [mid, lookedUp_office, decide_office, hid, hdecision.itemFound]
      rfl
    rw [Task.answer, hexec] at h
    rw [Task.after, hexec]
    rw [Task.exec_bind] at h ⊢
    rcases hfollow : (follow c item w (isSatisfied w s a)
        (a.decided next comments actor s.office.clock) actor comments).exec mid with ⟨u | u, s'⟩
    · rw [hfollow] at h
      cases h
      obtain ⟨happroved, hunsatisfied, hcompletes, heval, rfl⟩ :=
        exec_follow_error hmid hitem hfollow
      refine .inr ⟨a, next, item, w, ⟨hdecision, happroved, hunsatisfied, ?_, ?_⟩, ?_⟩
      · rw [← isSatisfied_lookedUp w _ item.boardId]
        exact hcompletes
      · rw [← heval, evaluationOf_lookedUp]
        rfl
      · exact ⟨by simp only [mid, lookedUp_approvals], by simp only [mid, lookedUp_office]⟩
    · rw [hfollow] at h
      cases h

end Approvals

namespace Site

open Approvals

/-- Behind every run from an empty table, a request or a decision that fails leaves approvals and office
    as they were. The exception is a decision that completes its level when a rule compares an integer
    that is too large, or is nested too deep: it is written all the same, and nobody is told. -/
theorem failed_calls_of_fresh (hnone : s.approvals.rows = []) (ops : List Operation) :
    (∀ c itemId actor fault, (request c itemId actor).answer (s.run ops) = .error fault →
        (s.run ops).Untouched ((request c itemId actor).after (s.run ops))) ∧
      ∀ c key requested actor comments fault,
        (transition c key requested actor comments).answer (s.run ops) = .error fault →
          (s.run ops).Untouched ((transition c key requested actor comments).after (s.run ops)) ∨
            (fault = .intTooLarge ∨ fault = .exhausted .depth) ∧ ∃ a next item w,
              Stranded (s.run ops) key requested actor comments a next item w fault ∧
                ((s.run ops).decide
                  (a.decided next comments actor (s.run ops).office.clock)).Untouched
                    ((transition c key requested actor comments).after (s.run ops)) := by
  have hkeys : s.approvals.KeysDistinct := by simp [Table.KeysDistinct, hnone]
  have htidy : (s.run ops).Tidy := (tidy_of_nil hnone).run hkeys ops
  refine ⟨fun c itemId actor fault h => untouched_of_request h, ?_⟩
  intro c key requested actor comments fault h
  rcases untouched_or_stranded htidy (keysDistinct_run ops hkeys) h with
    huntouched | ⟨a, next, item, w, hstranded, hwritten⟩
  · exact .inl huntouched
  · exact .inr ⟨hstranded.isLimit, a, next, item, w, hstranded, hwritten⟩

/-- On the small site nobody can ask for an item that is not there. -/
theorem failed_calls_of_fresh_small :
    let s := small.run [.request .noted 1 (some "A")]
    (request .noted 7 (some "A")).answer s = .error (.notFound "Item" (.int 7)) ∧
      s.Untouched ((request .noted 7 (some "A")).after s) := by
  intro s
  have hnone : small.approvals.rows = [] := rfl
  have hfails : (request .noted 7 (some "A")).answer s = .error (.notFound "Item" (.int 7)) := by
    with_unfolding_all rfl
  obtain ⟨hrequests, -⟩ := failed_calls_of_fresh hnone [.request .noted 1 (some "A")]
  exact ⟨hfails, hrequests _ _ _ _ hfails⟩

end Site

/-! ## A decision that is stranded -/

/-- What the fault says, if there is one. -/
def Result.reason? {α : Type} : Result α → Option String
  | .ok _ => none
  | .error fault => some fault.text

/-- Two levels, one after the other. Purchases that cost more than the limit and still more than a second
    one, which is too large for a double, need the first. -/
def Workflow.costly : Workflow where
  name := "Purchases"
  levels := Workflow.small.levels
  rules := [
    { id := "costly"
      name := "Costly purchases"
      condition := .node .all none .null (some [
        .node (.test .greaterThan) (some "total") (.int 10000) none,
        .node (.test .greaterThan) (some "total") (.int (Int.pow 10 400)) none])
      action := { routing := .requireLevel, level := some .first } }]

/-- The small site with a column for the price. -/
def Site.costly : Site where
  office := { Site.small.office with columns := ⟨[⟨1, 1, "Total", "number", 0⟩]⟩ }
  known := [(1, .costly)]

/-- Without a price the second limit is never looked at. A price is entered while the first level is
    decided. The decision fails, and its row is approved. -/
theorem stranded_decision :
    let s := Site.costly.run [.request .noted 1 (some "A"),
      .office (.editItem .nobody 1 (some "A") .null [(.int 1, .int 20000)])]
    let decision := Approvals.transition .noted 1 (.text "approved") (some "A") none
    Site.costly.approvals.rows = [] ∧
      decision.answer s = .error .intTooLarge ∧
      s.approvals.rows.map (·.status) = [.pending] ∧
      (decision.after s).approvals.rows.map (·.status) = [.approved] := by
  intro s decision
  have hnone : Site.costly.approvals.rows = [] := rfl
  have hkeys : Site.costly.approvals.KeysDistinct := by simp [Table.KeysDistinct, hnone]
  have htidy : s.Tidy := (Site.tidy_of_nil hnone).run hkeys _
  have hpending : s.approvals.rows.map (·.status) = [.pending] := by decide +kernel
  have happroved : (decision.after s).approvals.rows.map (·.status) = [.approved] := by
    decide +kernel
  have hreason : (decision.answer s).reason? = some "int too large to convert to float" := by
    decide +kernel
  refine ⟨hnone, ?_, hpending, happroved⟩
  cases hanswer : decision.answer s with
  | ok d =>
    rw [hanswer] at hreason
    cases hreason
  | error fault =>
    rcases Approvals.untouched_or_stranded htidy (Site.keysDistinct_run _ hkeys) hanswer with
      huntouched | ⟨_, _, _, _, hstranded, -⟩
    · rw [huntouched.approvals, hpending] at happroved
      cases happroved
    · -- Of the two limits only the integers have this text.
      rcases hstranded.isLimit with rfl | rfl
      · rfl
      · rw [hanswer] at hreason
        exact absurd hreason (by decide)

end Signoff
