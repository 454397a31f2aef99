import Signoff.Proofs.Approval.Faults
import Signoff.Proofs.Run

/-! # Approved is final

    No operation but a deletion takes an approval back:

    * `exists_approved_run`: an item with an approved row on a level keeps one.
    * `approved_in_front_persists`: so the level in front of an approval stays
      approved, whatever becomes of the workflow and of the item.
    * `Operation.Approves`: the operation approves a row, or tells so.
    * `Approvals.returns_of_approved`: approving an approved row always returns.
    * `approved_kept_until_reapproved`: an approved row changes only when it is
      approved once more.
-/

open Signoff.Task (Keeps Reads Same)

namespace Signoff

variable {s : Site} {itemId key : Int} {a : Approval} {op : Operation} {ops : List Operation}

/-! ## Rows along a run -/

/-- In every turn the rows are kept, and new ones come behind them. -/
theorem Turn.exists_kept {rows rows' : List Approval} (h : Turn s itemId rows rows') :
    ∃ kept new, rows' = kept ++ new ∧ AllKept rows kept := by
  cases h with
  | kept h => exact ⟨_, [], (List.append_nil _).symm, h⟩
  | opened h => exact ⟨_, _, rfl, h⟩
  | approved => exact ⟨rows, _, rfl, AllKept.refl rows⟩

namespace Site

theorem mem_approvalsOf : a ∈ s.approvalsOf itemId ↔ a ∈ s.approvals.rows ∧ a.itemId = itemId := by
  rw [approvalsOf, List.mem_filter, beq_iff_eq]

/-- A row is kept along every run without deletions. -/
theorem exists_kept_run (hkeys : s.approvals.KeysDistinct) (hops : ∀ op ∈ ops, ¬ op.Deletes)
    (ha : a ∈ s.approvalsOf itemId) : ∃ a' ∈ (s.run ops).approvalsOf itemId, a.Kept a' := by
  induction ops generalizing s a with
  | nil => exact ⟨a, ha, Approval.Kept.refl a⟩
  | cons op rest ih =>
    obtain ⟨kept, new, hrows, hkept⟩ :=
      (op.turn hkeys (hops op (List.mem_cons_self ..)) itemId).exists_kept
    obtain ⟨b, hb, hab⟩ := hkept.exists_mem ha
    have hb' : b ∈ (op.after s).approvalsOf itemId := by
      rw [hrows]
      exact List.mem_append_left _ hb
    obtain ⟨a', ha', hba'⟩ := ih (op.keysDistinct_after hkeys)
      (fun op' hop' => hops op' (List.mem_cons_of_mem _ hop')) hb'
    exact ⟨a', ha', hab.trans hba'⟩

/-- An item that has an approved row on a level keeps one there. -/
theorem exists_approved_run (hkeys : s.approvals.KeysDistinct) (hops : ∀ op ∈ ops, ¬ op.Deletes)
    {level : String}
    (h : ∃ a ∈ s.approvalsOf itemId, a.level = level ∧ a.status = .approved) :
    ∃ a ∈ (s.run ops).approvalsOf itemId, a.level = level ∧ a.status = .approved := by
  obtain ⟨a, ha, hlevel, happroved⟩ := h
  obtain ⟨a', ha', hkept⟩ := exists_kept_run hkeys hops ha
  exact ⟨a', ha', hkept.level.trans hlevel, hkept.approved happroved⟩

/-! ## The level in front -/

/-- The sequence was checked against an approved row in front. -/
theorem exists_approved_of_checkSequence {l p : Level}
    (h : Approvals.checkSequence s a = .ok ()) (hlevel : a.level = l.name)
    (hfront : l.previous? = some p) :
    ∃ b ∈ s.approvalsOf a.itemId, b.level = p.name ∧ b.status = .approved := by
  have hname : Level.ofName a.level = .ok l := by
    rw [hlevel, Level.ofName, Level.ofName?_name]
  unfold Approvals.checkSequence at h
  rw [hname] at h
  simp only [bind, Except.bind, hfront] at h
  split at h
  · next hany =>
    obtain ⟨b, hb, hstatus⟩ := List.any_eq_true.mp hany
    obtain ⟨hmem, hnamed⟩ := List.mem_filter.mp hb
    exact ⟨b, hmem, beq_iff_eq.mp hnamed, beq_iff_eq.mp hstatus⟩
  · cases h

/-- Once an approval behind the first level was given, the level in front has an approved row in every
    state that follows without a deletion. -/
theorem approved_in_front_persists (hkeys : s.approvals.KeysDistinct) {before later : List Operation}
    {c : Channels} {actor comments : Option String} {d : Approval} {l p : Level}
    (hanswer : (Approvals.transition c key (.text "approved") actor comments).answer
      (s.run before) = .ok d)
    (hlevel : d.level = l.name) (hfront : l.previous? = some p)
    (hlater : ∀ op ∈ later, ¬ op.Deletes) :
    ∃ a ∈ (s.run (before ++ .transition c key (.text "approved") actor comments :: later)).approvalsOf
      d.itemId, a.level = p.name ∧ a.status = .approved := by
  have hkeys' := keysDistinct_run before hkeys
  rcases Approvals.after_transition c key (.text "approved") actor comments (s.run before) with
    ⟨-, fault, hfault, -⟩ | ⟨a, next, item, w, hdecision, -, hdecided⟩
  · rw [hfault] at hanswer
    cases hanswer
  · obtain ⟨⟨word, hword, hnext⟩, -⟩ := Approvals.allowedStatus_eq_ok hdecision.allowed
    cases hword
    cases hnext
    have hd := hdecided d hanswer
    subst hd
    -- The decision was checked against a row in front; the decision itself is part of the run, and
    -- no operation of the run takes the row back.
    have hinFront : ∃ b ∈ (s.run before).approvalsOf a.itemId,
        b.level = p.name ∧ b.status = .approved :=
      exists_approved_of_checkSequence (hdecision.inSequence rfl) hlevel hfront
    rw [run_append]
    refine exists_approved_run hkeys' ?_ hinFront
    intro op hop
    rcases List.mem_cons.mp hop with rfl | hop
    · exact id
    · exact hlater op hop

/-- Both levels of the small site are approved, and then the item needs no approval any more. -/
theorem approved_in_front_persists_small :
    ∃ a ∈ (small.run ([.request .noted 1 (some "A"),
          .transition .noted 1 (.text "approved") (some "A") none] ++
        .transition .noted 2 (.text "approved") (some "B") none ::
          [.office (.changeStatus .nobody 1 (some "A") (.text "Petty"))])).approvalsOf 1,
      a.level = "LEVEL_1" ∧ a.status = .approved := by
  have hanswer : (Approvals.transition .noted 2 (.text "approved") (some "B") none).answer
      (small.run [.request .noted 1 (some "A"),
        .transition .noted 1 (.text "approved") (some "A") none]) =
      .ok { id := 2, itemId := 1, level := "LEVEL_2", status := .approved, approver := some "B",
            comments := none, createdAt := ⟨0⟩, decidedAt := some ⟨0⟩ } := by
    with_unfolding_all rfl
  have hlevel : "LEVEL_2" = Level.second.name := rfl
  have hfront : Level.second.previous? = some .first := rfl
  exact approved_in_front_persists sound_small.keysDistinct hanswer hlevel hfront
    (by simp [Operation.Deletes])

/-! ## Approved rows -/

/-- Nothing was told of the approval of a key in between. -/
def Spares (key : Int) (s s' : Site) : Prop :=
  Office.Hears (fun event => ¬ event.Approves key) s.office s'.office

instance (key : Int) : Tolerant (Spares key) where
  refl s := Std.Refl.refl s.office
  trans s s' s'' h h' := IsTrans.trans s.office s'.office s''.office h h'
  office s o h := Office.hears_of_hushed key h
  lookedUp s boardId := Office.hears_of_heard_eq (by rw [lookedUp_office])
  forgetful s boardId := Office.hears_of_heard_eq rfl
  added s row _ := Office.hears_of_heard_eq rfl
  decided s row := Office.hears_of_heard_eq rfl
  removed s key := Office.hears_of_heard_eq rfl

/-- What is told about another row spares the row. -/
theorem spares_tell (c : Channels) (item : Item) (actor : Option String) (h : a.id ≠ key) :
    Keeps (Spares key) (c.tell item .approvalApproved actor (Channels.noteOf a)) := by
  refine (keeps_current item).bind fun item => fun s => ?_
  refine c.listener.hears_tell (fun happroves => ?_) s.office
  have hsame : some a.id = some key := happroves.2
  exact h (Option.some.inj hsame)

end Site

/-- The operation approves the row of a key, or hands the automations an event that says so. -/
def Operation.Approves (key : Int) (s : Site) : Operation → Prop
  | .transition c k requested actor comments =>
    ∃ d, (Approvals.transition c k requested actor comments).answer s = .ok d ∧
      d.id = key ∧ d.status = .approved
  | .office (.react event _) => event.Approves key
  | _ => False

/-! ## Approving once more -/

namespace Site

/-- A decision that changes no status changes nothing about which levels are satisfied. -/
theorem isSatisfied_decide {w : Workflow} {d : Approval} (hkeys : s.approvals.KeysDistinct)
    (ha : a ∈ s.approvals.rows) (hid : d.id = a.id) (hitem : d.itemId = a.itemId)
    (hlevel : d.level = a.level) (hstatus : d.status = a.status) :
    Approvals.isSatisfied w (s.decide d) d = Approvals.isSatisfied w s a := by
  have hstatuses : ((s.decide d).rowsNamed a.itemId a.level).map (·.status) =
      (s.rowsNamed a.itemId a.level).map (·.status) := by
    rw [rowsNamed_decide hkeys ha hid hitem hlevel, List.map_map]
    refine List.map_congr_left fun row hmem => ?_
    -- Row by row, the status is as before.
    have hrow := (List.mem_filter.mp (List.mem_filter.mp hmem).1).1
    rcases replaced_cases hkeys ha hid hrow with hsame | ⟨rfl, hd⟩
    · rw [Function.comp_apply, hsame]
    · rw [Function.comp_apply, hd, hstatus]
  unfold Approvals.isSatisfied Workflow.satisfied
  rw [hitem, hlevel, hstatuses]

end Site

/-- Approving an approved row does not fail once it is written. -/
theorem Approvals.returns_of_approved (c : Channels) {requested : Value}
    {actor comments : Option String} {next : Status} {item : Item} {w : Workflow}
    (hkeys : s.approvals.KeysDistinct)
    (hdecision : Approvals.Decision s key requested actor comments a next item w)
    (happroved : a.status = .approved) :
    ∃ u, (follow c item w (isSatisfied w s a) (a.decided next comments actor s.office.clock) actor
        comments).answer
      ((s.decide (a.decided next comments actor s.office.clock)).lookedUp item.boardId) = .ok u := by
  refine returns_follow fun hsatisfied => ?_
  have hnext : next = .approved := (allowedStatus_eq_ok hdecision.allowed).2 happroved
  have ha : a ∈ s.approvals.rows := (Table.mem_of_get? hdecision.found).1
  rw [Site.isSatisfied_lookedUp] at hsatisfied
  have hsame : isSatisfied w (s.decide (a.decided next comments actor s.office.clock))
      (a.decided next comments actor s.office.clock) = isSatisfied w s a :=
    Site.isSatisfied_decide hkeys ha rfl rfl rfl (hnext.trans happroved.symm)
  exact hsame.symm.trans hsatisfied

namespace Site

theorem spares_office {o : OfficeOperation} (h : ¬ (Operation.office o).Approves key s) :
    Keeps (Spares key) (within o.perform) := by
  by_cases hreact : ∃ event today, o = .react event today
  · -- The event that is handed over is told, but it approves another row.
    obtain ⟨event, today, rfl⟩ := hreact
    have htold : Keeps (Office.Hears fun event => ¬ event.Approves key)
        (OfficeOperation.react event today).perform := (Automations.hears_react h today).discard
    exact fun s => htold s.office
  · exact keeps_within (OfficeOperation.hushed fun event today ho => hreact ⟨event, today, ho⟩)

/-- An operation other than a transition tells no approval of the row unless it is handed one. -/
theorem spares_perform (h : ¬ op.Approves key s)
    (htransition : ∀ c k requested actor comments, op ≠ .transition c k requested actor comments) :
    Keeps (Spares key) op.perform := by
  by_cases hquiet : op.IsQuiet
  · refine Operation.keeps_of_isQuiet hquiet fun o ho => ?_
    subst ho
    exact spares_office h
  · cases op with
    | request c itemId actor => exact (keeps_request c itemId actor).discard
    | delete k actor => exact keeps_delete k actor
    | transition c k requested actor comments => exact absurd rfl (htransition _ _ _ _ _)
    | _ => exact absurd trivial hquiet

/-! ## One operation -/

theorem mem_nextOpened {w : Workflow} {e : Evaluation} (ha : a ∈ s.approvals.rows) :
    a ∈ (s.nextOpened itemId w e).approvals.rows := by
  unfold nextOpened
  split
  · split
    · exact List.mem_append_left _ ha
    · exact ha
  · exact ha

theorem mem_allApproved {actor : Option String} (ha : a ∈ s.approvals.rows) :
    a ∈ (s.allApproved itemId actor).approvals.rows := by
  unfold allApproved
  split
  · exact List.mem_append_left _ ha
  · exact ha

/-- Going on behind a decision leaves every row alone. -/
theorem mem_decidedSite_of_decide {b d : Approval} {item : Item} {w : Workflow}
    (ha : a ∈ (s.decide d).approvals.rows) :
    a ∈ (Approvals.decidedSite s b d item w).approvals.rows := by
  unfold Approvals.decidedSite
  split
  · rcases goneOn_cases (s.decide d) item with hgone | ⟨w', e, -, hgone⟩
    · rw [hgone]
      exact ha
    · rw [hgone]
      exact mem_nextOpened ha
  · exact ha

/-- A decision on another row leaves the row alone. -/
theorem mem_decidedSite {b d : Approval} {item : Item} {w : Workflow} (hd : d.id ≠ a.id)
    (ha : a ∈ s.approvals.rows) : a ∈ (Approvals.decidedSite s b d item w).approvals.rows := by
  apply mem_decidedSite_of_decide
  refine List.mem_map.mpr ⟨a, ha, if_neg fun hkey => hd ?_⟩
  exact (beq_iff_eq.mp hkey).symm

/-- A request leaves every row alone. -/
theorem mem_after_request (c : Channels) (itemId : Int) (actor : Option String)
    (ha : a ∈ s.approvals.rows) : a ∈ ((Approvals.request c itemId actor).after s).approvals.rows := by
  rcases Approvals.after_request c itemId actor s with hsame | ⟨item, w, e, -, -, hsame⟩
  · rw [hsame]
    exact ha
  · rw [hsame]
    split
    · exact mem_allApproved ha
    · exact mem_nextOpened ha

/-- A transition that does not approve the approved row leaves it alone, and tells nothing of it. -/
theorem spares_transition (hkeys : s.approvals.KeysDistinct) (ha : a ∈ s.approvals.rows)
    (happroved : a.status = .approved) {c : Channels} {k : Int} {requested : Value}
    {actor comments : Option String}
    (h : ¬ (Operation.transition c k requested actor comments).Approves a.id s) :
    a ∈ ((Approvals.transition c k requested actor comments).after s).approvals.rows ∧
      Spares a.id s ((Approvals.transition c k requested actor comments).after s) := by
  rcases Approvals.transition_cases c k requested actor comments s with
    ⟨fault, s', hexec, hlooked, -⟩ | ⟨b, next, item, w, hdecision, hexec⟩
  · rw [Task.after, hexec]
    rcases hlooked with rfl | ⟨boardId, rfl⟩
    · exact ⟨ha, Std.Refl.refl s'.office⟩
    · exact ⟨by rwa [lookedUp_approvals], Curious.lookedUp s boardId⟩
  · obtain ⟨hb, -⟩ := Table.mem_of_get? hdecision.found
    -- The row itself could only be approved again, and that would have returned.
    have hne : b.id ≠ a.id := by
      intro hid
      have hsame : b = a := hkeys.eq_of_key_eq hb ha hid
      subst hsame
      obtain ⟨u, hu⟩ := Approvals.returns_of_approved c hkeys hdecision happroved
      refine h ⟨b.decided next comments actor s.office.clock, ?_, rfl,
        (Approvals.allowedStatus_eq_ok hdecision.allowed).2 happroved⟩
      rw [Task.answer, hexec]
      refine (Task.answer_bind _ _ _).trans ?_
      rw [hu]
      rfl
    have hother : ∀ b' next item w,
        Approvals.Decision s k requested actor comments b' next item w → b'.id ≠ a.id := by
      intro b' next' item' w' hdecision'
      cases hdecision.found.symm.trans hdecision'.found
      exact hne
    constructor
    · rcases Approvals.after_transition c k requested actor comments s with
        ⟨hsame, -⟩ | ⟨b', next', item', w', hdecision', hsame, -⟩
      · rw [hsame]
        exact ha
      · rw [hsame]
        exact mem_decidedSite (hother b' next' item' w' hdecision') ha
    · refine Approvals.keeps_transition_of fun b' next' item' w' hdecision' _ => ?_
      exact spares_tell c item' actor (hother b' next' item' w' hdecision')

/-- An approved row is left alone by every operation that does not approve or remove it, and nothing is
    told of it. -/
theorem spares_after (hkeys : s.approvals.KeysDistinct) (hdelete : ¬ op.Deletes)
    (happrove : ¬ op.Approves a.id s) (ha : a ∈ s.approvals.rows) (happroved : a.status = .approved) :
    a ∈ (op.after s).approvals.rows ∧ Spares a.id s (op.after s) := by
  by_cases hquiet : op.IsQuiet
  · refine ⟨by rwa [Operation.approvals_after hquiet], spares_perform happrove ?_ s⟩
    rintro c k requested actor comments rfl
    exact hquiet
  · cases op with
    | request c itemId actor =>
      refine ⟨?_, spares_perform happrove (by simp) s⟩
      rw [Operation.after, Operation.perform, Task.after_discard]
      exact mem_after_request c itemId actor ha
    | delete k actor => exact absurd trivial hdelete
    | transition c k requested actor comments =>
      rw [Operation.after, Operation.perform, Task.after_discard]
      exact spares_transition hkeys ha happroved happrove
    | _ => exact absurd trivial hquiet

/-! ## Runs -/

/-- An approved row and its approver stay, and nothing else about it changes either, nor is its approval
    told again, as long as no operation approves the row once more. -/
theorem approved_kept_until_reapproved (hkeys : s.approvals.KeysDistinct)
    (ha : a ∈ s.approvals.rows) (happroved : a.status = .approved)
    (hops : ∀ op ∈ ops, ¬ op.Deletes) :
    ∃ a' ∈ (s.run ops).approvals.rows, a.Kept a' ∧ a'.status = .approved ∧
      (s.Throughout (fun s op => ¬ op.Approves a.id s) ops → a' = a ∧
        (s.run ops).office.approvalsHeard a.id = s.office.approvalsHeard a.id) := by
  by_cases hnone : s.Throughout (fun s op => ¬ op.Approves a.id s) ops
  · -- By induction on the run, the very same row is there in front of every operation.
    suffices h : a ∈ (s.run ops).approvals.rows ∧
        (s.run ops).office.approvalsHeard a.id = s.office.approvalsHeard a.id from
      ⟨a, h.1, Approval.Kept.refl a, happroved, fun _ => ⟨rfl, h.2⟩⟩
    induction ops generalizing s with
    | nil => exact ⟨ha, rfl⟩
    | cons op rest ih =>
      obtain ⟨hfirst, hlater⟩ := hnone
      obtain ⟨ha', hspares⟩ :=
        spares_after hkeys (hops op (List.mem_cons_self ..)) hfirst ha happroved
      have hheard : (op.after s).office.approvalsHeard a.id = s.office.approvalsHeard a.id :=
        Office.approvalsHeard_of_hears hspares
      obtain ⟨hmem, hrest⟩ := ih (op.keysDistinct_after hkeys) ha'
        (fun op' hop' => hops op' (List.mem_cons_of_mem _ hop')) hlater
      exact ⟨hmem, hrest.trans hheard⟩
  · obtain ⟨a', ha', hkept⟩ := exists_kept_run hkeys hops (mem_approvalsOf.mpr ⟨ha, rfl⟩)
    exact ⟨a', (mem_approvalsOf.mp ha').1, hkept, hkept.approved happroved,
      fun h => absurd h hnone⟩

/-- The first level of the small site stays approved as it is when the second one is rejected. -/
theorem approved_kept_until_reapproved_small :
    let first := small.run [.request .noted 1 (some "A"),
      .transition .noted 1 (.text "approved") (some "A") (some "fine")]
    let second := first.run [.transition .noted 2 (.text "rejected") (some "B") none]
    ∃ a ∈ first.approvals.rows, a.id = 1 ∧ a.status = .approved ∧ a ∈ second.approvals.rows ∧
      second.office.approvalsHeard 1 = first.office.approvalsHeard 1 := by
  intro first second
  have hkeys : first.approvals.KeysDistinct := (sound_small.run _).keysDistinct
  have hrow : first.approvals.get? 1 =
      some { id := 1, itemId := 1, level := "LEVEL_1", status := .approved, approver := some "A",
             comments := some "fine", createdAt := ⟨0⟩, decidedAt := some ⟨0⟩ } := by
    with_unfolding_all rfl
  obtain ⟨ha, -⟩ := Table.mem_of_get? hrow
  have hops : ∀ op ∈ [Operation.transition .noted 2 (.text "rejected") (some "B") none],
      ¬ op.Deletes := by
    simp [Operation.Deletes]
  obtain ⟨a', ha', -, -, hsame⟩ := approved_kept_until_reapproved hkeys ha rfl hops
  have hother : ¬ (Operation.transition .noted 2 (.text "rejected") (some "B") none).Approves 1
      first := by
    rintro ⟨d, hd, hid, -⟩
    have hrejected : ((Approvals.transition .noted 2 (.text "rejected") (some "B") none).answer
        first).toOption.map (·.id) = some 2 := by
      decide +kernel
    rw [hd] at hrejected
    cases hrejected.symm.trans (congrArg some hid)
  obtain ⟨rfl, hheard⟩ := hsame ⟨hother, trivial⟩
  exact ⟨_, ha, rfl, rfl, ha', hheard⟩

/-- An approval that is given again is written again, with the new comments and moment, and told again. -/
theorem reapproval_rewrites :
    let first := small.run [.request .noted 1 (some "A"),
      .transition .noted 1 (.text "approved") (some "A") (some "fine"),
      .office (.setClock ⟨1⟩)]
    let second := first.run [.transition .noted 1 (.text "approved") (some "A") (some "again")]
    ((first.approvals.get? 1).map fun a => (a.status, a.comments, a.decidedAt)) =
        some (.approved, some "fine", some ⟨0⟩) ∧
      ((second.approvals.get? 1).map fun a => (a.status, a.comments, a.decidedAt)) =
        some (.approved, some "again", some ⟨1⟩) ∧
      (first.office.approvalsHeard 1).length = 1 ∧ (second.office.approvalsHeard 1).length = 2 := by
  decide +kernel

end Site

end Signoff
