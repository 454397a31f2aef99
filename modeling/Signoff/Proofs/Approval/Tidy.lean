import Signoff.Proofs.Approval.Order
import Signoff.Proofs.Run

/-! # The table of approvals

    On a level of an item nobody has two approvals, and an approval that names
    nobody is the only one there. The table could refuse a row that breaks this;
    it never has to:

    * `Apart`: the approvers of one level.
    * `Approval.Proper`: what holds of every row by itself.
    * `Site.Tidy`: both, for the whole table.
    * `Site.Admits`: rows for levels without any. Adding them keeps the table
      tidy, as do decisions and removals.
    * `Site.Written`: what an operation writes, and that none of the rows it adds
      is refused.
    * `tidy_of_fresh`: the table is tidy behind every run.
-/

open Signoff.Task (Keeps Same)

namespace Signoff

variable {s : Site} {itemId : Int} {item : Item} {w : Workflow} {e : Evaluation} {o : Opening}
  {rows rows' : List Approval} {a d : Approval} {ds : List Draft} {l : Level} {op : Operation}
  {actor comments : Option String}

/-! ## The approvers of a level -/

/-- No approver comes twice, and where a row names nobody it is the only one. -/
structure Apart (approvers : List (Option String)) : Prop where
  distinct : approvers.Nodup
  alone : none ∈ approvers → approvers = [none]

namespace Apart

theorem nil : Apart [] where
  distinct := List.nodup_nil
  alone := by simp

theorem singleton (approver : Option String) : Apart [approver] where
  distinct := List.nodup_singleton approver
  alone h := by rw [← List.mem_singleton.mp h]

theorem sublist {ps qs : List (Option String)} (h : Apart qs) (hsub : ps.Sublist qs) : Apart ps where
  distinct := h.distinct.sublist hsub
  alone hnone := by
    -- The list has a member, and it is part of a list with one member.
    rw [h.alone (hsub.subset hnone)] at hsub
    rcases List.sublist_singleton.mp hsub with hnil | hsame
    · rw [hnil] at hnone
      cases hnone
    · exact hsame

end Apart

namespace Workflow

/-- A level is open to anybody, or asks approvers with a name. -/
theorem approversOn_cases (w : Workflow) (e : Evaluation) (l : Level) :
    w.approversOn e l = [none] ∨
      ∃ asked : List String, (∀ user ∈ asked, user ∈ named e l) ∧ w.approversOn e l = asked.map some := by
  let asked := if (w.configOf? l).any (·.isParallel) then (named e l).eraseDups
    else (named e l).take 1
  have happrovers : w.approversOn e l = if asked.isEmpty then [none] else asked.map some := rfl
  rw [happrovers]
  split
  · exact .inl rfl
  · refine .inr ⟨asked, fun user huser => ?_, rfl⟩
    simp only [asked] at huser
    split at huser
    · exact List.mem_eraseDups.mp huser
    · exact List.mem_of_mem_take huser

/-- The approvers of a level are asked apart. -/
theorem apart_approversOn (w : Workflow) (e : Evaluation) (l : Level) :
    Apart (w.approversOn e l) where
  distinct := approversOn_nodup w e l
  alone hnone := by
    rcases approversOn_cases w e l with hnobody | ⟨asked, -, happrovers⟩
    · exact hnobody
    · simp [happrovers] at hnone

theorem named_of_mem_approversOn {user : String} (h : some user ∈ w.approversOn e l) :
    user.isEmpty = false := by
  rcases approversOn_cases w e l with hnobody | ⟨asked, hasked, happrovers⟩
  · simp [hnobody] at h
  · rw [happrovers] at h
    obtain ⟨u, hu, hsame⟩ := List.mem_map.mp h
    cases hsame
    simpa using (List.mem_filter.mp (hasked user hu)).2

end Workflow

/-! ## Rows by themselves -/

/-- A row that is on a level, whose approver has a name, and which has a moment of decision unless it is
    pending. -/
structure Approval.Proper (a : Approval) : Prop where
  onLevel : ∃ l : Level, a.level = l.name
  named : ∀ user, a.approver = some user → user.isEmpty = false
  dated : a.decidedAt = none ↔ a.status = .pending

/-- A draft that makes a proper row. -/
structure Draft.Proper (d : Draft) : Prop where
  onLevel : ∃ l : Level, d.level = l.name
  named : ∀ user, d.approver = some user → user.isEmpty = false
  status : d.status = .pending ∨ d.status = .approved

theorem Draft.Proper.row {d : Draft} (h : d.Proper) (itemId : Int) (now : Moment) (id : Int) :
    (d.row itemId now id).Proper where
  onLevel := h.onLevel
  named := h.named
  dated := by
    simp only [Draft.row]
    rcases h.status with hstatus | hstatus <;> simp [hstatus]

namespace Approval.Proper

theorem approver_eq_none (h : a.Proper) (hnobody : a.hasApprover = false) : a.approver = none := by
  cases happrover : a.approver with
  | none => rfl
  | some user =>
    unfold hasApprover at hnobody
    simp [happrover, h.named user happrover] at hnobody

/-- Somebody with a name leaves a proper row proper. -/
theorem decided (h : a.Proper) {user : String} (huser : user.isEmpty = false) (next : Status)
    (comments : Option String) (now : Moment) :
    (a.decided next comments (some user) now).Proper where
  onLevel := h.onLevel
  named := by
    intro approver happrover
    simp only [Approval.decided] at happrover
    split at happrover
    · exact h.named approver happrover
    · cases happrover
      exact huser
  dated := by
    simp only [Approval.decided]
    cases next <;> simp

end Approval.Proper

/-- Rows that are kept stay apart: only a row that names nobody can get another approver, and it is the
    only one on its level. -/
theorem Apart.kept (h : Apart (rows.map (·.approver))) (hproper : ∀ a ∈ rows, a.Proper)
    (hkept : AllKept rows rows') : Apart (rows'.map (·.approver)) := by
  by_cases hnone : none ∈ rows.map (·.approver)
  · have hone : rows'.length = 1 := by
      rw [← hkept.length_eq, ← List.length_map (·.approver), h.alone hnone]
      rfl
    obtain ⟨a', ha'⟩ := List.length_eq_one_iff.mp hone
    rw [ha']
    exact Apart.singleton a'.approver
  · -- Every row names somebody, and keeps its approver.
    have hsame : rows'.map (·.approver) = rows.map (·.approver) := by
      clear h
      induction hkept with
      | nil => rfl
      | @cons a a' rest rest' ha _ ih =>
        have hhas : a.hasApprover = true := by
          by_contra hnobody
          rw [Bool.not_eq_true] at hnobody
          have := (hproper a (List.mem_cons_self ..)).approver_eq_none hnobody
          exact hnone (by simp [this])
        have hrest : none ∉ rest.map (·.approver) := fun hmem =>
          hnone (List.mem_cons_of_mem _ hmem)
        rw [List.map_cons, List.map_cons, ha.approver hhas,
          ih (fun b hb => hproper b (List.mem_cons_of_mem _ hb)) hrest]
    rw [hsame]
    exact h

/-! ## Tidy tables -/

namespace Site

/-- Every row is proper, and the approvers of every level are apart. -/
structure Tidy (s : Site) : Prop where
  proper : ∀ a ∈ s.approvals.rows, a.Proper
  apart : ∀ itemId level, Apart ((s.rowsNamed itemId level).map (·.approver))

theorem tidy_of_nil (h : s.approvals.rows = []) : s.Tidy where
  proper := by simp [h]
  apart itemId level := by
    have hnone : s.rowsNamed itemId level = [] := by simp [rowsNamed, approvalsOf, h]
    rw [hnone]
    exact Apart.nil

/-- It is enough to look at the levels that there are. -/
theorem tidy_of_levels (hproper : ∀ a ∈ s.approvals.rows, a.Proper)
    (hapart : ∀ itemId l, Apart ((Approval.on (s.approvalsOf itemId) l).map (·.approver))) :
    s.Tidy where
  proper := hproper
  apart itemId level := by
    cases hrows : s.rowsNamed itemId level with
    | nil => exact Apart.nil
    | cons a rest =>
      have ha : a ∈ s.rowsNamed itemId level := by simp [hrows]
      obtain ⟨hmem, hlevel⟩ := List.mem_filter.mp ha
      obtain ⟨l, hl⟩ := (hproper a (List.mem_filter.mp hmem).1).onLevel
      have hname : level = l.name := (beq_iff_eq.mp hlevel).symm.trans hl
      rw [← hrows, hname]
      exact hapart itemId l

theorem Tidy.on (h : s.Tidy) (itemId : Int) (l : Level) :
    Apart ((Approval.on (s.approvalsOf itemId) l).map (·.approver)) :=
  h.apart itemId l.name

theorem tidy_congr {s' : Site} (h : s'.approvals = s.approvals) (hs : s.Tidy) : s'.Tidy where
  proper := by
    rw [h]
    exact hs.proper
  apart itemId level := by
    have hrows : s'.rowsNamed itemId level = s.rowsNamed itemId level := by
      simp only [rowsNamed, approvalsOf, h]
    rw [hrows]
    exact hs.apart itemId level

/-! ## Adding, deciding, removing -/

/-- Drafts for levels of an item that have no rows. -/
structure Admits (s : Site) (itemId : Int) (ds : List Draft) : Prop where
  proper : ∀ d ∈ ds, d.Proper
  isEmpty : ∀ d ∈ ds, s.rowsNamed itemId d.level = []
  apart : ∀ l : Level, Apart ((ds.filter fun d => d.level == l.name).map (·.approver))

/-- Every level has the rows that it had, or those of the drafts. -/
theorem Admits.on_addDrafts (h : s.Admits itemId ds) (l : Level) :
    Approval.on ((s.addDrafts itemId ds).approvalsOf itemId) l =
        Approval.on (s.approvalsOf itemId) l ∨
      (Approval.on ((s.addDrafts itemId ds).approvalsOf itemId) l).map (·.approver) =
        (ds.filter fun d => d.level == l.name).map (·.approver) := by
  rw [approvalsOf_addDrafts, on_append]
  have hrows : List.Forall₂ (fun (d : Draft) (a : Approval) =>
      ∃ k, a = d.row itemId s.office.clock k) _
      (Approval.on (Draft.rowsFrom itemId s.office.clock s.approvals.nextKey ds) l) :=
    Draft.forall₂_on ds l
  cases hds : ds.filter fun d => d.level == l.name with
  | nil =>
    rw [hds] at hrows
    rw [List.forall₂_nil_left_iff.mp hrows, List.append_nil]
    exact .inl rfl
  | cons d rest =>
    -- There is a draft for the level, so the level had no rows.
    have hd : d ∈ ds.filter fun d => d.level == l.name := by simp [hds]
    obtain ⟨hmem, hlevel⟩ := List.mem_filter.mp hd
    have hempty : Approval.on (s.approvalsOf itemId) l = [] := by
      have := h.isEmpty d hmem
      rwa [beq_iff_eq.mp hlevel, rowsNamed_name] at this
    rw [hempty, List.nil_append, ← hds]
    have happrovers : List.Forall₂ (fun (d : Draft) (a : Approval) => d.approver = a.approver)
        (ds.filter fun d => d.level == l.name)
        (Approval.on (Draft.rowsFrom itemId s.office.clock s.approvals.nextKey ds) l) :=
      hrows.imp fun d a ⟨k, ha⟩ => by rw [ha]; rfl
    rw [← List.forall₂_map_right_iff, ← List.forall₂_map_left_iff, List.forall₂_eq_eq_eq]
      at happrovers
    exact .inr happrovers.symm

namespace Tidy

theorem addDrafts (h : s.Tidy) (hds : s.Admits itemId ds) : (s.addDrafts itemId ds).Tidy := by
  apply tidy_of_levels
  · intro a ha
    rcases List.mem_append.mp ha with ha | ha
    · exact h.proper a ha
    · obtain ⟨d, hd, k, rfl⟩ := Draft.mem_rowsFrom ha
      exact (hds.proper d hd).row itemId _ k
  · intro other l
    by_cases hother : other = itemId
    · subst hother
      rcases hds.on_addDrafts l with hsame | hnew
      · rw [hsame]
        exact h.on other l
      · rw [hnew]
        exact hds.apart l
    · rw [approvalsOf_addDrafts_ne s hother]
      exact h.on other l

theorem decide (h : s.Tidy) (hkeys : s.approvals.KeysDistinct) (ha : a ∈ s.approvals.rows)
    (hkept : a.Kept d) (hproper : d.Proper) : (s.decide d).Tidy := by
  apply tidy_of_levels
  · intro row hrow
    rcases mem_decide hrow with rfl | ⟨hold, -⟩
    · exact hproper
    · exact h.proper row hold
  · intro other l
    have hrows := (allKept_decide hkeys ha hkept other).on l
    refine (h.on other l).kept (fun row hrow => ?_) hrows
    exact h.proper row (List.mem_filter.mp (List.mem_filter.mp hrow).1).1

theorem erase (h : s.Tidy) (key : Int) :
    Tidy { s with approvals := s.approvals.erase key } where
  proper := fun a ha => h.proper a (List.mem_filter.mp ha).1
  apart itemId level := by
    have hsub : (s.approvals.erase key).rows.Sublist s.approvals.rows := List.filter_sublist
    exact (h.apart itemId level).sublist (((hsub.filter _).filter _).map _)

/-- No row stands in the way of a decision. -/
theorem isClaimed_eq_false (h : s.Tidy) (ha : a ∈ s.approvals.rows) (next : Status)
    (comments actor : Option String) (now : Moment) :
    s.isClaimed (a.decided next comments actor now) = false := by
  have hrow : a ∈ s.rowsNamed a.itemId a.level := by simp [rowsNamed, approvalsOf, ha]
  have hapart := h.apart a.itemId a.level
  by_contra hclaimed
  rw [Bool.not_eq_false] at hclaimed
  unfold isClaimed at hclaimed
  rw [Bool.and_eq_true] at hclaimed
  obtain ⟨b, hb, hsame⟩ := List.any_eq_true.mp hclaimed.2
  obtain ⟨hb, hid⟩ := List.mem_filter.mp hb
  have hne : b ≠ a := by
    rintro rfl
    simp [Approval.decided] at hid
  change b ∈ s.rowsNamed a.itemId a.level at hb
  have happrover : b.approver = (a.decided next comments actor now).approver := by simpa using hsame
  by_cases hhas : a.hasApprover = true
  · -- The row keeps its approver, whom no other row of the level names.
    have hkept : (a.decided next comments actor now).approver = a.approver := by
      simp [Approval.decided, hhas]
    rw [hkept] at happrover
    exact hne (List.inj_on_of_nodup_map hapart.distinct hb hrow happrover)
  · -- The row names nobody, so there is no other one.
    have hnone := (h.proper a ha).approver_eq_none (by simpa using hhas)
    have halone := hapart.alone (hnone ▸ List.mem_map_of_mem hrow)
    have hone : (s.rowsNamed a.itemId a.level).length = 1 := by
      rw [← List.length_map (·.approver), halone]
      rfl
    obtain ⟨only, honly⟩ := List.length_eq_one_iff.mp hone
    rw [honly, List.mem_singleton] at hb hrow
    exact hne (hb.trans hrow.symm)

end Tidy

/-! ## Rows that are added -/

/-- An opening adds rows to levels without any. -/
theorem admits_opening (ho : w.Opens e (s.approvalsOf itemId) o) : s.Admits itemId o.drafts where
  proper d hd := by
    rcases List.mem_append.mp hd with hd | hd
    · obtain ⟨k, -, rfl⟩ := List.mem_map.mp hd
      exact ⟨⟨k, rfl⟩, nofun, .inr rfl⟩
    · obtain ⟨approver, happrover, rfl⟩ := List.mem_map.mp hd
      refine ⟨⟨o.level, rfl⟩, fun user huser => ?_, .inl rfl⟩
      have hasked : approver = some user := huser
      rw [ho.approvers, hasked] at happrover
      exact Workflow.named_of_mem_approversOn happrover
  isEmpty d hd := by
    rcases List.mem_append.mp hd with hd | hd
    · obtain ⟨k, hk, rfl⟩ := List.mem_map.mp hd
      exact ((ho.mem_passedOver k).mp hk).2.1
    · obtain ⟨approver, -, rfl⟩ := List.mem_map.mp hd
      exact ho.isEmpty
  apart l := by
    by_cases hlevel : l = o.level
    · subst hlevel
      have happrovers : (o.approvers.map (Draft.asked o.level)).map (·.approver) = o.approvers := by
        simp [Draft.asked, Function.comp_def]
      rw [ho.drafts_level, happrovers, ho.approvers]
      exact Workflow.apart_approversOn w e o.level
    · rw [ho.drafts_ne hlevel]
      split
      · exact Apart.singleton none
      · exact Apart.nil

/-- So does an approval of everything, in the name of whoever asked for it. -/
theorem admits_missing {user : String} (huser : user.isEmpty = false) :
    s.Admits itemId
      ((missingLevels (s.approvalsOf itemId)).map (Draft.unasked (some user))) where
  proper d hd := by
    obtain ⟨k, -, rfl⟩ := List.mem_map.mp hd
    refine ⟨⟨k, rfl⟩, fun u hu => ?_, .inr rfl⟩
    cases hu
    exact huser
  isEmpty d hd := by
    obtain ⟨k, hk, rfl⟩ := List.mem_map.mp hd
    exact List.isEmpty_iff.mp (List.mem_filter.mp hk).2
  apart l := by
    have hnodup : (missingLevels (s.approvalsOf itemId)).Nodup := Level.all_nodup.filter _
    rw [Draft.filter_levels (fun _ => rfl) hnodup]
    split
    · exact Apart.singleton (some user)
    · exact Apart.nil

namespace Tidy

/-- The rows of a tidy table are on known levels. -/
theorem levelRows (h : s.Tidy) (itemId : Int) :
    s.levelRows itemId = .ok (s.approvalsOf itemId) :=
  levelRows_of_named fun a ha => (h.proper a (List.mem_filter.mp ha).1).onLevel

theorem nextOpened (h : s.Tidy) (itemId : Int) (w : Workflow) {e : Evaluation}
    (hsorted : Ascending e.required) : (s.nextOpened itemId w e).Tidy := by
  rcases nextOpened_cases s itemId hsorted with hsame | ⟨o, ho, -, hopened⟩
  · rw [hsame]
    exact h
  · rw [hopened]
    exact h.addDrafts (admits_opening ho)

theorem nextAsked (h : s.Tidy) (itemId : Int) (w : Workflow) (e : Evaluation) :
    ∃ opened, s.nextAsked itemId w e = .ok opened := by
  unfold Site.nextAsked
  rw [h.levelRows]
  split
  · exact ⟨_, rfl⟩
  · simp only [bind, Except.bind]
    split <;> exact ⟨_, rfl⟩

end Tidy

/-- The drafts are added to the item one after another, and none of them is refused. -/
def Accepts (itemId : Int) (s : Site) : List Draft → Prop
  | [] => True
  | d :: rest =>
    (∃ row, (add itemId d).answer s = .ok (some row)) ∧ Accepts itemId ((add itemId d).after s) rest

theorem Welcomes.accepts (h : s.Welcomes itemId ds) : Accepts itemId s ds := by
  induction ds generalizing s with
  | nil => trivial
  | cons d rest ih =>
    have hadd := h.exec_add
    refine ⟨⟨d.row itemId s.office.clock s.approvals.nextKey, ?_⟩, ?_⟩
    · rw [Task.answer, hadd]
    · rw [Task.after, hadd]
      exact ih h.tail

/-! ## What an operation writes -/

/-- The drafts that an operation adds to an item, and the state in which it comes to add them. -/
inductive Adds (s : Site) : Operation → Site → Int → List Draft → Prop where
  /-- A request opens the next level. -/
  | opened {c : Channels} {itemId : Int} {actor : Option String} {item : Item} {w : Workflow}
      {e : Evaluation} {o : Opening} (hitem : s.office.items.get? itemId = some item)
      (heval : s.evaluationOf item = .ok (w, e))
      (ho : w.opening e (s.approvalsOf itemId) = some o) :
    Adds s (.request c itemId actor) s itemId o.drafts
  /-- A request approves every level without rows. -/
  | approved {c : Channels} {itemId : Int} {actor : Option String} {item : Item}
      (hitem : s.office.items.get? itemId = some item)
      (hpermitted : Access.demand s.office actor (.item item) .readItems = .ok ()) :
    Adds s (.request c itemId actor) s itemId
      ((missingLevels (s.approvalsOf itemId)).map (Draft.unasked actor))
  /-- A decision opens the next level. -/
  | goneOn {c : Channels} {key : Int} {requested : Value} {actor comments : Option String}
      {a : Approval} {next : Status} {item : Item} {w w' : Workflow} {e : Evaluation} {o : Opening}
      (hdecision : Approvals.Decision s key requested actor comments a next item w)
      (heval : s.evaluationOf item = .ok (w', e))
      (ho : w'.opening e ((s.decide (a.decided next comments actor s.office.clock)).approvalsOf
        a.itemId) = some o) :
    Adds s (.transition c key requested actor comments)
      (s.decide (a.decided next comments actor s.office.clock)) a.itemId o.drafts

/-- What an operation makes of the table. -/
inductive Written (s : Site) : Operation → Site → Prop where
  | nothing {op : Operation} : Written s op s
  | removed {key : Int} {actor : Option String} {a : Approval} :
    Written s (.delete key actor) { s with approvals := s.approvals.erase a.id }
  | decided {c : Channels} {key : Int} {requested : Value} {actor comments : Option String}
      {a : Approval} {next : Status} {item : Item} {w : Workflow}
      (hdecision : Approvals.Decision s key requested actor comments a next item w) :
    Written s (.transition c key requested actor comments)
      (s.decide (a.decided next comments actor s.office.clock))
  | added {op : Operation} {mid : Site} {itemId : Int} {ds : List Draft}
      (hadds : s.Adds op mid itemId ds) : Written s op (mid.addDrafts itemId ds)

/-- Everything that is added goes to levels without rows. -/
theorem Adds.admits {mid : Site} (h : s.Adds op mid itemId ds) : mid.Admits itemId ds := by
  cases h with
  | opened hitem heval ho =>
    have hsorted := Workflow.ascending_required (workflow?_of_evaluationOf heval).2
    exact admits_opening (Workflow.opens_of_opening hsorted ho)
  | approved hitem hpermitted =>
    obtain ⟨user, rfl, huser⟩ := Office.actor_of_demand hpermitted
    exact admits_missing huser
  | goneOn hdecision heval ho =>
    have hsorted := Workflow.ascending_required (workflow?_of_evaluationOf heval).2
    exact admits_opening (Workflow.opens_of_opening hsorted ho)

/-- None of it is refused. -/
theorem Adds.accepts {mid : Site} (h : s.Adds op mid itemId ds) : Accepts itemId mid ds := by
  cases h with
  | @opened _ _ _ item _ _ _ hitem heval ho =>
    have hsorted := Workflow.ascending_required (workflow?_of_evaluationOf heval).2
    obtain rfl : item.id = itemId := (Table.mem_of_get? hitem).2
    have hthere : (s.office.items.get? item.id).isSome := by simp [hitem]
    exact (welcomes_opening hthere (Workflow.opens_of_opening hsorted ho)).accepts
  | @approved _ _ _ item hitem hpermitted =>
    obtain rfl : item.id = itemId := (Table.mem_of_get? hitem).2
    have hthere : (s.office.items.get? item.id).isSome := by simp [hitem]
    exact (welcomes_missing hthere rfl).accepts
  | @goneOn _ _ _ _ _ a _ item _ _ _ _ hdecision heval ho =>
    have hsorted := Workflow.ascending_required (workflow?_of_evaluationOf heval).2
    have hid : item.id = a.itemId := hdecision.id_eq
    rw [← hid] at ho ⊢
    refine (welcomes_opening ?_ (Workflow.opens_of_opening hsorted ho)).accepts
    rw [decide_office, hid, hdecision.itemFound]
    rfl

theorem written_request (c : Channels) (itemId : Int) (actor : Option String) (s : Site) :
    ∃ s', Written s (.request c itemId actor) s' ∧
      ((Approvals.request c itemId actor).after s).approvals = s'.approvals := by
  rcases Approvals.requested_or_same c itemId actor s with
    hsame | ⟨item, w, e, created, hrequested, hsame⟩
  · exact ⟨s, .nothing, hsame⟩
  · have hitem := hrequested.itemFound
    unfold requestedSite at hsame
    by_cases hauto : e.autoApproved = true
    · rw [if_pos hauto] at hsame
      rcases allApproved_cases s itemId actor with hnone | ⟨-, hall⟩
      · exact ⟨s, .nothing, by rw [hsame, hnone]⟩
      · exact ⟨_, .added (.approved hitem hrequested.permitted), by rw [hsame, hall]⟩
    · rw [if_neg hauto] at hsame
      rcases nextOpened_eq s itemId w e with hnone | ⟨o, ho, -, hopened⟩
      · exact ⟨s, .nothing, by rw [hsame, hnone]⟩
      · exact ⟨_, .added (.opened hitem hrequested.evaluation ho), by rw [hsame, hopened]⟩

theorem written_transition (c : Channels) (key : Int) (requested : Value)
    (actor comments : Option String) (s : Site) :
    ∃ s', Written s (.transition c key requested actor comments) s' ∧
      ((Approvals.transition c key requested actor comments).after s).approvals = s'.approvals := by
  rcases Approvals.after_transition c key requested actor comments s with
    ⟨hsame, -⟩ | ⟨a, next, item, w, hdecision, hsame, -⟩
  · exact ⟨s, .nothing, hsame⟩
  · have hid : item.id = a.itemId := hdecision.id_eq
    unfold Approvals.decidedSite at hsame
    split at hsame
    · rcases goneOn_cases (s.decide (a.decided next comments actor s.office.clock)) item with
        hnone | ⟨w', e, heval, hgone⟩
      · exact ⟨_, .decided hdecision, by rw [hsame, hnone]⟩
      · rw [hgone, hid] at hsame
        rcases nextOpened_eq (s.decide (a.decided next comments actor s.office.clock)) a.itemId w' e
          with hnone | ⟨o, ho, -, hopened⟩
        · exact ⟨_, .decided hdecision, by rw [hsame, hnone]⟩
        · exact ⟨_, .added (.goneOn hdecision heval ho), by rw [hsame, hopened]⟩
    · exact ⟨_, .decided hdecision, hsame⟩

theorem written_delete (key : Int) (actor : Option String) (s : Site) :
    ∃ s', Written s (.delete key actor) s' ∧
      ((Approvals.delete key actor).after s).approvals = s'.approvals := by
  unfold Approvals.delete Task.after
  have hreads : Task.Reads (requireApproval key) := keeps_requireApproval key
  rw [hreads.exec_bind]
  cases (requireApproval key).answer s with
  | error fault => exact ⟨s, .nothing, rfl⟩
  | ok a =>
    simp only
    rw [(Office.reads_demand actor (.approval a) .deleteApproval).within.exec_bind]
    cases (within (Office.demand actor (.approval a) .deleteApproval)).answer s with
    | error fault => exact ⟨s, .nothing, rfl⟩
    | ok _ => exact ⟨_, .removed, rfl⟩

theorem written_after (s : Site) (op : Operation) :
    ∃ s', Written s op s' ∧ (op.after s).approvals = s'.approvals := by
  by_cases hquiet : op.IsQuiet
  · exact ⟨s, .nothing, Operation.approvals_after hquiet⟩
  · cases op with
    | request c itemId actor =>
      rw [Operation.after, Operation.perform, Task.after_discard]
      exact written_request c itemId actor s
    | transition c key requested actor comments =>
      rw [Operation.after, Operation.perform, Task.after_discard]
      exact written_transition c key requested actor comments s
    | delete key actor => exact written_delete key actor s
    | _ => exact absurd trivial hquiet

/-! ## Every write keeps the table tidy -/

theorem Tidy.decision {key : Int} {requested : Value} {next : Status} (h : s.Tidy)
    (hkeys : s.approvals.KeysDistinct)
    (hdecision : Approvals.Decision s key requested actor comments a next item w) :
    (s.decide (a.decided next comments actor s.office.clock)).Tidy := by
  obtain ⟨hmem, -⟩ := Table.mem_of_get? hdecision.found
  obtain ⟨user, rfl, huser⟩ := Office.actor_of_demand hdecision.permitted
  have hproper := (h.proper a hmem).decided huser next comments s.office.clock
  exact h.decide hkeys hmem hdecision.kept hproper

theorem Written.tidy {s' : Site} (h : s.Tidy) (hkeys : s.approvals.KeysDistinct)
    (hwritten : Written s op s') : s'.Tidy := by
  cases hwritten with
  | nothing => exact h
  | removed => exact h.erase _
  | decided hdecision => exact h.decision hkeys hdecision
  | added hadds =>
    have hadmits := hadds.admits
    cases hadds with
    | opened => exact h.addDrafts hadmits
    | approved => exact h.addDrafts hadmits
    | goneOn hdecision => exact (h.decision hkeys hdecision).addDrafts hadmits

theorem Tidy.after (h : s.Tidy) (hkeys : s.approvals.KeysDistinct) (op : Operation) :
    (op.after s).Tidy := by
  obtain ⟨s', hwritten, hsame⟩ := written_after s op
  exact tidy_congr hsame (hwritten.tidy h hkeys)

/-- The table stays tidy along every run. -/
theorem Tidy.run (h : s.Tidy) (hkeys : s.approvals.KeysDistinct) (ops : List Operation) :
    (s.run ops).Tidy := by
  induction ops generalizing s with
  | nil => exact h
  | cons op rest ih => exact ih (h.after hkeys op) (op.keysDistinct_after hkeys)

/-! ## Levels with rows get no more -/

/-- A level that has rows gets no new ones: each of its rows behind had its key in front. -/
def FillsEmpty (s s' : Site) : Prop :=
  ∀ itemId level, s.rowsNamed itemId level ≠ [] →
    ((s'.rowsNamed itemId level).map (·.id)).Sublist ((s.rowsNamed itemId level).map (·.id))

theorem FillsEmpty.refl (s : Site) : s.FillsEmpty s := fun _ _ _ => List.Sublist.refl _

/-- What is added to levels without rows leaves every other level as it is. -/
theorem Admits.rowsNamed_eq (h : s.Admits itemId ds) {other : Int} {level : String}
    (hrows : s.rowsNamed other level ≠ []) :
    (s.addDrafts itemId ds).rowsNamed other level = s.rowsNamed other level := by
  unfold rowsNamed
  by_cases hother : other = itemId
  · subst hother
    have hnew : (Draft.rowsFrom other s.office.clock s.approvals.nextKey ds).filter
        (fun a => a.level == level) = [] := by
      rw [List.filter_eq_nil_iff]
      intro a ha hlevel
      obtain ⟨d, hd, k, rfl⟩ := Draft.mem_rowsFrom ha
      have hsame : d.level = level := beq_iff_eq.mp hlevel
      exact hrows (hsame ▸ h.isEmpty d hd)
    rw [approvalsOf_addDrafts, List.filter_append, hnew, List.append_nil]
  · rw [approvalsOf_addDrafts_ne s hother]

theorem Admits.fillsEmpty (h : s.Admits itemId ds) : s.FillsEmpty (s.addDrafts itemId ds) := by
  intro other level hrows
  rw [h.rowsNamed_eq hrows]

/-- A decision leaves the keys of a level as they are. -/
theorem ids_decide {key : Int} {requested : Value} {next : Status}
    (hkeys : s.approvals.KeysDistinct)
    (hdecision : Approvals.Decision s key requested actor comments a next item w) (itemId : Int)
    (level : String) :
    ((s.decide (a.decided next comments actor s.office.clock)).rowsNamed itemId level).map (·.id) =
      (s.rowsNamed itemId level).map (·.id) := by
  obtain ⟨hmem, -⟩ := Table.mem_of_get? hdecision.found
  exact ((allKept_decide hkeys hmem hdecision.kept itemId).named level).ids

theorem Written.fillsEmpty {s' : Site} (hkeys : s.approvals.KeysDistinct)
    (hwritten : Written s op s') : s.FillsEmpty s' := by
  cases hwritten with
  | nothing => exact FillsEmpty.refl s
  | removed =>
    intro itemId level _
    have hsub {key : Int} : (s.approvals.erase key).rows.Sublist s.approvals.rows :=
      List.filter_sublist
    exact ((hsub.filter _).filter _).map _
  | decided hdecision =>
    intro itemId level _
    rw [ids_decide hkeys hdecision]
  | added hadds =>
    have hfills := hadds.admits.fillsEmpty
    cases hadds with
    | opened => exact hfills
    | approved => exact hfills
    | goneOn hdecision =>
      intro itemId level hrows
      -- The level has as many rows behind the decision as in front of it.
      have hids := ids_decide hkeys hdecision itemId level
      rw [← hids]
      refine hfills itemId level fun hnil => hrows ?_
      rw [hnil] at hids
      exact List.map_eq_nil_iff.mp hids.symm

/-! ## The table behind a run -/

/-- Behind every run from an empty table, nobody has two approvals on a level of an item, a row that
    names nobody is the only one there, and exactly the pending rows have no moment of decision. Another
    operation removes a row, decides one, or adds rows; these go to levels without any, and none of them
    is refused. Nor is any decision. -/
theorem tidy_of_fresh (hnone : s.approvals.rows = []) (ops : List Operation) :
    (s.run ops).Tidy ∧
      (∀ op, (∃ s', Written (s.run ops) op s' ∧ (op.after (s.run ops)).approvals = s'.approvals) ∧
        (s.run ops).FillsEmpty (op.after (s.run ops)) ∧
        ∀ mid itemId ds, Adds (s.run ops) op mid itemId ds → Accepts itemId mid ds) ∧
      ∀ a ∈ (s.run ops).approvals.rows, ∀ next comments actor,
        (recordDecision a next comments actor).answer (s.run ops) =
          .ok (a.decided next comments actor (s.run ops).office.clock) := by
  have hkeys : s.approvals.KeysDistinct := by simp [Table.KeysDistinct, hnone]
  have htidy := (tidy_of_nil hnone).run hkeys ops
  have hkeys' := keysDistinct_run ops hkeys
  refine ⟨htidy, fun op => ⟨written_after _ op, ?_, fun mid itemId ds hadds => hadds.accepts⟩, ?_⟩
  · obtain ⟨s', hwritten, hsame⟩ := written_after (s.run ops) op
    intro itemId level hrows
    have hfills := hwritten.fillsEmpty hkeys' itemId level hrows
    have hlevel : (op.after (s.run ops)).rowsNamed itemId level = s'.rowsNamed itemId level := by
      simp only [rowsNamed, approvalsOf, hsame]
    rw [hlevel]
    exact hfills
  · intro a ha next comments actor
    rw [Task.answer, exec_recordDecision, htidy.isClaimed_eq_false ha]
    rfl

/-- On the small site a request asks for an approval, which can be decided. -/
theorem tidy_of_fresh_small :
    let s := small.run [.request .noted 1 (some "A")]
    Apart ((s.rowsNamed 1 "LEVEL_1").map (·.approver)) ∧
      s.FillsEmpty ((Operation.request .noted 1 (some "A")).after s) ∧
      ∀ a ∈ s.approvals.rows, (recordDecision a .approved none (some "A")).answer s =
        .ok (a.decided .approved none (some "A") s.office.clock) := by
  intro s
  have hnone : small.approvals.rows = [] := rfl
  obtain ⟨htidy, hwrites, hdecisions⟩ := tidy_of_fresh hnone [.request .noted 1 (some "A")]
  exact ⟨htidy.apart 1 "LEVEL_1", (hwrites _).2.1, fun a ha => hdecisions a ha _ _ _⟩

end Site
end Signoff
