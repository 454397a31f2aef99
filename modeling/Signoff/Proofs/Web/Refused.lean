import Mathlib.Data.String.Basic
import Signoff.Proofs.Approval.Refused
import Signoff.Proofs.Web.Enacting
import Signoff.Proofs.Workflow.Written

/-! # Requests that are refused

    A request that is answered by a status from 400 to 499 has stored nothing, and
    told the automations nothing. One request is an exception: asking for the
    approval of an item has two parts, and the second one shows how the item stands.
    When an automation has put the item on another board in between, the workflow
    of this board may be one that cannot be read:

    * `Handler.Spares`: a handler that refuses a request has stored nothing.
    * `Web.spares_or_overtaken`: so it is with asking for an approval, or else the item was
      overtaken by an automation.
    * `Web.Sparing`: so it is with all other handlers.
    * `Web.stored_of_refused`: every request is answered like this. If all stored workflows
      were written, none is overtaken (`not_overtaken_of_written`).
    * `Web.overtaken_request`: one that is overtaken.
-/

open Signoff.Task (Keeps Reads Same SparesAt UnrefusedAt)

namespace Signoff

open Site

/-! ## Handlers -/

namespace Handler

variable {α : Type} {s : Site}

/-- A request is refused, or its answer has a status that tells so. -/
def Rejects : Result (Except Refusal Response) → Prop
  | .ok (.ok response) => 400 ≤ response.status ∧ response.status < 500
  | .ok (.error _) => True
  | .error fault => fault.refusal?.isSome

/-- If the handler refuses a request, what is stored is as in front. -/
abbrev Spares (s : Site) (h : Handler Response) : Prop := SparesAt Rejects stored s h.run

/-- The handler answers with a status of success. -/
def Accepts (h : Handler Response) : Prop :=
  ∀ s, ∃ response, h.run.answer s = .ok (.ok response) ∧ response.status < 400

theorem accepts_pure {response : Response} (h : response.status < 400) :
    Accepts (pure response) := fun _ => ⟨response, rfl, h⟩

theorem accepts_success (body : Value) : Accepts (success body) := accepts_pure (show (200 : Int) < 400 by decide)

theorem spares_refuse (code : ErrorCode) (message : String) (details : Fields) :
    Spares s (refuse code message details) :=
  .of_keeps (keeps_refuse code message details)

theorem spares_ite {c : Prop} [Decidable c] {h h' : Handler Response} (hh : Spares s h)
    (hh' : Spares s h') : Spares s (if c then h else h') := by
  split
  · exact hh
  · exact hh'

/-- The handler goes on behind a part that only reads. -/
theorem spares_bind {h : Handler α} {f : α → Handler Response} (hreads : Reads h.run)
    (hf : ∀ x, h.run.answer s = .ok (.ok x) → Spares s (f x)) : Spares s (h >>= f) := by
  unfold Spares
  rw [ExceptT.run_bind]
  refine .reads_bind hreads fun x hx => ?_
  cases x with
  | ok x => exact hf x hx
  | error refusal => exact .of_keeps (.pure _)

/-- What follows an operation that was not refused is accepted. -/
theorem spares_site {task : SiteTask α} {f : α → Handler Response}
    (htask : SparesAt Result.Refused stored s task) (hf : ∀ x, Accepts (f x)) :
    Spares s (site task >>= f) := by
  intro hrejects
  rw [run_site_bind] at hrejects ⊢
  rw [Task.answer_bind] at hrejects
  cases hx : task.answer s with
  | ok x =>
    obtain ⟨response, hresponse, hstatus⟩ := hf x (task.after s)
    rw [hx] at hrejects
    change Rejects ((f x).run.answer (task.after s)) at hrejects
    rw [hresponse] at hrejects
    have hleast : 400 ≤ response.status := hrejects.1
    omega
  | error fault =>
    rw [hx] at hrejects
    rw [Task.after_bind_of_error hx]
    exact htask ⟨fault, hx, hrejects⟩

theorem reads_office {task : OfficeTask α} (h : Reads task) : Reads (office task).run :=
  Keeps.map h.within

theorem spares_office {task : OfficeTask α} {f : α → Handler Response}
    (htask : SparesAt Result.Refused id s.office task) (hf : ∀ x, Accepts (f x)) :
    Spares s (office task >>= f) :=
  spares_site (spares_within htask) hf

/-- An operation that says whether it did something has stored nothing if it says that it did not. -/
theorem spares_whether {task : SiteTask Bool} {h h' : Handler Response}
    (htask : SparesAt (fun r => r ≠ .ok true) stored s task) (hdone : Accepts h)
    (hnot : Keeps (Same stored) h'.run) :
    Spares s (site task >>= fun isDone => if isDone then h else h') := by
  intro hrejects
  by_cases hx : task.answer s = .ok true
  · obtain ⟨response, hresponse, hstatus⟩ := hdone (task.after s)
    rw [run_site_bind, Task.answer_bind, hx] at hrejects
    change Rejects (h.run.answer (task.after s)) at hrejects
    rw [hresponse] at hrejects
    have hleast : 400 ≤ response.status := hrejects.1
    omega
  · rw [run_site_bind] at hrejects ⊢
    refine SparesAt.same_bind (htask hx) (fun isDone hok => ?_) hrejects
    cases isDone with
    | true => exact absurd hok hx
    | false => exact .of_keeps hnot

end Handler

/-! ## Endpoints -/

namespace Web

open Handler

variable {r : Request} {s : Site}

/-- A handler that refuses a request has stored nothing, if no two columns share a key. -/
abbrev Sparing (handler : Request → Handler Response) : Prop :=
  ∀ r s, s.office.columns.KeysDistinct → Handler.Spares s (handler r)

theorem Looks.sparing {handler : Request → Handler Response} (h : Looks handler) : Sparing handler :=
  fun r _ _ => .of_keeps (h r)

section Items

theorem accepts_answer {status : Int} (h : status < 400) (item : Item) :
    Accepts (Items.answer status item) := fun _ => ⟨_, rfl, h⟩

/-- Cells are named by the integers that their names are read as. -/
theorem numbered_of_cells {fields : Fields} {cells : ItemChange.Cells}
    (h : (Items.cells fields).run.answer s = .ok (.ok cells)) : ItemChange.Numbered cells := by
  unfold Items.cells at h
  split at h
  · cases h
    exact fun _ hcell => absurd hcell List.not_mem_nil
  · split at h
    · next numbered _ =>
      cases h
      intro cell hcell
      obtain ⟨entry, -, rfl⟩ := List.mem_map.mp hcell
      exact ⟨entry.1, rfl⟩
    · cases h
  · cases h

theorem sparing_createItem : Sparing Items.create := by
  intro r s hkeys
  refine spares_bind (reads_payload r) fun fields _ => spares_bind (reads_needed fields _) fun board _ => ?_
  refine spares_bind (reads_cells fields) fun cells hcells => ?_
  refine spares_office ?_ (accepts_answer (by decide))
  exact ItemChange.spares_create hkeys (numbered_of_cells hcells) board _ _

theorem sparing_editItem (key : Int) : Sparing (Items.edit key) := by
  intro r s hkeys
  refine spares_bind (reads_payload r) fun fields _ => spares_bind (reads_cells fields) fun cells hcells => ?_
  refine spares_office ?_ (accepts_answer (by decide))
  exact ItemChange.spares_edit hkeys (numbered_of_cells hcells) _

theorem sparing_changeStatus (key : Int) : Sparing (Items.changeStatus key) := by
  refine fun r s _ => spares_bind (reads_payload r) fun fields _ => ?_
  split
  · refine spares_ite (spares_refuse _ _ _) ?_
    exact spares_office (ItemChange.spares_changeStatus _) (accepts_answer (by decide))
  · exact spares_refuse _ _ _

theorem sparing_moveItem (key : Int) : Sparing (Items.move key) := by
  refine fun r s _ => spares_bind (reads_payload r) fun fields _ => ?_
  refine spares_bind (reads_needed fields _) fun board _ => ?_
  exact spares_office (ItemChange.spares_move board) (accepts_answer (by decide))

theorem sparing_removeItem (key : Int) : Sparing (Items.remove key) := by
  intro r s _
  unfold Items.remove
  rw [discard_bind]
  exact spares_office ItemChange.spares_remove fun _ => accepts_success _

end Items

/-! ### Approvals and workflows -/

section Approvals

theorem sparing_archive (itemId : Int) : Sparing (Approvals.archive itemId) :=
  fun _ _ _ => spares_whether (Signoff.Approvals.spares_archive itemId) (accepts_success _)
    (keeps_refuse _ _ _)

theorem sparing_restore (itemId : Int) : Sparing (Approvals.restore itemId) :=
  fun _ _ _ => spares_whether (Signoff.Approvals.spares_restore itemId) (accepts_success _)
    (keeps_refuse _ _ _)

theorem sparing_decide (key : Int) : Sparing (Approvals.decide key) := by
  refine fun r s _ => spares_bind (reads_payload r) fun fields _ => ?_
  refine spares_bind (reads_requestedStatus fields) fun status _ => ?_
  refine spares_bind (reads_comments fields) fun comments _ => ?_
  exact spares_site (Signoff.Approvals.spares_transition {} key status) fun _ => accepts_success _

theorem sparing_removeApproval (key : Int) : Sparing (Approvals.remove key) :=
  fun _ _ _ => spares_site (Signoff.Approvals.spares_delete key) fun _ => accepts_success _

theorem sparing_saveWorkflow (boardId : Int) : Sparing (Approvals.saveWorkflow boardId) := by
  refine fun r s _ => spares_bind (reads_payload r) fun fields _ => ?_
  refine spares_bind (reads_office (Office.reads_requireBoard _)) fun board _ => ?_
  exact spares_site (Signoff.Approvals.spares_saveWorkflow board _) fun _ => accepts_success _

/-- The approval of an item is asked for, and behind it the item lies on a board whose stored workflow
    cannot be read. -/
def Overtaken (s : Site) (itemId : Int) (user : String) : Prop :=
  let request := Signoff.Approvals.request {} itemId (some user)
  ∃ created item w fault, request.answer s = .ok created ∧
    (request.after s).office.items.get? itemId = some item ∧
    w ∈ s.office.workflows.rows ∧ w.boardId = item.boardId ∧
    Workflow.ofPayload (payloadOf w) = .error fault

/-- Asking for the approval of an item is refused before anything is stored, unless the item is overtaken. -/
theorem spares_or_overtaken (itemId : Int) (r : Request) (s : Site) :
    Handler.Spares s (Approvals.request itemId r) ∨ Overtaken s itemId r.user := by
  unfold Approvals.request Handler.Spares
  rw [run_site_bind]
  cases hanswer : (Signoff.Approvals.request {} itemId (some r.user)).answer s with
  | error fault =>
    obtain ⟨happrovals, hoffice⟩ := Signoff.Approvals.untouched_of_request hanswer
    refine .inl (.same_bind (Prod.ext hoffice happrovals) fun created hok => ?_)
    cases hanswer.symm.trans hok
  | ok created =>
    refine or_iff_not_imp_right.mpr fun hnot hrejects => absurd ?_ hnot
    obtain ⟨hkey, item, hitem⟩ := Signoff.Approvals.found_of_request hanswer
    rw [Task.answer_bind, hanswer] at hrejects
    change Rejects ((site _ >>= _ : Handler Response).run.answer _) at hrejects
    rw [run_site_bind, Task.answer_bind] at hrejects
    -- The item is there, so only the workflow of its board can be in the way.
    cases hoverview : (Signoff.Approvals.overview itemId none).answer
        ((Signoff.Approvals.request {} itemId (some r.user)).after s) with
    | ok overview =>
      rw [hoverview] at hrejects
      have hleast : 400 ≤ if created.isEmpty then (200 : Int) else 201 := hrejects.1
      split at hleast <;> omega
    | error fault =>
      rw [hoverview] at hrejects
      obtain ⟨w, hw, hboard, hfault⟩ := stored_of_workflow? (unreadable_of_overview hkey hitem hoverview hrejects)
      have hworkflows := (lasts_request {} itemId (some r.user) s).workflows
      exact ⟨created, item, w, fault, hanswer, hitem, hworkflows ▸ hw, hboard, hfault⟩

end Approvals

/-! ### Automations and notifications -/

section Automations

/-- An automation is written at the end, or not at all. -/
theorem sparing_createAutomation : Sparing Automations.create := by
  refine fun r s _ => spares_bind (reads_payload r) fun fields _ => spares_office ?_ ?_
  · refine .reads_bind (.ofResult _) fun draft _ => .reads_bind (Office.reads_requireBoard _) fun board _ => ?_
    refine .reads_bind (Office.reads_demand _ _ _) fun _ _ => ?_
    exact .of_unrefused (.of_returns ⟨_, rfl⟩)
  · exact fun a => accepts_pure (show (201 : Int) < 400 by decide)

theorem sparing_update (key : Int) : Sparing (Automations.update key) := by
  refine fun r s _ => spares_bind (reads_payload r) fun fields _ => spares_office ?_ fun _ => accepts_success _
  refine .reads_bind (Signoff.Automations.reads_permitted key _ _) fun a _ => ?_
  exact .reads_bind (.ofResult _) fun change _ => .of_unrefused (.of_returns ⟨_, rfl⟩)

theorem sparing_toggle (key : Int) : Sparing (Automations.toggle key) := by
  refine fun r s _ => spares_office ?_ fun _ => accepts_success _
  refine .reads_bind (Signoff.Automations.reads_permitted key _ _) fun a _ => ?_
  exact .of_unrefused (.of_returns ⟨_, rfl⟩)

theorem sparing_removeAutomation (key : Int) : Sparing (Automations.remove key) := by
  refine fun r s _ => spares_office ?_ fun _ => accepts_success _
  refine .reads_bind (Signoff.Automations.reads_permitted key _ _) fun a _ => ?_
  exact .of_unrefused (.of_returns ⟨_, rfl⟩)

theorem sparing_markRead (key : Int) : Sparing (Notifications.markRead key) := by
  refine fun r s _ => spares_office ?_ fun _ => accepts_success _
  refine .reads_bind (.ofResult _) fun _ _ => .reads_bind .get fun o _ => ?_
  split
  · exact .of_keeps (.throw _)
  · exact .ite (.of_keeps (.pure _)) (.of_unrefused (.of_returns ⟨_, rfl⟩))

theorem sparing_markAllRead : Sparing Notifications.markAllRead :=
  fun _ _ _ => spares_office (.of_unrefused (.of_returns ⟨_, rfl⟩)) fun _ => accepts_success _

end Automations

/-! ## Paths -/

section Slashes

open String

/-- Behind some parts of a path, and in the middle of one, the rest of it is split at its slashes. -/
theorem splitOnAux_slash (done part rest : List Char) (parts : List String) :
    (ofList (done ++ part ++ rest)).splitOnAux "/" ⟨utf8Len done⟩ ⟨utf8Len done + utf8Len part⟩ 0 parts =
      parts.reverse ++ (List.splitOnPPrepend (· == '/') rest part.reverse).map ofList := by
  have hslash : Pos.Raw.get "/" 0 = '/' := rfl
  have hbehind : Pos.Raw.next "/" 0 = ⟨1⟩ := rfl
  have hend : Pos.Raw.atEnd "/" ⟨1⟩ = true := rfl
  induction rest generalizing done part parts with
  | nil =>
    have hat : Pos.Raw.atEnd (ofList (done ++ part ++ [])) ⟨utf8Len done + utf8Len part⟩ = true := by
      simpa using atEnd_of_valid (done ++ part) []
    rw [splitOnAux, if_pos hat, extract_of_valid done part []]
    simp [List.splitOnPPrepend]
  | cons c rest ih =>
    have hat : ¬ Pos.Raw.atEnd (ofList (done ++ part ++ c :: rest)) ⟨utf8Len done + utf8Len part⟩ = true := by
      simpa using atEnd_of_valid (done ++ part) (c :: rest)
    have hget := get_of_valid (done ++ part) (c :: rest)
    have hnext := next_of_valid (done ++ part) c rest
    rw [utf8Len_append] at hget hnext
    rw [splitOnAux, if_neg hat, hget, hslash, hnext, hbehind]
    simp only [List.headD_cons, hend, ↓reduceIte, List.splitOnPPrepend_cons_eq_if]
    split
    · next hc =>
      -- A slash ends the part, and has the length one.
      have hlen : c.utf8Size = 1 := by
        rw [beq_iff_eq.mp hc]
        rfl
      have hpos : Pos.Raw.unoffsetBy ⟨utf8Len done + utf8Len part + c.utf8Size⟩ ⟨1⟩ =
          ⟨utf8Len done + utf8Len part⟩ := by
        rw [hlen]
        rfl
      have hrest := ih (done ++ part ++ [c]) [] (ofList part :: parts)
      rw [hpos, extract_of_valid done part (c :: rest)]
      simpa [Nat.add_assoc] using hrest
    · have hpos : Pos.Raw.unoffsetBy ⟨utf8Len done + utf8Len part⟩ 0 = ⟨utf8Len done + utf8Len part⟩ := rfl
      have hrest := ih done (part ++ [c]) parts
      rw [hpos, hnext]
      simpa [Nat.add_assoc] using hrest

/-- A path is split at its slashes. -/
theorem splitOn_slash (path : String) :
    path.splitOn "/" = (path.toList.splitOnP (· == '/')).map ofList := by
  have h := splitOnAux_slash [] [] path.toList []
  simpa [splitOn] using h

end Slashes

/-! ## Serving -/

theorem sparing_items (parts : List String) : ∀ e ∈ itemEndpoints parts, Sparing e.2 := by
  unfold itemEndpoints
  split
  · exact forall_mem_one sparing_createItem
  · refine forall_mem_at fun n => forall_mem_more (looks_findItem n).sparing ?_
    exact forall_mem_more (sparing_editItem n) (forall_mem_one (sparing_removeItem n))
  · exact forall_mem_at fun n => forall_mem_one (sparing_changeStatus n)
  · exact forall_mem_at fun n => forall_mem_one (sparing_moveItem n)
  · exact List.forall_mem_nil _

/-- The path asks for the approval of an item. -/
def AsksApproval (parts : List String) (itemId : Int) : Prop :=
  ∃ part, parts = ["", "api", "v1", "approvals", "item", part, "request"] ∧ number? part = some itemId

/-- A handler spares the state, or asks for the approval of the item of the path. -/
def SparingAt (parts : List String) (handler : Request → Handler Response) : Prop :=
  Sparing handler ∨ ∃ itemId, AsksApproval parts itemId ∧ handler = Approvals.request itemId

theorem sparing_approvals (parts : List String) :
    ∀ e ∈ approvalEndpoints parts, SparingAt ("" :: "api" :: "v1" :: "approvals" :: parts) e.2 := by
  unfold approvalEndpoints
  split
  · exact forall_mem_one (.inl looks_items.sparing)
  · exact forall_mem_one (.inl looks_pending.sparing)
  · exact forall_mem_at fun n =>
      forall_mem_more (.inl (sparing_decide n)) (forall_mem_one (.inl (sparing_removeApproval n)))
  · exact forall_mem_at fun n => forall_mem_one (.inl (looks_overview n).sparing)
  · next part =>
    unfold at?
    split
    · next n hn => exact forall_mem_one (.inr ⟨n, ⟨part, rfl, hn⟩, rfl⟩)
    · exact List.forall_mem_nil _
  · exact forall_mem_at fun n => forall_mem_one (.inl (looks_history n).sparing)
  · exact forall_mem_at fun n => forall_mem_one (.inl (sparing_archive n))
  · exact forall_mem_at fun n => forall_mem_one (.inl (sparing_restore n))
  · exact forall_mem_at fun n =>
      forall_mem_more (.inl (looks_workflow n).sparing) (forall_mem_one (.inl (sparing_saveWorkflow n)))
  · exact forall_mem_at fun n => forall_mem_one (.inl (looks_evaluate n).sparing)
  · exact List.forall_mem_nil _

theorem sparing_automations (parts : List String) : ∀ e ∈ automationEndpoints parts, Sparing e.2 := by
  unfold automationEndpoints
  split
  · exact forall_mem_more sparing_createAutomation (forall_mem_one looks_list.sparing)
  · refine forall_mem_at fun n => forall_mem_more (looks_find n).sparing ?_
    exact forall_mem_more (sparing_update n) (forall_mem_one (sparing_removeAutomation n))
  · exact forall_mem_at fun n => forall_mem_one (sparing_toggle n)
  · exact forall_mem_at fun n => forall_mem_one (looks_preview n).sparing
  · exact forall_mem_at fun n => forall_mem_one (looks_log n).sparing
  · exact List.forall_mem_nil _

theorem sparing_notifications (parts : List String) :
    ∀ e ∈ notificationEndpoints parts, Sparing e.2 := by
  unfold notificationEndpoints
  split
  · exact forall_mem_one looks_notifications.sparing
  · exact forall_mem_at fun n => forall_mem_one (sparing_markRead n)
  · exact forall_mem_one sparing_markAllRead
  · exact List.forall_mem_nil _

theorem sparingAt_endpointsAt (parts : List String) :
    ∀ e ∈ endpointsAt parts, SparingAt parts e.2 := by
  unfold endpointsAt
  split
  · split
    · exact fun e he => .inl (sparing_items _ e he)
    · exact sparing_approvals _
    · exact fun e he => .inl (sparing_automations _ e he)
    · exact fun e he => .inl (sparing_notifications _ e he)
    · exact fun e he => .inl (looks_health _ e he).sparing
    · exact List.forall_mem_nil _
  · exact List.forall_mem_nil _

/-- An answer with a status that tells so comes from a handler that rejects. -/
theorem rejects_of_respond {handler : Handler Response} {requestId : String} {response : Response}
    (h : (respond handler requestId).answer s = .ok response)
    (hstatus : 400 ≤ response.status ∧ response.status < 500) : Rejects (handler.run.answer s) := by
  unfold respond at h
  rw [Task.answer_bind] at h
  change (match handler.run.answer s with
    | .ok (.ok response) => (pure response : SiteTask Response)
    | .ok (.error refusal) => pure (refusal.response requestId)
    | .error fault => pure ((fault.refusal?.getD Refusal.unexpected).response requestId)).answer _ = _ at h
  cases hanswer : handler.run.answer s with
  | ok outcome =>
    rw [hanswer] at h
    cases outcome with
    | ok answered =>
      obtain rfl : answered = response := Except.ok.inj h
      exact hstatus
    | error refusal => trivial
  | error fault =>
    rw [hanswer] at h
    show fault.refusal?.isSome
    cases hrefusal : fault.refusal? with
    | some refusal => rfl
    | none =>
      -- What was not expected has another status.
      simp only [hrefusal] at h
      obtain rfl := Except.ok.inj h
      have hunexpected : ErrorCode.statusOf Refusal.unexpected.code = 500 := by decide
      have hless : ErrorCode.statusOf Refusal.unexpected.code < 500 := hstatus.2
      omega

theorem stored_of_answer (hkeys : s.office.columns.KeysDistinct) {response : Response}
    (h : (answer r).answer s = .ok response)
    (hstatus : 400 ≤ response.status ∧ response.status < 500) :
    ((answer r).after s).stored = s.stored ∨
      ∃ itemId, AsksApproval (r.path.splitOn "/") itemId ∧ Overtaken s itemId r.user := by
  unfold answer at h ⊢
  simp only at h ⊢
  split at h
  · next hempty =>
    rw [if_pos hempty]
    exact .inl rfl
  · next hempty =>
    rw [if_neg hempty]
    cases hhandler : handler? (endpointsAt (r.path.splitOn "/")) r.method with
    | none =>
      refine .inl ?_
      simp only
      split <;> rfl
    | some handler =>
      simp only [hhandler] at h ⊢
      rw [after_respond]
      have hrejects := rejects_of_respond h hstatus
      rcases of_handler? (sparingAt_endpointsAt _) hhandler with hsparing | ⟨itemId, hasks, rfl⟩
      · exact .inl (hsparing r s hkeys hrejects)
      · exact (spares_or_overtaken itemId r s).imp (fun hspares => hspares hrejects)
          fun hovertaken => ⟨itemId, hasks, hovertaken⟩

/-- No item is overtaken where all stored workflows were written. -/
theorem not_overtaken_of_written {itemId : Int} {user : String}
    (h : ∀ w ∈ s.office.workflows.rows, w.Written) : ¬ Overtaken s itemId user := by
  rintro ⟨_, _, w, fault, -, -, hw, -, hfault⟩
  obtain ⟨_, hread⟩ := (h w hw).ofPayload
  rw [hfault] at hread
  cases hread

/-- Whatever request is answered by a status from 400 to 499, nothing was stored for it, and nothing was
    told to the automations. The only exception is asking for the approval of an item that is overtaken,
    and there is none if all stored workflows were written. -/
theorem stored_of_refused (hkeys : s.office.columns.KeysDistinct) {response : Response}
    (h : (serve r).answer s = .ok response)
    (hstatus : 400 ≤ response.status ∧ response.status < 500) :
    (((serve r).after s).stored = s.stored ∨
        ∃ itemId, AsksApproval (r.path.splitOn "/") itemId ∧ Overtaken s itemId r.user) ∧
      ((∀ w ∈ s.office.workflows.rows, w.Written) → ((serve r).after s).stored = s.stored) := by
  unfold serve at h
  rw [Task.answer_bind] at h
  obtain ⟨answered, hanswered, h⟩ := Result.bind_eq_ok h
  have hsame : answered.status = response.status := by
    cases h
    split <;> rfl
  have hafter : (serve r).after s = (answer r).after s :=
    Keeps.same_after_bind (g := id) fun _ => .pure _
  rw [hafter]
  have hstored := stored_of_answer hkeys hanswered (hsame ▸ hstatus)
  refine ⟨hstored, fun hwritten => hstored.resolve_right ?_⟩
  rintro ⟨itemId, -, hovertaken⟩
  exact not_overtaken_of_written hwritten hovertaken

/-! ## Requests by A -/

/-- What a handler of the path answers is the answer. -/
theorem serve_eq_respond {parts : List String} {handler : Request → Handler Response}
    (hpath : r.path.splitOn "/" = parts) (hhandler : handler? (endpointsAt parts) r.method = some handler)
    (hmethod : (r.method == "HEAD") = false) : serve r = respond (handler r) r.id := by
  have hsome : (endpointsAt parts).isEmpty = false := by
    cases hparts : endpointsAt parts with
    | nil =>
      rw [hparts] at hhandler
      cases hhandler
    | cons _ _ => rfl
  unfold serve answer
  simp only [hpath, hsome, hhandler, hmethod, Bool.false_eq_true, ↓reduceIte, bind_pure]

/-- A asks for cells in a column that the board does not have. -/
def misplacing : Request where
  method := "PUT"
  path := "/api/v1/items/1"
  query := []
  headers := [("X-User", "A")]
  content := .value (.object [("cells", .object [("7", .int 3)])])

theorem stored_of_refused_misplacing : ((serve misplacing).after small).stored = small.stored := by
  have hkeys : small.office.columns.KeysDistinct := List.nodup_nil
  have hpath : misplacing.path.splitOn "/" = ["", "api", "v1", "items", "1"] := by
    rw [splitOn_slash]
    rfl
  obtain ⟨response, hanswer, hstatus⟩ : ∃ response, (serve misplacing).answer small = .ok response ∧
      response.status = 404 := by
    rw [serve_eq_respond hpath rfl rfl]
    exact ⟨_, by with_unfolding_all rfl, by with_unfolding_all rfl⟩
  exact (stored_of_refused hkeys hanswer ⟨by omega, by omega⟩).2 fun w hw => absurd hw List.not_mem_nil

/-- An automation that moves items to the second board once they are to be approved. -/
def diverting : Automation where
  id := 1
  boardId := 1
  name := "Hand over"
  description := ""
  trigger := .object [("type", .text "approval_submitted")]
  conditions := .null
  actions := .list [.object [("type", .text "move_to_board"),
    ("config", .object [("targetBoardId", .int 2)])]]
  isActive := true
  createdBy := "A"
  createdAt := ⟨0⟩
  updatedAt := ⟨0⟩

/-- The small site with this automation, and a second board. The workflow that is stored for the second board
    has no levels, and so it cannot be read. -/
def diverted : Site where
  office :=
    { small.office with
      boards := ⟨[⟨1, 1, "Purchases", ⟨0⟩⟩, ⟨2, 1, "Payments", ⟨0⟩⟩]⟩
      workflows := ⟨[⟨1, 2, "Approval", none, .list [], .list [], none, ⟨0⟩⟩]⟩
      automations := ⟨[diverting]⟩ }
  known := small.known

/-- A asks for the approval of the item. -/
def asking : Request where
  method := "POST"
  path := "/api/v1/approvals/item/1/request"
  query := []
  headers := [("X-User", "A")]
  content := .nothing

/-- A's request is refused. All the same the approval is there, the automations have heard of it, and the item
    has been moved. -/
theorem overtaken_request : ∃ response, (serve asking).answer diverted = .ok response ∧
    response.status = 422 ∧ ((serve asking).after diverted).stored ≠ diverted.stored ∧
    (diverted.approvals.rows.length, diverted.office.heard.length,
      diverted.office.items.rows.map (·.boardId)) = (0, 0, [1]) ∧
    (((serve asking).after diverted).approvals.rows.length,
      ((serve asking).after diverted).office.heard.length,
      ((serve asking).after diverted).office.items.rows.map (·.boardId)) = (1, 1, [2]) := by
  have hpath : asking.path.splitOn "/" = ["", "api", "v1", "approvals", "item", "1", "request"] := by
    rw [splitOn_slash]
    rfl
  have hserve : serve asking = respond (Approvals.request 1 asking) asking.id :=
    serve_eq_respond hpath (by with_unfolding_all rfl) rfl
  have hbehind : (((serve asking).after diverted).approvals.rows.length,
      ((serve asking).after diverted).office.heard.length,
      ((serve asking).after diverted).office.items.rows.map (·.boardId)) = (1, 1, [2]) := by
    rw [hserve]
    with_unfolding_all rfl
  refine ⟨_, by rw [hserve]; with_unfolding_all rfl, by with_unfolding_all rfl, fun hsame => ?_, rfl, hbehind⟩
  have hrows : ((serve asking).after diverted).approvals = diverted.approvals := congrArg Prod.snd hsame
  rw [hrows] at hbehind
  cases hbehind

end Web

end Signoff
