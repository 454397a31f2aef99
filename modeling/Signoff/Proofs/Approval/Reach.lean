import Signoff.Proofs.Approval.Transitions
import Signoff.Proofs.Office.Reach

/-! # Approvals within reach

    A request or a decision writes approvals of one item, and whatever is told
    about it concerns this item. On the whole site, then:

    * `Reach.BoundsSite`: what is out of reach is left alone, approvals included.
    * `carries_bounds`: the channels are bounded for an item within reach.
    * `bounds_request`, `bounds_transition`, `bounds_delete`, `bounds_archived`,
      `bounds_restored`: so are requests, decisions, removals and the archive.
-/

open Signoff.Task (Keeps Reads)

namespace Signoff.Reach

open Site

variable {c : Reach} {s s' s'' : Site}

/-! ## The whole site -/

/-- What is out of reach is as it was, approvals included. -/
structure LeavesSite (c : Reach) (s s' : Site) : Prop where
  office : c.Leaves s.office s'.office
  keys : s'.approvals.KeysDistinct
  approvals (a : Approval) (h : ¬ c.Covers s.office a.itemId) :
    a ∈ s'.approvals.rows ↔ a ∈ s.approvals.rows

/-- From a site that fits, what is out of reach is left as it is. -/
def BoundsSite (c : Reach) (s s' : Site) : Prop :=
  s.approvals.KeysDistinct → c.Fits s.office → c.LeavesSite s s'

theorem boundsSite_of_office (h : c.Bounds s.office s'.office) (happrovals : s'.approvals = s.approvals) :
    c.BoundsSite s s' := by
  intro hkeys hfits
  constructor
  · exact h hfits
  · rw [happrovals]
    exact hkeys
  · intro a _
    rw [happrovals]

instance : Std.Refl c.BoundsSite := ⟨fun _ => boundsSite_of_office (Std.Refl.refl _) rfl⟩

instance : IsTrans Site c.BoundsSite where
  trans := by
    intro s s' s'' h h' hkeys hfits
    have hleaves := h hkeys hfits
    have hleaves' := h' hleaves.keys (hleaves.office.fits hfits)
    refine ⟨hleaves.office.trans hleaves'.office, hleaves'.keys, fun a hnot => ?_⟩
    have hnot' : ¬ c.Covers s'.office a.itemId := fun hcovers => hnot (hleaves.office.covers hcovers)
    exact (hleaves'.approvals a hnot').trans (hleaves.approvals a hnot)

instance : Office.Notified c.Bounds where
  written _ _ := bounds_of_same rfl rfl rfl rfl rfl

instance : Routine c.BoundsSite where
  lookedUp s boardId := by
    apply boundsSite_of_office
    · rw [lookedUp_office]
      exact Std.Refl.refl _
    · exact lookedUp_approvals s boardId
  noticed _ _ := boundsSite_of_office (bounds_of_same rfl rfl rfl rfl rfl) rfl
  scheduled _ _ := boundsSite_of_office (bounds_of_same rfl rfl rfl rfl rfl) rfl

theorem bounds_within {α : Type} {task : OfficeTask α} (h : Keeps c.Bounds task) :
    Keeps c.BoundsSite (within task) :=
  fun s => boundsSite_of_office (h s.office) rfl

/-! ## Rows of an item -/

/-- Approvals of an item within reach may be added. -/
theorem growingAt {itemId : Int} (hitem : c.items itemId) : GrowingAt itemId c.BoundsSite where
  added s row hkey hrow := by
    intro hkeys hfits
    refine ⟨hfits.leaves_refl, hkeys.add hkey, fun a hnot => ?_⟩
    rw [Table.rows_add, List.mem_append, List.mem_singleton]
    constructor
    · rintro (ha | rfl)
      · exact ha
      · rw [hrow] at hnot
        exact absurd (.inl hitem) hnot
    · exact .inl

/-- An approval of an item within reach may be replaced. -/
theorem bounds_decide {a row : Approval} (hitem : c.items a.itemId) (ha : a ∈ s.approvals.rows)
    (hid : row.id = a.id) (hrow : row.itemId = a.itemId) : c.BoundsSite s (s.decide row) := by
  intro hkeys hfits
  refine ⟨hfits.leaves_refl, hkeys.modify row.id fun _ _ => rfl, fun b hnot => ?_⟩
  have hbefore : ¬ ¬ c.Covers s.office a.itemId := fun h => h (.inl hitem)
  have hbehind : ¬ ¬ c.Covers s.office row.itemId := by
    rw [hrow]
    exact hbefore
  unfold Site.decide
  rw [hid]
  exact hkeys.mem_modify (P := fun b => ¬ c.Covers s.office b.itemId) (f := fun _ => row) ha hbefore
    hbehind hnot

/-- An approval of an item within reach may be removed. -/
theorem bounds_erase {a : Approval} (hitem : c.items a.itemId) (ha : a ∈ s.approvals.rows) :
    c.BoundsSite s { s with approvals := s.approvals.erase a.id } := by
  intro hkeys hfits
  refine ⟨hfits.leaves_refl, hkeys.erase a.id, fun b hnot => ?_⟩
  unfold Table.erase
  rw [List.mem_filter]
  refine ⟨fun h => h.1, fun hb => ⟨hb, ?_⟩⟩
  rw [bne_iff_ne]
  intro hsame
  rw [hkeys.eq_of_key_eq hb ha hsame] at hnot
  exact hnot (.inl hitem)

/-! ## Channels -/

section Channels

variable {channels : Channels} {item : Item}

/-- Whatever is told about an item within reach is bounded: the item lies on a board within reach, also
    where an automation has put it. -/
theorem bounds_tell_about (hitem : c.items item.id) (hboard : c.boards item.boardId) (kind : EventKind)
    (actor : Option String) (note : ApprovalNote) :
    Keeps c.BoundsSite (channels.tell item kind actor note) := by
  intro s hkeys hfits
  refine Reads.rel_bind (R := c.BoundsSite) (keeps_current item) (fun row hrow => ?_) hkeys hfits
  have hwithin : c.items row.id ∧ c.boards row.boardId := by
    cases hrow
    show c.items ((s.office.items.get? item.id).getD item).id ∧
      c.boards ((s.office.items.get? item.id).getD item).boardId
    cases hget : s.office.items.get? item.id with
    | none => exact ⟨hitem, hboard⟩
    | some row =>
      obtain ⟨hmem, hkey⟩ := Table.mem_of_get? hget
      have hid : row.id = item.id := hkey
      rw [← hid] at hitem
      exact ⟨hitem, hfits.placed row hmem hitem⟩
  exact bounds_within (Reach.bounds_tell hwithin.1 hwithin.2 channels.listener) s

theorem carries_bounds (hitem : c.items item.id) (hboard : c.boards item.boardId)
    (actor : Option String) : Carries c.BoundsSite channels item actor where
  tell kind note _ := bounds_tell_about hitem hboard kind actor note
  send messages _ := keeps_send channels item messages

end Channels

/-! ## Requests and decisions -/

open Approvals

variable {item : Item}

/-- A request is bounded, if its item is within reach. -/
theorem bounds_request {itemId : Int} {actor : Option String} (channels : Channels)
    (h : ∀ item, (Office.requireItem itemId).answer s.office = .ok item →
      Access.demand s.office actor (.item item) .readItems = .ok () →
      c.items item.id ∧ c.boards item.boardId) :
    c.BoundsSite s ((request channels itemId actor).after s) := by
  refine (Office.reads_requireItem itemId false).within.rel_bind fun item hfound => ?_
  refine (Office.reads_demand actor _ _).within.rel_bind fun _ hdemand => ?_
  rw [Task.answer_within, Office.answer_demand] at hdemand
  obtain ⟨hitem, hboard⟩ := h item hfound hdemand
  have hgrowing : GrowingAt item.id c.BoundsSite := growingAt hitem
  refine ((keeps_evaluateItem item).bind fun (w, e) => .ite ?_ ?_ : Keeps c.BoundsSite _) s
  · refine (keeps_approveAll item actor).bind fun created => ?_
    exact .ite ((keeps_send channels item _).bind fun _ => .pure _) (.pure _)
  · refine (keeps_openNext item w e).bind fun created => ?_
    exact ((carries_bounds hitem hboard actor).announce _).bind fun _ => .pure _

/-- A decision is bounded, if its item is within reach. -/
theorem bounds_transition {key : Int} {requested : Value} {actor comments : Option String}
    (channels : Channels)
    (h : ∀ a next item w, Decision s key requested actor comments a next item w →
      c.items item.id ∧ c.boards item.boardId) :
    c.BoundsSite s ((transition channels key requested actor comments).after s) := by
  unfold Task.after
  rcases transition_cases channels key requested actor comments s with
    ⟨fault, s', hexec, hlooked, -⟩ | ⟨a, next, item, w, hdecision, hexec⟩
  · rw [hexec]
    rcases hlooked with rfl | ⟨boardId, rfl⟩
    · exact Std.Refl.refl s'
    · exact Curious.lookedUp s boardId
  · rw [hexec]
    obtain ⟨hitem, hboard⟩ := h a next item w hdecision
    have ha := (Table.mem_of_get? hdecision.found).1
    have hdecided : c.BoundsSite s (s.decide (a.decided next comments actor s.office.clock)) :=
      bounds_decide (hdecision.id_eq ▸ hitem) ha rfl rfl
    refine IsTrans.trans _ _ _ hdecided ?_
    refine IsTrans.trans _ _ _ (Curious.lookedUp _ item.boardId) ?_
    have hgrowing : GrowingAt item.id c.BoundsSite := growingAt hitem
    have hcarries : Carries c.BoundsSite channels item actor := carries_bounds hitem hboard actor
    refine (hcarries.follow (fun _ => ?_) (keeps_send channels item _) w _ comments).bind (fun _ => .pure _) _
    exact bounds_tell_about hitem hboard _ actor _

/-- So is a removal. -/
theorem bounds_delete {key : Int} {actor : Option String}
    (h : ∀ a, s.approvals.get? key = some a →
      Access.demand s.office actor (.approval a) .deleteApproval = .ok () → c.items a.itemId) :
    c.BoundsSite s ((delete key actor).after s) := by
  refine Reads.rel_bind (keeps_requireApproval key) fun a hfound => ?_
  refine (Office.reads_demand actor _ _).within.rel_bind fun _ hdemand => ?_
  rw [Task.answer_within, Office.answer_demand] at hdemand
  have hget := get?_of_requireApproval hfound
  exact bounds_erase (h a hget hdemand) (Table.mem_of_get? hget).1

/-! ## The archive -/

section Archive

variable {itemId : Int} {actor : Option String}

theorem bounds_archived
    (h : ∀ item, (Office.requireItem itemId).answer s.office = .ok item →
      (demandIf actor item .archiveItem).answer s = .ok () → c.items item.id) :
    c.BoundsSite s ((Approvals.archive itemId actor).after s) := by
  refine (Office.reads_requireItem itemId false).within.rel_bind fun item hfound => ?_
  refine (reads_demandIf actor item _).rel_bind fun _ hdemand => ?_
  have hitem := h item hfound hdemand
  refine ((keeps_progressOf item).bind fun progress => .ite ?_ (.pure _) : Keeps c.BoundsSite _) s
  exact (bounds_within (bounds_archive hitem)).discard.bind fun _ => .pure _

theorem bounds_restored
    (h : ∀ item, (Office.requireItem itemId true).answer s.office = .ok item →
      (demandIf actor item .archiveItem).answer s = .ok () → c.items item.id) :
    c.BoundsSite s ((Approvals.restore itemId actor).after s) := by
  refine (Office.reads_requireItem itemId true).within.rel_bind fun item hfound => ?_
  refine (reads_demandIf actor item _).rel_bind fun _ hdemand => ?_
  have hitem := h item hfound hdemand
  refine (.ite ?_ (.pure _) : Keeps c.BoundsSite _) s
  exact (bounds_within (bounds_restore hitem)).discard.bind fun _ => .pure _

end Archive

end Signoff.Reach
