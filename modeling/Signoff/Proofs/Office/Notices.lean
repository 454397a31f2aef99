import Signoff.Proofs.Office.Heard

/-! # Notifications

    A notice of texts is always kept. One type of notification tells that an item
    is approved on all levels, and automations never send one:

    * `Notice.IsText`: everything that the notice says is text.
    * `Office.completions`: the notifications that an item is fully approved.
    * `Office.Uncompleted`: there are as many of them as before, and every item
      has the creator that it had.
    * `uncompleted_notify`: automations and other notices leave it at that.
-/

open Signoff.Task (Keeps Returns)

namespace Signoff

/-! ## Notices of texts -/

/-- Everything that the notice says is text. -/
def Notice.IsText (n : Notice) : Prop :=
  ∃ title message link, n.title = .text title ∧ n.message = .text message ∧ n.link = .text link

namespace Office

variable {n : Notice}

/-- A notice of texts is always kept, for the user and under its type. -/
theorem keepNotice_of_isText (h : n.IsText) (user : String) :
    ∃ make, keepNotice n (.text user) = .ok make ∧
      ∀ id now, (make id now).user = user ∧ (make id now).type = n.type := by
  obtain ⟨title, message, link, htitle, hmessage, hlink⟩ := h
  unfold keepNotice
  rw [htitle, hmessage, hlink]
  exact ⟨_, rfl, fun _ _ => ⟨rfl, rfl⟩⟩

theorem returns_notify (h : n.IsText) (user : String) : Returns (notify (.text user) n) := by
  obtain ⟨make, hmake, -⟩ := keepNotice_of_isText h user
  unfold notify
  rw [hmake]
  exact (Returns.pure make).bind fun _ => Returns.get.bind fun o => (Returns.set _).bind fun _ =>
    .pure _

/-- Sending a notice writes notifications only. -/
theorem after_notify (user : Value) (n : Notice) (o : Office) :
    ∃ notices, (notify user n).after o = { o with notifications := notices } := by
  unfold notify
  cases keepNotice n user with
  | error fault => exact ⟨o.notifications, rfl⟩
  | ok make => exact ⟨_, rfl⟩

/-! ## Notifications of completion -/

/-- The notifications that an item is approved on all levels. -/
def completions (o : Office) : List Notification :=
  o.notifications.rows.filter fun n => n.type == "approval_complete"

/-- No notification of completion was sent in between, and every item has the creator that it had. -/
structure Uncompleted (o o' : Office) : Prop where
  completions : o'.completions = o.completions
  createdBy : ∀ key item, o.items.get? key = some item →
    ∃ item', o'.items.get? key = some item' ∧ item'.createdBy = item.createdBy

/-- One more notification is one more completion, or none. -/
theorem completions_add (o : Office) (m : Notification) :
    Office.completions { o with notifications := o.notifications.add fun _ => m } =
      if m.type = "approval_complete" then o.completions ++ [m] else o.completions := by
  unfold Office.completions
  rw [Table.rows_add, List.filter_append, List.filter_singleton]
  by_cases h : m.type = "approval_complete"
  · simp [h]
  · rw [if_neg h, beq_eq_false_iff_ne.mpr h, cond_false, List.append_nil]

namespace Uncompleted

/-- Whatever leaves notifications and items alone. -/
theorem of_eq {o o' : Office} (hnotices : o'.notifications = o.notifications)
    (hitems : o'.items = o.items) : o.Uncompleted o' where
  completions := by rw [Office.completions, hnotices, Office.completions]
  createdBy key item hitem := ⟨item, by rw [hitems, hitem], rfl⟩

instance : Std.Refl Uncompleted := ⟨fun _ => of_eq rfl rfl⟩

instance : IsTrans Office Uncompleted where
  trans o o' o'' h h' := by
    refine ⟨h'.completions.trans h.completions, fun key item hitem => ?_⟩
    obtain ⟨item', hitem', hsame⟩ := h.createdBy key item hitem
    obtain ⟨item'', hitem'', hsame'⟩ := h'.createdBy key item' hitem'
    exact ⟨item'', hitem'', hsame'.trans hsame⟩

/-- Automations send other notifications, and leave the creators of items alone. -/
instance : Automatic Uncompleted where
  changed o key f hf := by
    refine ⟨rfl, fun k item hitem => ⟨_, Table.get?_modify (fun i hkey => (hf i).1.trans hkey) hitem, ?_⟩⟩
    split
    · exact (hf item).2
    · rfl
  added o item _ := ⟨rfl, fun k found hfound => ⟨found, Table.get?_add hfound, rfl⟩⟩
  filled _ _ := of_eq rfl rfl
  noticed o new h := by
    refine ⟨?_, fun key item hitem => ⟨item, hitem, rfl⟩⟩
    have hother : new.filter (fun n => n.type == "approval_complete") = [] := by
      rw [List.filter_eq_nil_iff]
      intro n hn
      simp [h n hn]
    simp only [Office.completions, List.filter_append, hother, List.append_nil]
  logged _ _ := of_eq rfl rfl
  called _ _ _ := of_eq rfl rfl

instance : Reacting Uncompleted where
  noted _ _ := of_eq rfl rfl

end Uncompleted

/-- A notice of another type is no notification of completion. -/
theorem uncompleted_notify (user : Value) (h : n.type ≠ "approval_complete") :
    Keeps Uncompleted (notify user n) := by
  unfold notify
  cases hmake : keepNotice n user with
  | error fault => exact Keeps.throw fault
  | ok make =>
    have hmade : (Task.ofResult (.ok make) : OfficeTask _) = pure make := rfl
    rw [hmade, pure_bind]
    refine Keeps.get_set (fun o => ⟨?_, fun key item hitem => ⟨item, hitem, rfl⟩⟩) fun _ => .pure _
    rw [completions_add, if_neg]
    rw [type_of_keepNotice hmake]
    exact h

/-- A notice of this type is one, for the user that it goes to. -/
theorem completions_notify (h : n.IsText) (htype : n.type = "approval_complete") (user : String)
    (o : Office) : ∃ m : Notification, m.user = user ∧
      ((notify (.text user) n).after o).completions = o.completions ++ [m] := by
  obtain ⟨make, hmake, hmade⟩ := keepNotice_of_isText h user
  obtain ⟨huser, hkind⟩ := hmade o.notifications.nextKey o.clock
  refine ⟨make o.notifications.nextKey o.clock, huser, ?_⟩
  have hadd := completions_add o (make o.notifications.nextKey o.clock)
  rw [if_pos (hkind.trans htype)] at hadd
  rw [← hadd]
  unfold notify
  rw [hmake]
  rfl

end Office

end Signoff
