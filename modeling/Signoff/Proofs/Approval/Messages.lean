import Signoff.Approval.Messages
import Signoff.Proofs.Office.Notices

/-! # Messages about approvals

    Every message is a notice of texts. Only one of them tells that an item is
    approved on all levels:

    * `Message.notice_of_mem_toUser`: a message carries the notice that it is
      made of.
    * `Subject.isText_*`: the notice says texts.
    * `Message.IsOrdinary`: the message is about a single step of the workflow.
-/

namespace Signoff

/-- A message to a user carries the notice. -/
theorem Message.notice_of_mem_toUser {user : Option String} {n : Notice} {m : Message}
    (hm : m ∈ toUser user n) : m.notice = n := by
  unfold toUser at hm
  split at hm
  · split at hm
    · cases hm
    · rw [List.mem_singleton.mp hm]
  · cases hm

/-- The types of messages about a single step of the workflow: an approval is asked for, or decided. -/
def Message.ordinaryTypes : List String :=
  ["approval_requested", "approval_approved", "approval_rejected", "approval_changes_requested"]

/-- The message is about a single step of the workflow. It does not tell that an item is approved on all
    levels, nor that something is late. -/
def Message.IsOrdinary (m : Message) : Prop := m.notice.type ∈ ordinaryTypes

theorem Message.IsOrdinary.ne_complete {m : Message} (h : m.IsOrdinary) :
    m.notice.type ≠ "approval_complete" := by
  intro heq
  rw [IsOrdinary, heq] at h
  simp [ordinaryTypes] at h

namespace Subject

variable (s : Subject) {m : Message} {level : String} {approver comments : Option String}

/-! ## Texts -/

theorem isText_of_mem_toUser {user : Option String} {n : Notice} (hn : n.IsText)
    (hm : m ∈ Message.toUser user n) : m.notice.IsText := by
  rw [Message.notice_of_mem_toUser hm]
  exact hn

theorem isText_approved (hm : m ∈ s.approved level approver comments) : m.notice.IsText :=
  isText_of_mem_toUser ⟨_, _, _, rfl, rfl, rfl⟩ hm

theorem isText_rejected (hm : m ∈ s.rejected level approver comments) : m.notice.IsText :=
  isText_of_mem_toUser ⟨_, _, _, rfl, rfl, rfl⟩ hm

theorem isText_changesRequested {feedback : String}
    (hm : m ∈ s.changesRequested level approver feedback) : m.notice.IsText :=
  isText_of_mem_toUser ⟨_, _, _, rfl, rfl, rfl⟩ hm

theorem isText_allComplete (hm : m ∈ s.allComplete) : m.notice.IsText :=
  isText_of_mem_toUser ⟨_, _, _, rfl, rfl, rfl⟩ hm

theorem isText_approvalRequested {approvers : List (Option String)}
    (hm : m ∈ s.approvalRequested level approvers) : m.notice.IsText := by
  obtain ⟨approver, -, hm⟩ := List.mem_flatMap.mp hm
  exact isText_of_mem_toUser ⟨_, _, _, rfl, rfl, rfl⟩ hm

/-! ## Types -/

theorem isOrdinary_of_mem_toUser {user : Option String} {n : Notice}
    (hn : n.type ∈ Message.ordinaryTypes) (hm : m ∈ Message.toUser user n) : m.IsOrdinary := by
  rw [Message.IsOrdinary, Message.notice_of_mem_toUser hm]
  exact hn

theorem isOrdinary_approved (hm : m ∈ s.approved level approver comments) : m.IsOrdinary :=
  isOrdinary_of_mem_toUser (by simp [Message.ordinaryTypes]) hm

theorem isOrdinary_rejected (hm : m ∈ s.rejected level approver comments) : m.IsOrdinary :=
  isOrdinary_of_mem_toUser (by simp [Message.ordinaryTypes]) hm

theorem isOrdinary_changesRequested {feedback : String}
    (hm : m ∈ s.changesRequested level approver feedback) : m.IsOrdinary :=
  isOrdinary_of_mem_toUser (by simp [Message.ordinaryTypes]) hm

theorem isOrdinary_approvalRequested {approvers : List (Option String)}
    (hm : m ∈ s.approvalRequested level approvers) : m.IsOrdinary := by
  obtain ⟨approver, -, hm⟩ := List.mem_flatMap.mp hm
  exact isOrdinary_of_mem_toUser (by simp [Message.ordinaryTypes]) hm

/-- Completion is told to the creator, who may have no name. -/
theorem allComplete_eq : ∃ n : Notice, n.IsText ∧ n.type = "approval_complete" ∧
    s.allComplete = Message.toUser s.createdBy n :=
  ⟨_, ⟨_, _, _, rfl, rfl, rfl⟩, rfl, rfl⟩

end Subject

end Signoff
