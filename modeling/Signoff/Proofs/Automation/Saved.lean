import Signoff.Proofs.Automation.Effects
import Signoff.Proofs.Office.Heard
import Signoff.Proofs.Workflow.Sound

/-! # Automations that were saved

    Automations are kept the way their payloads were read, so that their actions
    can always be gone through:

    * `Action.Validated`: an action that has passed its checks. It is an object
      with a type and a configuration.
    * `Automation.Saved`: an automation that was made, and maybe changed and
      toggled.
    * `Saved.listed`: its actions are a list of such actions, and not empty.
-/

open Signoff.Task (Reads)

namespace Signoff

/-! ## Actions -/

namespace Action

/-- The action has passed its checks, and stands as it is kept then. -/
def Validated (action : Value) : Prop := ∃ written, read written = .sound action

/-- There are actions, and all of them have passed their checks. -/
def AllValidated (actions : List Value) : Prop :=
  actions ≠ [] ∧ ∀ action ∈ actions, Validated action

theorem Validated.eq_object {action : Value} (h : Validated action) :
    ∃ kind : ActionKind, ∃ config : Fields,
      action = .object [("type", .text kind.word), ("config", .object config)] := by
  obtain ⟨written, hread⟩ := h
  obtain ⟨⟨kind, config⟩, -, hread⟩ := Checked.andThen_eq_sound hread
  obtain ⟨checked, -, rfl⟩ := Checked.map_eq_sound hread
  exact ⟨kind, checked, rfl⟩

end Action

/-- What is read as a list of actions has passed its checks. -/
theorem Action.allValidated_of_filledList {v : Value} {actions : List Value}
    (h : Schema.filledList Action.read v = .sound actions) : Action.AllValidated actions :=
  ⟨Schema.ne_nil_of_filledList h, Schema.filledList_eq_sound h⟩

/-- A new automation has actions that have passed their checks. -/
theorem AutomationDraft.allValidated_of_payload {payload : Value} {d : AutomationDraft}
    (h : ofPayload payload = .ok d) : Action.AllValidated d.actions := by
  obtain ⟨fields, hfields⟩ := Schema.object_eq_sound (Schema.payload_eq_ok h)
  obtain ⟨f, isActive, hf, -, rfl⟩ := Checked.seq_eq_sound hfields
  obtain ⟨g, conditions, hg, -, rfl⟩ := Checked.seq_eq_sound hf
  obtain ⟨k, actions, hk, hactions, rfl⟩ := Checked.seq_eq_sound hg
  obtain ⟨l, trigger, hl, -, rfl⟩ := Checked.seq_eq_sound hk
  obtain ⟨m, description, hm, -, rfl⟩ := Checked.seq_eq_sound hl
  obtain ⟨n, name, hn, -, rfl⟩ := Checked.seq_eq_sound hm
  obtain ⟨boardId, -, rfl⟩ := Checked.map_eq_sound hn
  obtain ⟨v, hread⟩ := Schema.required_eq_sound hactions
  exact Action.allValidated_of_filledList hread

/-- A change that names actions names such as have passed their checks. -/
theorem AutomationChange.allValidated_of_payload {payload : Value} {c : AutomationChange}
    (h : ofPayload payload = .ok c) {actions : List Value} (hactions : c.actions.join = some actions) :
    Action.AllValidated actions := by
  obtain ⟨fields, hfields⟩ := Schema.object_eq_sound (Schema.payload_eq_ok h)
  obtain ⟨f, isActive, hf, -, rfl⟩ := Checked.seq_eq_sound hfields
  obtain ⟨g, conditions, hg, -, rfl⟩ := Checked.seq_eq_sound hf
  obtain ⟨k, named, hk, hnamed, rfl⟩ := Checked.seq_eq_sound hg
  obtain ⟨l, trigger, hl, -, rfl⟩ := Checked.seq_eq_sound hk
  obtain ⟨m, description, hm, -, rfl⟩ := Checked.seq_eq_sound hl
  obtain ⟨name, -, rfl⟩ := Checked.map_eq_sound hm
  have hjoin : named.join = some actions := hactions
  rcases Schema.optional_eq_sound hnamed with rfl | ⟨v, hread⟩
  · cases hjoin
  · obtain ⟨given, hgiven, rfl⟩ := Checked.map_eq_sound hread
    rcases Schema.nullable_eq_sound hgiven with rfl | ⟨xs, rfl, hlist⟩
    · cases hjoin
    · obtain rfl : xs = actions := Option.some.inj hjoin
      exact Action.allValidated_of_filledList hlist

/-! ## Automations -/

/-- An automation as it is kept: it was made, and maybe changed and toggled later. -/
inductive Automation.Saved : Automation → Prop where
  | created {o : Office} {payload : Value} {actor : Option String} {a : Automation}
      (h : (Automations.create payload actor).answer o = .ok a) : Saved a
  | updated {o : Office} {key : Int} {payload : Value} {actor : Option String} {old a : Automation}
      (hold : o.automations.get? key = some old) (hsaved : Saved old)
      (h : (Automations.update key payload actor).answer o = .ok a) : Saved a
  | toggled {o : Office} {key : Int} {actor : Option String} {old a : Automation}
      (hold : o.automations.get? key = some old) (hsaved : Saved old)
      (h : (Automations.toggle key actor).answer o = .ok a) : Saved a

namespace Automations

/-- The actions of the row can be gone through: they are a list of actions that have passed their
    checks, and not empty. -/
def Listed (a : Automation) : Prop :=
  ∃ actions, a.actions = .list actions ∧ Action.AllValidated actions

theorem listed_create {o : Office} {payload : Value} {actor : Option String} {a : Automation}
    (h : (create payload actor).answer o = .ok a) : Listed a := by
  unfold create at h
  rw [Reads.answer_bind (.ofResult _), Task.answer_ofResult] at h
  obtain ⟨draft, hdraft, h⟩ := Result.bind_eq_ok h
  rw [(Office.reads_requireBoard _).answer_bind] at h
  obtain ⟨board, -, h⟩ := Result.bind_eq_ok h
  rw [(Office.reads_demand _ _ _).answer_bind] at h
  obtain ⟨_, -, h⟩ := Result.bind_eq_ok h
  cases h
  exact ⟨draft.actions, rfl, AutomationDraft.allValidated_of_payload hdraft⟩

/-- The automation that is permitted is the one of the key, and the permission is about its board. -/
theorem of_permitted {o : Office} {key : Int} {actor : Option String} {permission : Permission}
    {a : Automation} (h : (permitted key actor permission).answer o = .ok a) :
    o.automations.get? key = some a ∧ ∃ board, o.boards.get? a.boardId = some board ∧
      Access.demand o actor (.board board) permission = .ok () := by
  unfold permitted require at h
  rw [bind_assoc, Reads.answer_bind (.ofResult _), Task.answer_ofResult] at h
  obtain ⟨_, -, h⟩ := Result.bind_eq_ok h
  rw [bind_assoc, Task.answer_get_bind] at h
  cases hget : o.automations.get? key with
  | none =>
    rw [hget] at h
    cases h
  | some found =>
    rw [hget] at h
    simp only [pure_bind] at h
    rw [(Office.reads_requireBoard _).answer_bind] at h
    obtain ⟨board, hboard, h⟩ := Result.bind_eq_ok h
    rw [(Office.reads_demand _ _ _).answer_bind, Office.answer_demand] at h
    obtain ⟨_, hdemand, h⟩ := Result.bind_eq_ok h
    cases h
    obtain ⟨n, hn, hfound⟩ := Office.get?_of_requireBoard hboard
    cases hn
    exact ⟨rfl, board, hfound, hdemand⟩

theorem get?_of_permitted {o : Office} {key : Int} {actor : Option String}
    {permission : Permission} {a : Automation}
    (h : (permitted key actor permission).answer o = .ok a) : o.automations.get? key = some a :=
  (of_permitted h).1

/-- A row that is written keeps the old actions, or has the new ones. -/
theorem listed_write {o : Office} {old new a : Automation} (hold : Listed old) (hnew : Listed new)
    (h : (write old new).answer o = .ok a) : Listed a := by
  cases h
  -- The new actions are written unless they equal the old ones.
  rcases keepEqual_cases old.actions new.actions with hkept | hchanged
  · obtain ⟨actions, hactions, hvalid⟩ := hold
    exact ⟨actions, hkept.trans hactions, hvalid⟩
  · obtain ⟨actions, hactions, hvalid⟩ := hnew
    exact ⟨actions, hchanged.trans hactions, hvalid⟩

theorem listed_update {o : Office} {key : Int} {payload : Value} {actor : Option String}
    {old a : Automation} (hold : o.automations.get? key = some old) (hlisted : Listed old)
    (h : (update key payload actor).answer o = .ok a) : Listed a := by
  unfold update at h
  rw [(reads_permitted key actor _).answer_bind] at h
  obtain ⟨found, hfound, h⟩ := Result.bind_eq_ok h
  obtain rfl : found = old := Option.some.inj ((get?_of_permitted hfound).symm.trans hold)
  rw [Reads.answer_bind (.ofResult _), Task.answer_ofResult] at h
  obtain ⟨change, hchange, h⟩ := Result.bind_eq_ok h
  refine listed_write hlisted ?_ h
  -- The change leaves the actions as they are, or names others.
  cases hnamed : change.actions.join with
  | none =>
    obtain ⟨actions, hactions, hvalid⟩ := hlisted
    exact ⟨actions, by simp [applied, hnamed, hactions], hvalid⟩
  | some actions =>
    exact ⟨actions, by simp [applied, hnamed], AutomationChange.allValidated_of_payload hchange hnamed⟩

theorem listed_toggle {o : Office} {key : Int} {actor : Option String} {old a : Automation}
    (hold : o.automations.get? key = some old) (hlisted : Listed old)
    (h : (toggle key actor).answer o = .ok a) : Listed a := by
  unfold toggle at h
  rw [(reads_permitted key actor _).answer_bind] at h
  obtain ⟨found, hfound, h⟩ := Result.bind_eq_ok h
  obtain rfl : found = old := Option.some.inj ((get?_of_permitted hfound).symm.trans hold)
  have hnew : Listed { found with isActive := !found.isActive } := hlisted
  exact listed_write hlisted hnew h

end Automations

/-- The actions of a saved automation can be gone through. -/
theorem Automation.Saved.listed {a : Automation} (h : a.Saved) : Automations.Listed a := by
  induction h with
  | created h => exact Automations.listed_create h
  | updated hold _ h ih => exact Automations.listed_update hold ih h
  | toggled hold _ h ih => exact Automations.listed_toggle hold ih h

end Signoff
