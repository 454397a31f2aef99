import Signoff.Proofs.Office.Items
import Signoff.Proofs.Value

/-! # Who may decide

    An approval is decided by its approver, or by somebody whose role in the
    workspace of the item is one of the elevated ones:

    * `Access.elevatedRoles`: the elevated roles, as the settings list them.
    * `Access.Entitled`: whom the rule lets decide an approval.
    * `entitled_of_demand`: whoever is permitted to decide is entitled to.
-/

namespace Signoff.Access

variable {o : Office} {user : String} {a : Approval}

/-! ## Elevated roles -/

/-- The roles that may decide every approval. -/
def elevatedRoles (o : Office) : Result (List Value) :=
  ((o.settings.get? "APPROVAL_ELEVATED_ROLES").getD defaultElevated).items

/-- The settings list roles, and nothing that stands for having none. -/
def ListsRoles (o : Office) : Prop := ∀ roles, elevatedRoles o = .ok roles → .null ∉ roles

/-- Where the settings do not say, three roles are elevated. -/
theorem listsRoles_of_default (h : o.settings.get? "APPROVAL_ELEVATED_ROLES" = none) :
    ListsRoles o := by
  intro roles hroles
  unfold elevatedRoles at hroles
  rw [h] at hroles
  cases hroles
  simp

/-- The user has one of the elevated roles in the workspace. -/
def HoldsElevated (o : Office) (workspace : Int) (user : String) : Prop :=
  ∃ role roles, o.role? workspace (some user) = some role ∧ elevatedRoles o = .ok roles ∧
    .text role ∈ roles

/-- An elevated role is a role, and it is listed. -/
theorem holdsElevated_of_isElevated {workspace : Int} (hroles : ListsRoles o)
    (h : isElevated o (o.role? workspace (some user)) = .ok true) :
    HoldsElevated o workspace user := by
  unfold isElevated at h
  obtain ⟨roles, hlisted, h⟩ := Result.bind_eq_ok h
  split at h
  · cases h
  · have hany : roles.any (Value.ofText? (o.role? workspace (some user))).looseEq = true := by
      simpa [pure, Except.pure] using h
    obtain ⟨v, hv, hequal⟩ := List.any_eq_true.mp hany
    cases hrole : o.role? workspace (some user) with
    | none =>
      rw [hrole] at hequal
      -- Having no role would have to be listed as well.
      have hnull : v = .null := Value.eq_of_looseEq_null hequal
      rw [hnull] at hv
      exact absurd hv (hroles roles hlisted)
    | some role =>
      rw [hrole] at hequal
      have htext : v = .text role := Value.eq_of_looseEq_text hequal
      rw [htext] at hv
      exact ⟨role, roles, hrole, hlisted, hv⟩

/-! ## Entitled users -/

/-- The user is the approver, or has an elevated role in the workspace of the item. -/
inductive Entitled (o : Office) (a : Approval) (user : String) : Prop where
  | approver (h : a.approver = some user)
  | elevated {item : Item} {workspace : Int} (hitem : o.items.get? a.itemId = some item)
      (hworkspace : o.workspaceOf? item.boardId = some workspace)
      (hrole : HoldsElevated o workspace user)

/-- What is demanded is allowed. -/
theorem allows_of_demand {actor : Option String} {resource : Resource} {permission : Permission}
    (h : demand o actor resource permission = .ok ()) :
    allows o actor resource permission = .ok true := by
  unfold demand at h
  obtain ⟨isAllowed, hallows, h⟩ := Result.bind_eq_ok h
  cases isAllowed with
  | false => cases h
  | true => exact hallows

/-- Only what belongs to a workspace is allowed to anybody. -/
theorem workspace_of_demand {actor : Option String} {resource : Resource} {permission : Permission}
    (h : demand o actor resource permission = .ok ()) :
    ∃ workspace, workspaceOf? o resource = some workspace := by
  have hallows := allows_of_demand h
  unfold allows at hallows
  split at hallows
  · next hworkspace => exact ⟨_, hworkspace⟩
  · cases hallows

/-- The workspace of an approval is the one of the board that its item is on. -/
theorem workspaceOf?_approval {workspace : Int} (h : workspaceOf? o (.approval a) = some workspace) :
    ∃ item, o.items.get? a.itemId = some item ∧ o.workspaceOf? item.boardId = some workspace :=
  Option.bind_eq_some_iff.mp h

/-- Whoever is permitted to decide an approval is entitled to. -/
theorem entitled_of_demand (hroles : ListsRoles o)
    (h : demand o (some user) (.approval a) .decideApproval = .ok ()) : Entitled o a user := by
  obtain ⟨workspace, hworkspace⟩ := workspace_of_demand h
  have hallows := allows_of_demand h
  obtain ⟨item, hitem, hboard⟩ := workspaceOf?_approval hworkspace
  unfold allows at hallows
  rw [hworkspace] at hallows
  simp only at hallows
  split at hallows
  · cases hallows
  · split at hallows
    · next happrover =>
      apply Entitled.approver
      simpa using (Bool.and_eq_true_iff.mp happrover).2
    · apply Entitled.elevated hitem hboard
      exact holdsElevated_of_isElevated hroles hallows

end Signoff.Access
