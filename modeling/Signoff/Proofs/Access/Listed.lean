import Signoff.Proofs.Access.Entitled
import Signoff.Proofs.Value
import Signoff.Settings.Basic

/-! # Elevated roles of the environment

    The program reads the elevated roles as words from its environment, and no
    mode changes them. So they are roles, in every environment:

    * `listsRoles_of_read`: the settings that are read list roles.
-/

namespace Signoff

namespace Settings

variable {env : Environment} {fields : Fields}

theorem elevated_of_shared (h : shared env = .ok fields) :
    ∃ words, Fields.get? fields "APPROVAL_ELEVATED_ROLES" = some (.ofTexts words) := by
  obtain ⟨timeout, -, h⟩ := Result.bind_eq_ok h
  obtain ⟨reminder, -, h⟩ := Result.bind_eq_ok h
  obtain ⟨deadline, -, h⟩ := Result.bind_eq_ok h
  cases h
  refine ⟨wordsOf (textOf env "APPROVAL_ELEVATED_ROLES" "owner,admin,finance"), ?_⟩
  cases env.lookup "SECRET_KEY" <;> rfl

/-- No mode sets the elevated roles in another way. -/
theorem ne_elevated_of_ofMode {mode : Mode} (h : ofMode env mode = .ok fields) :
    ∀ field ∈ fields, field.1 ≠ "APPROVAL_ELEVATED_ROLES" := by
  cases mode with
  | development =>
    cases h
    simp
  | testing =>
    cases h
    simp
  | production =>
    simp only [ofMode] at h
    cases hdatabase : databaseAddress env with
    | none =>
      rw [hdatabase] at h
      cases h
    | some address =>
      rw [hdatabase] at h
      simp only at h
      split at h
      · cases h
      · cases h
        simp

end Settings

namespace Access

variable {o : Office}

/-- Words that are listed are roles. -/
theorem listsRoles_of_texts {words : List String}
    (h : o.settings.get? "APPROVAL_ELEVATED_ROLES" = some (.ofTexts words)) : ListsRoles o := by
  intro roles hroles
  unfold elevatedRoles at hroles
  rw [h] at hroles
  cases hroles
  simp

/-- The settings that the program starts with list roles, whatever its environment is. -/
theorem listsRoles_of_read {mode : String} {env : Settings.Environment}
    (h : Settings.read mode env = .ok o.settings) : ListsRoles o := by
  obtain ⟨common, hshared, h⟩ := Result.bind_eq_ok h
  obtain ⟨words, hwords⟩ := Settings.elevated_of_shared hshared
  split at h
  · cases h
  · obtain ⟨own, hown, h⟩ := Result.bind_eq_ok h
    have hsettings : common.setAll own = o.settings := Except.ok.inj h
    apply listsRoles_of_texts
    rw [← hsettings, Fields.get?_setAll (Settings.ne_elevated_of_ofMode hown)]
    exact hwords

end Access

end Signoff
