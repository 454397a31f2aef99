import Signoff.Approval.Flow
import Signoff.Proofs.Level
import Signoff.Proofs.Workflow.Sound
import Mathlib.Data.List.Forall2

/-! # Satisfied levels

    When the approvals on a level satisfy it:

    * `levelSatisfied_of_all_approved`: if all of them are approved.
    * `mem_approved_of_levelSatisfied`: only if one of them is approved.
    * `levelSatisfied_mono`: it stays so while approved ones stay approved.
    * `level_threshold`: all of this for the approvals on a level that was read from a
      payload, with the exact number that a parallel level needs.
-/

namespace Signoff

variable {statuses statuses' : List Status} {config : Option LevelConfig}

/-- How many approvals a level of the given configuration needs from `rows` approvals. -/
def neededOf (config : Option LevelConfig) (rows : Int) : Int :=
  match config with
  | some c =>
    if c.isParallel then
      min (match c.requiredApprovals with
        | some n => if n = 0 then rows else n
        | none => rows) rows
    else 1
  | none => 1

/-- A level is satisfied by as many approvals as it needs. -/
theorem levelSatisfied_iff :
    levelSatisfied statuses config = true ↔
      statuses ≠ [] ∧ neededOf config statuses.length ≤ (statuses.count .approved : Int) := by
  unfold levelSatisfied neededOf
  cases statuses with
  | nil => simp
  | cons first rest =>
    simp only [List.isEmpty_cons, Bool.false_eq_true, ↓reduceIte, ne_eq, reduceCtorEq,
      not_false_eq_true, true_and]
    cases config with
    | none => simp
    | some c =>
      by_cases h : c.isParallel
      · cases hn : c.requiredApprovals <;> simp [h, hn]
      · simp [h]

/-- A level with approvals never needs more than there are. -/
theorem neededOf_le {rows : Int} (hrows : 1 ≤ rows) : neededOf config rows ≤ rows := by
  unfold neededOf
  cases config with
  | none => exact hrows
  | some c =>
    simp only
    split
    · exact Int.min_le_right _ _
    · exact hrows

/-- It needs one at least. -/
theorem one_le_neededOf {rows : Int} (hrows : 1 ≤ rows)
    (hsound : ∀ c, config = some c → c.Sound) : 1 ≤ neededOf config rows := by
  unfold neededOf
  cases config with
  | none => exact Int.le_refl 1
  | some c =>
    simp only
    split
    · cases hn : c.requiredApprovals with
      | none => simp [hrows]
      | some n =>
        have := hsound c rfl n hn
        simp only
        split <;> omega
    · exact Int.le_refl 1

/-- A level is satisfied when everything on it is approved. -/
theorem levelSatisfied_of_all_approved (hne : statuses ≠ [])
    (hall : ∀ s ∈ statuses, s = .approved) : levelSatisfied statuses config = true := by
  have hcount : statuses.count .approved = statuses.length :=
    List.count_eq_length.mpr fun s hs => (hall s hs).symm
  have hlength : 1 ≤ (statuses.length : Int) := by
    have := List.length_pos_iff.mpr hne
    omega
  have hneeded : neededOf config statuses.length ≤ statuses.length := neededOf_le hlength
  rw [levelSatisfied_iff, hcount]
  exact ⟨hne, hneeded⟩

/-- A level is satisfied only when something on it is approved. -/
theorem mem_approved_of_levelSatisfied (h : levelSatisfied statuses config = true)
    (hsound : ∀ c, config = some c → c.Sound) : .approved ∈ statuses := by
  obtain ⟨hne, hneeded⟩ := levelSatisfied_iff.mp h
  have hlength : 1 ≤ (statuses.length : Int) := by
    have := List.length_pos_iff.mpr hne
    omega
  -- At least one approval is needed, so at least one is there.
  have hone := one_le_neededOf hlength hsound
  have hcount : 0 < statuses.count .approved := by omega
  exact List.count_pos_iff.mp hcount

/-- Approvals are not lost while what is approved stays approved. -/
theorem count_approved_mono
    (h : List.Forall₂ (fun s s' : Status => s = .approved → s' = .approved) statuses statuses') :
    statuses.count .approved ≤ statuses'.count .approved := by
  induction h with
  | nil => simp
  | @cons s s' rest rest' hs _ ih =>
    simp only [List.count_cons]
    by_cases happroved : s = .approved
    · simp [happroved, hs happroved, ih]
    · simp only [beq_iff_eq, happroved, ↓reduceIte]
      omega

/-- A satisfied level stays satisfied while what is approved stays approved. -/
theorem levelSatisfied_mono
    (hkept : List.Forall₂ (fun s s' : Status => s = .approved → s' = .approved) statuses statuses')
    (h : levelSatisfied statuses config = true) : levelSatisfied statuses' config = true := by
  obtain ⟨hne, hneeded⟩ := levelSatisfied_iff.mp h
  have hlength := hkept.length_eq
  have hcount := count_approved_mono hkept
  -- As many rows need as many approvals.
  rw [levelSatisfied_iff, ← hlength]
  refine ⟨?_, by omega⟩
  rintro rfl
  cases hkept
  exact hne rfl

/-! ## Rows on a level -/

namespace Approval

/-- The rows with another status for the one at the given place. -/
def restated (rows : List Approval) (place : Nat) (status : Status) : List Approval :=
  rows.modify place fun a => { a with status := status }

/-- What is approved stays approved, if the row in the place becomes approved or was not. -/
theorem kept_restated {rows : List Approval} {place : Nat} {status : Status}
    (h : status = .approved ∨ ∀ a, rows[place]? = some a → a.status ≠ .approved) :
    List.Forall₂ (fun s s' : Status => s = .approved → s' = .approved)
      (rows.map (·.status)) ((restated rows place status).map (·.status)) := by
  unfold restated
  induction rows generalizing place with
  | nil => simp
  | cons a rest ih =>
    cases place with
    | zero =>
      rw [List.modify_zero_cons]
      refine .cons (fun happroved => ?_) (List.forall₂_same.mpr fun _ _ happroved => happroved)
      rcases h with hnew | hold
      · exact hnew
      · exact absurd happroved (hold a rfl)
    | succ place =>
      rw [List.modify_succ_cons]
      exact .cons (fun happroved => happroved) (ih h)

/-- How many of the rows are approved. -/
theorem count_approved (rows : List Approval) :
    (rows.map (·.status)).count .approved = rows.countP fun a => a.status == .approved := by
  rw [List.count, List.countP_map]
  rfl

end Approval

/-- What satisfies a parallel level is the number of approvals that it asks for, or one from every row,
    whichever is less. -/
theorem levelSatisfied_parallel_iff {c : LevelConfig} (hparallel : c.isParallel = true)
    (hsound : c.Sound) (hne : statuses ≠ []) :
    levelSatisfied statuses (some c) = true ↔
      min (c.requiredApprovals.getD statuses.length) statuses.length ≤ statuses.count .approved := by
  have hneeded : neededOf (some c) statuses.length =
      min (c.requiredApprovals.getD statuses.length) statuses.length := by
    unfold neededOf
    cases hn : c.requiredApprovals with
    | none => simp [hparallel, hn]
    | some n =>
      -- Zero would count as no number at all, but no level asks for it.
      have hone : n ≠ 0 := by
        have := hsound n hn
        omega
      simp [hparallel, hn, hone]
  rw [levelSatisfied_iff, hneeded]
  simp [hne]

/-- When the approvals on a level satisfy it, for every level that was read from a payload and for one
    without configuration: only if one of them is approved, and always if all are. A parallel level needs
    as many as it asks for, and at most one of every row. To approve a row, or to change one that is not
    approved, never takes it back. -/
theorem level_threshold (rows : List Approval) (config : Option LevelConfig)
    (hread : ∀ c, config = some c → ∃ payload, LevelConfig.read payload = .sound c) :
    (levelSatisfied (rows.map (·.status)) config = true → ∃ a ∈ rows, a.status = .approved) ∧
    (rows ≠ [] → (∀ a ∈ rows, a.status = .approved) →
      levelSatisfied (rows.map (·.status)) config = true) ∧
    (∀ c, config = some c → c.isParallel = true → rows ≠ [] →
      (levelSatisfied (rows.map (·.status)) config = true ↔
        min (c.requiredApprovals.getD rows.length) rows.length ≤
          rows.countP fun a => a.status == .approved)) ∧
    ∀ place status, (status = .approved ∨ ∀ a, rows[place]? = some a → a.status ≠ .approved) →
      levelSatisfied (rows.map (·.status)) config = true →
      levelSatisfied ((Approval.restated rows place status).map (·.status)) config = true := by
  have hsound (c : LevelConfig) (hc : config = some c) : c.Sound := by
    obtain ⟨payload, hpayload⟩ := hread c hc
    exact LevelConfig.sound_of_read hpayload
  refine ⟨fun h => ?_, fun hne hall => ?_, fun c hc hparallel hne => ?_, fun place status hkept h => ?_⟩
  · exact List.mem_map.mp (mem_approved_of_levelSatisfied h hsound)
  · exact levelSatisfied_of_all_approved (by simpa using hne) (List.forall_mem_map.mpr hall)
  · have hthreshold := levelSatisfied_parallel_iff hparallel (hsound c hc)
      (show rows.map (·.status) ≠ [] by simpa using hne)
    rw [Approval.count_approved, List.length_map] at hthreshold
    rw [hc]
    exact hthreshold
  · exact levelSatisfied_mono (Approval.kept_restated hkept) h

/-- Two of three approvals satisfy a parallel level that asks for two, also when the third one is taken
    from rejected back to pending. -/
theorem level_threshold_two_of_three :
    let row (id : Int) (status : Status) : Approval :=
      ⟨id, 1, "LEVEL_3", status, some "A", none, ⟨0⟩, none⟩
    let rows := [row 1 .approved, row 2 .rejected, row 3 .approved]
    let config : LevelConfig := { level := .third, isParallel := true, requiredApprovals := some 2 }
    (∀ c, some config = some c → ∃ payload, LevelConfig.read payload = .sound c) ∧
    levelSatisfied (rows.map (·.status)) (some config) = true ∧
    levelSatisfied ((Approval.restated rows 1 .pending).map (·.status)) (some config) = true := by
  intro row rows config
  have hread : ∀ c, some config = some c → ∃ payload, LevelConfig.read payload = .sound c := by
    rintro c ⟨⟩
    exact ⟨.object [("level", .text "LEVEL_3"), ("isParallel", .bool true),
      ("requiredApprovals", .int 2)], rfl⟩
  obtain ⟨-, -, hparallel, hmono⟩ := level_threshold rows (some config) hread
  have hsatisfied : levelSatisfied (rows.map (·.status)) (some config) = true :=
    (hparallel config rfl rfl (by decide)).mpr (by decide)
  refine ⟨hread, hsatisfied, hmono 1 .pending (.inr ?_) hsatisfied⟩
  rintro a ⟨⟩
  decide

namespace Workflow

variable {w : Workflow}

theorem configNamed?_name (w : Workflow) (l : Level) : w.configNamed? l.name = w.configOf? l := by
  rw [configNamed?, Level.ofName?_name, Option.bind_some]

/-- The configurations of a sound workflow are sound. -/
theorem Sound.of_configNamed? (hw : w.Sound) {name : String} {c : LevelConfig}
    (h : w.configNamed? name = some c) : c.Sound := by
  obtain ⟨l, -, hl⟩ := Option.bind_eq_some_iff.mp h
  exact hw c (List.mem_of_find?_eq_some hl)

/-- A level that is satisfied has an approved row. -/
theorem Sound.approved_of_satisfied (hw : w.Sound) {level : String} {rows : List Approval}
    (h : w.satisfied level rows = true) : ∃ a ∈ rows, a.status = .approved :=
  List.mem_map.mp (mem_approved_of_levelSatisfied h fun _ => hw.of_configNamed?)

theorem satisfied_of_all_approved (w : Workflow) {level : String} {rows : List Approval}
    (hne : rows ≠ []) (hall : ∀ a ∈ rows, a.status = .approved) :
    w.satisfied level rows = true := by
  refine levelSatisfied_of_all_approved ?_ ?_
  · simpa using hne
  · intro s hs
    obtain ⟨a, ha, rfl⟩ := List.mem_map.mp hs
    exact hall a ha

end Workflow

end Signoff
