import Signoff.Proofs.Automation.Gating

/-! # What automations aim at

    An automation writes rows of the item that it is told about. Items are put
    on other boards only where one of its actions names the board:

    * `Action.Aims`, `Automation.Aims`: the boards that are named.
    * `Office.Allows R`: the relation allows what actions do to an item, as long
      as they name none but the given boards.
    * `rel_react`: then it allows what the automations of a board make of an
      event, if these name no other boards.
-/

open Signoff.Task (Keeps Reads)

namespace Signoff

/-- The action puts an item on the board. -/
def Action.Aims (action : Value) (boardId : Int) : Prop :=
  ∃ kind, kindOf (typeOf action) = .ok kind ∧ (kind = .createItem ∨ kind = .moveToBoard) ∧
    Targets (configOf action) boardId

/-- An action of the automation puts an item on the board. -/
def Automation.Aims (a : Automation) (boardId : Int) : Prop :=
  ∃ actions, a.actions.items = .ok actions ∧ ∃ action ∈ actions, Action.Aims action boardId

/-- The relation allows every effect of an action on the item that names none but the boards, and that
    it is noted down. -/
structure Office.Allows (R : Office → Office → Prop) (itemId : Int) (boards : Int → Prop) : Prop where
  effect {kind : ActionKind} {item : Item} {config : Value} {o o' : Office} (hitem : item.id = itemId)
    (haims : kind = .createItem ∨ kind = .moveToBoard → ∀ b, Action.Targets config b → boards b)
    (h : Action.Effect kind item config o o') : R o o'
  logged (o : Office) (logs : Table ExecutionLog) : R o { o with logs := logs }
  heard (o : Office) (heard : List Hearing) : R o { o with heard := heard }

namespace Automations

open Office

variable {R : Office → Office → Prop} [Std.Refl R] [IsTrans Office R] {boards : Int → Prop}
  {event : Event} {o : Office}

omit [IsTrans Office R] in
theorem keeps_executing {action : Value} {automation : Option Int} (h : Allows R event.itemId boards)
    (haims : ∀ b, Action.Aims action b → boards b) :
    Keeps R (Action.executing action event automation) := by
  intro o
  rcases Action.effect_execute (Action.typeOf action) (Action.configOf action) event automation o with
    hsame | ⟨kind, item, hkind, hfound, heffect⟩
  · unfold Action.executing
    rw [hsame]
    exact Std.Refl.refl o
  · refine h.effect (id_of_requireItem hfound) (fun hkinds b hb => ?_) heffect
    exact haims b ⟨kind, hkind, hkinds, hb⟩

theorem keeps_run_of_aims {a : Automation} (h : Allows R event.itemId boards)
    (haims : ∀ b, a.Aims b → boards b) (today : Date) : Keeps R (run a event today) := by
  refine (Keeps.ofResult _).bind fun isAnswered => .ite ?_ (.pure _)
  refine Keeps.bind ?_ fun results => Keeps.bind ?_ fun _ => .pure _
  · refine Action.keeps_executeAll_of_executing fun actions hactions action haction => ?_
    exact keeps_executing h fun b hb => haims b ⟨actions, hactions, action, haction, hb⟩
  · exact (Keeps.ofResult _).bind fun _ => .modify fun o => h.logged o _

theorem keeps_runAll_of_aims {automations : List Automation} (h : Allows R event.itemId boards)
    (haims : ∀ a ∈ automations, ∀ b, a.Aims b → boards b) (today : Date) :
    Keeps R (runAll event today automations) := by
  induction automations with
  | nil => exact .pure _
  | cons a rest ih =>
    have hfirst := keeps_run_of_aims h (haims a (List.mem_cons_self ..)) today
    have hothers := ih fun b hb => haims b (List.mem_cons_of_mem _ hb)
    refine hfirst.attempt.bind fun firing => hothers.bind fun others => ?_
    split
    · exact .pure _
    · exact .pure _

/-- Automations that name none but the boards make of an event what the relation allows. -/
theorem rel_react (h : Allows R event.itemId boards)
    (haims : ∀ a ∈ activeOn o event.boardId, ∀ b, a.Aims b → boards b) (today : Option Date) :
    R o ((react event today).after o) := by
  have hfire (today : Date) : R o ((fire event today).after o) := by
    unfold fire
    rw [Task.after_get_bind]
    simp only
    split
    · exact Std.Refl.refl o
    · apply Reads.rel_bind (reads_withSnapshot event).attempt
      intro told htold
      cases told with
      | error fault => exact Std.Refl.refl o
      | ok told =>
        -- The snapshot changes nothing about whom the event is about.
        have hanswer : (withSnapshot event).answer o = .ok told := Except.ok.inj htold
        rw [← itemId_of_withSnapshot hanswer] at h
        exact keeps_runAll_of_aims h haims today o
  unfold react
  rw [Task.after_get_bind]
  obtain ⟨firings, hafter⟩ := (returns_fire event (today.getD o.clock.date)).after_bind
    (fun firings => do
      modify fun o => { o with heard := ⟨event, some firings⟩ :: o.heard }
      pure firings) o
  rw [hafter]
  exact IsTrans.trans _ _ _ (hfire _) (h.heard _ _)

end Automations

end Signoff
