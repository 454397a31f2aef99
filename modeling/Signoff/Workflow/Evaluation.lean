import Signoff.Workflow.Basic

/-! # Evaluation of a workflow

What the workflow of a board means for one item: the levels that the item has to pass, those that it
skips, whether it needs no approval at all, and who approves on each level.

* `Workflow.matching` finds the enabled rules that hold of the item, by descending priority.
* `Workflow.evaluationOf` is what the levels and these rules come to.
* `Workflow.evaluate` is both.

A rule without the level, the target or the approvers of its routing would do nothing here. The checks of
`RuleAction.settle` let none of that kind into a workflow, so every rule that is evaluated names them
(`Rule.Admitted.acts`).
-/

namespace Signoff

/-- What a workflow means for one item. -/
structure Evaluation where
  /-- The levels that the item has to pass, in order. -/
  required : List Level
  /-- The levels that the item skips, in order. -/
  skipped : List Level
  autoApproved : Bool
  /-- Who approves on a level. -/
  assigned : Level → List String
  /-- The rules that hold of the item. -/
  routed : List Rule

namespace Rule

/-- Does the rule require the level? -/
def requires (r : Rule) (l : Level) : Bool :=
  r.action.routing == .requireLevel && r.action.level == some l

/-- Does the rule skip the level? It skips every level in front of its target. -/
def skips (r : Rule) (l : Level) : Bool :=
  r.action.routing == .skipLevel && r.action.skipTo.any fun target => l.index < target.index

/-- Does the rule make approval unnecessary? -/
def approves (r : Rule) : Bool := r.action.routing == .autoApprove

/-- The approvers that the rule puts on the level. -/
def assigns (r : Rule) (l : Level) : List String :=
  if r.action.routing == .assignApprover && r.action.level == some l then r.action.approvers.getD []
  else []

end Rule

namespace Workflow

/-- The rules by descending priority; rules of one priority keep their order. -/
def ranked (w : Workflow) : List Rule := w.rules.mergeSort fun a b => b.priority ≤ a.priority

/-- Those of the rules that are enabled and hold of the snapshot. -/
def holding (snapshot : Snapshot) : List Rule → Result (List Rule)
  | [] => .ok []
  | r :: rest => do
    let holds ← if r.enabled then r.condition.condition.holds snapshot else .ok false
    let others ← holding snapshot rest
    pure (if holds then r :: others else others)

/-- The enabled rules that hold of the snapshot, by descending priority. -/
def matching (w : Workflow) (snapshot : Snapshot) : Result (List Rule) := holding snapshot w.ranked

/-- Is the level configured, and not optional? -/
def demands (w : Workflow) (l : Level) : Bool := (w.configOf? l).any fun c => !c.isOptional

/-- What the levels of the workflow and the rules that hold come to. A level that is skipped is required
only if a rule requires it. Approvers of rules take the place of the configured ones. -/
def evaluationOf (w : Workflow) (rules : List Rule) : Evaluation :=
  let isSkipped (l : Level) : Bool := rules.any fun r => r.skips l
  { required := Level.all.filter fun l =>
      rules.any (fun r => r.requires l) || (w.demands l && !isSkipped l)
    skipped := Level.all.filter isSkipped
    autoApproved := rules.any Rule.approves
    assigned := fun l =>
      let byRules := rules.flatMap fun r => r.assigns l
      if byRules.isEmpty && !isSkipped l then ((w.configOf? l).map (·.approvers)).getD []
      else byRules
    routed := rules }

/-- What the workflow means for an item with this snapshot. -/
def evaluate (w : Workflow) (snapshot : Snapshot) : Result Evaluation := do
  pure (w.evaluationOf (← w.matching snapshot))

end Workflow

/-- The evaluation as an object. -/
def Evaluation.toValue (e : Evaluation) : Value :=
  .object [
    ("requiredLevels", .list (e.required.map Level.toValue)),
    ("skippedLevels", .list (e.skipped.map Level.toValue)),
    ("autoApproved", .bool e.autoApproved),
    ("assignedApprovers", .object (Level.all.map fun l => (l.name, .ofTexts (e.assigned l)))),
    ("routingRules", .list (e.routed.map fun r =>
      .object [("id", .text r.id), ("name", .text r.name), ("priority", .int r.priority)]))]

end Signoff
