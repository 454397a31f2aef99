import Mathlib.Data.List.Sort
import Signoff.Proofs.Level
import Signoff.Proofs.Workflow.Written
import Signoff.Workflow.Evaluation

/-! # What an evaluation means

    The evaluation of a workflow is told by the rules that apply to the item, and
    by nothing else:

    * `Workflow.Routes`: which rules apply, and in which order.
    * `Workflow.Means`: what every part of an evaluation says.
    * `Workflow.Routes.unique`: one list of rules at most is so.
    * `Workflow.means_evaluationOf`: the evaluation by these rules means this.
    * `Workflow.evaluate_means`: unless a condition fails, the evaluation is there,
      is the only one that means this, and its levels do not depend on the order of
      the rules.
-/

namespace Signoff

variable {snapshot : Snapshot}

namespace Level

/-- The levels stand in their order, each of them once. -/
def InOrder (levels : List Level) : Prop := levels.Pairwise fun a b => a.index < b.index

theorem inOrder_filter (p : Level → Bool) : InOrder (all.filter p) :=
  all_sorted.sublist List.filter_sublist

/-- Levels in their order are told by which of them are there. -/
theorem InOrder.ext {ls ls' : List Level} (h : InOrder ls) (h' : InOrder ls')
    (hmem : ∀ l, l ∈ ls ↔ l ∈ ls') : ls = ls' := by
  have hirrefl : Std.Irrefl fun a b : Level => a.index < b.index := ⟨fun a => Nat.lt_irrefl _⟩
  have hantisymm : Std.Antisymm fun a b : Level => a.index < b.index :=
    ⟨fun a b hab hba => absurd hab (Nat.lt_asymm hba)⟩
  exact List.Pairwise.eq_of_mem_iff h h' hmem

/-- The level is the last one that has the property. -/
def IsHighest (P : Level → Prop) (top : Level) : Prop := P top ∧ ∀ l, P l → l.index ≤ top.index

/-- Some level is the last one that has a property which some level has. -/
theorem exists_isHighest {P : Level → Prop} {l : Level} (h : P l) : ∃ top, IsHighest P top := by
  by_cases hthird : P .third
  · exact ⟨.third, hthird, fun k _ => by cases k <;> decide⟩
  by_cases hsecond : P .second
  · refine ⟨.second, hsecond, fun k hk => ?_⟩
    cases k with
    | first | second => decide
    | third => exact absurd hk hthird
  · refine ⟨.first, ?_, fun k hk => ?_⟩
    · cases l with
      | first => exact h
      | second => exact absurd h hsecond
      | third => exact absurd h hthird
    · cases k with
      | first => decide
      | second => exact absurd hk hsecond
      | third => exact absurd hk hthird

/-- To be in front of some level with a property is to be in front of the last one. -/
theorem exists_lt_iff {P : Level → Prop} {l : Level} :
    (∃ target, P target ∧ l.index < target.index) ↔ ∃ top, IsHighest P top ∧ l.index < top.index := by
  constructor
  · rintro ⟨target, htarget, hlt⟩
    obtain ⟨top, htop⟩ := exists_isHighest htarget
    exact ⟨top, htop, Nat.lt_of_lt_of_le hlt (htop.2 target htarget)⟩
  · rintro ⟨top, htop, hlt⟩
    exact ⟨top, htop.1, hlt⟩

end Level

namespace Rule

/-- The rule is enabled, and its condition holds of the snapshot. -/
def applies (r : Rule) (snapshot : Snapshot) : Bool :=
  r.enabled && (match r.condition.condition.holds snapshot with
    | .ok isHeld => isHeld
    | .error _ => false)

/-- The condition of the rule does not fail on the snapshot, if it is looked at. -/
def Answers (r : Rule) (snapshot : Snapshot) : Prop :=
  r.enabled = true → ∃ isHeld, r.condition.condition.holds snapshot = .ok isHeld

/-- The rule as if it had no priority of its own. -/
def unranked (r : Rule) : Rule := { r with priority := 0 }

/-- A rule skips to the level. -/
def Target (rules : List Rule) (l : Level) : Prop :=
  ∃ r ∈ rules, r.action.routing = .skipLevel ∧ r.action.skipTo = some l

/-- The approvers that the rules put on the level, one rule after the other. -/
def approversFor (rules : List Rule) (l : Level) : List String :=
  (rules.filter fun r => r.action.routing == .assignApprover && r.action.level == some l).flatMap
    fun r => r.action.approvers.getD []

end Rule

namespace Workflow

open Level Rule

/-- These are the rules of the workflow that apply: by descending priority, and those of one priority
    as they are configured. -/
structure Routes (w : Workflow) (snapshot : Snapshot) (rules : List Rule) : Prop where
  descending : rules.Pairwise fun a b => b.priority ≤ a.priority
  tied : ∀ priority, (rules.filter fun r => r.priority == priority) =
    w.rules.filter fun r => r.applies snapshot && r.priority == priority

/-- What the evaluation says, part by part. -/
structure Means (w : Workflow) (snapshot : Snapshot) (e : Evaluation) : Prop where
  routed : w.Routes snapshot e.routed
  autoApproved : e.autoApproved = true ↔ ∃ r ∈ e.routed, r.action.routing = .autoApprove
  skipped : ∀ l, l ∈ e.skipped ↔ ∃ top, IsHighest (Target e.routed) top ∧ l.index < top.index
  skipped_inOrder : InOrder e.skipped
  required : ∀ l, l ∈ e.required ↔
    (∃ r ∈ e.routed, r.action.routing = .requireLevel ∧ r.action.level = some l) ∨
      ∃ c ∈ w.levels, c.level = l ∧ c.isOptional = false ∧ l ∉ e.skipped
  required_inOrder : InOrder e.required
  assigned_byRules : ∀ l, approversFor e.routed l ≠ [] → e.assigned l = approversFor e.routed l
  assigned_configured : ∀ c ∈ w.levels, approversFor e.routed c.level = [] → c.level ∉ e.skipped →
    e.assigned c.level = c.approvers
  assigned_nobody : ∀ l, approversFor e.routed l = [] →
    l ∈ e.skipped ∨ (∀ c ∈ w.levels, c.level ≠ l) → e.assigned l = []

/-! ## The rules that apply -/

section Routed

variable {w : Workflow} {rules rules' : List Rule}

/-- Rules by descending priority are told by those of each priority. -/
theorem eq_of_descending (h : rules.Pairwise fun a b => b.priority ≤ a.priority)
    (h' : rules'.Pairwise fun a b => b.priority ≤ a.priority)
    (htied : ∀ priority, (rules.filter fun r => r.priority == priority) =
      rules'.filter fun r => r.priority == priority) : rules = rules' := by
  have hmem : ∀ {as bs : List Rule}, (∀ priority, (as.filter fun r => r.priority == priority) =
      bs.filter fun r => r.priority == priority) → ∀ r ∈ as, r ∈ bs := by
    intro as bs hsame r hr
    have hfound : r ∈ as.filter fun q => q.priority == r.priority :=
      List.mem_filter.mpr ⟨hr, beq_self_eq_true _⟩
    rw [hsame] at hfound
    exact (List.mem_filter.mp hfound).1
  have hle : ∀ {a r : Rule} {rest : List Rule},
      (a :: rest).Pairwise (fun p q => q.priority ≤ p.priority) → r ∈ a :: rest →
      r.priority ≤ a.priority := by
    intro a r rest hpairs hr
    rcases List.mem_cons.mp hr with rfl | hr
    · exact Int.le_refl _
    · exact (List.pairwise_cons.mp hpairs).1 r hr
  induction rules generalizing rules' with
  | nil =>
    refine (List.eq_nil_iff_forall_not_mem.mpr fun r hr => ?_).symm
    exact absurd (hmem (fun p => (htied p).symm) r hr) List.not_mem_nil
  | cons a rest ih =>
    cases rules' with
    | nil => exact absurd (hmem htied a List.mem_cons_self) List.not_mem_nil
    | cons b rest' =>
      -- Both heads have the highest priority there is, so they are the first ones of this priority.
      have hpriority : a.priority = b.priority := by
        have hab := hle h' (hmem htied a List.mem_cons_self)
        have hba := hle h (hmem (fun p => (htied p).symm) b List.mem_cons_self)
        omega
      have hheads := htied a.priority
      simp only [List.filter_cons, beq_self_eq_true, hpriority, if_true] at hheads
      obtain ⟨rfl, -⟩ := List.cons.inj hheads
      have hrest : ∀ priority, (rest.filter fun r => r.priority == priority) =
          rest'.filter fun r => r.priority == priority := by
        intro priority
        have hsame := htied priority
        rw [List.filter_cons, List.filter_cons] at hsame
        split at hsame
        · exact (List.cons.inj hsame).2
        · exact hsame
      rw [ih (List.pairwise_cons.mp h).2 (List.pairwise_cons.mp h').2 hrest]

/-- One list of rules at most are those that apply, in this order. -/
theorem Routes.unique (h : w.Routes snapshot rules) (h' : w.Routes snapshot rules') :
    rules = rules' :=
  eq_of_descending h.descending h'.descending fun p => (h.tied p).trans (h'.tied p).symm

theorem Routes.mem_iff (h : w.Routes snapshot rules) {r : Rule} :
    r ∈ rules ↔ r ∈ w.rules ∧ r.applies snapshot = true := by
  have htied : r ∈ (rules.filter fun q => q.priority == r.priority) ↔
      r ∈ w.rules.filter fun q => q.applies snapshot && q.priority == r.priority := by
    rw [h.tied]
  simpa [List.mem_filter] using htied

theorem perm_ranked (w : Workflow) : w.ranked.Perm w.rules := List.mergeSort_perm _ _

theorem descending_ranked (w : Workflow) :
    w.ranked.Pairwise fun a b => b.priority ≤ a.priority := by
  have hpairs : w.ranked.Pairwise fun a b => decide (b.priority ≤ a.priority) = true := by
    refine List.pairwise_mergeSort (fun a b c hab hbc => ?_) (fun a b => ?_) w.rules
    · exact decide_eq_true (Int.le_trans (of_decide_eq_true hbc) (of_decide_eq_true hab))
    · rw [Bool.or_eq_true, decide_eq_true_eq, decide_eq_true_eq]
      exact Int.le_total _ _
  exact hpairs.imp of_decide_eq_true

/-- Ranking keeps the order of rules with one priority. -/
theorem tied_ranked (w : Workflow) (priority : Int) :
    (w.ranked.filter fun r => r.priority == priority) =
      w.rules.filter fun r => r.priority == priority := by
  have hequal : (w.rules.filter fun r => r.priority == priority).Pairwise
      fun a b => decide (b.priority ≤ a.priority) = true := by
    refine List.pairwise_iff_forall_sublist.mpr fun {a b} hab => ?_
    have ha := (List.mem_filter.mp (hab.subset List.mem_cons_self)).2
    have hb := (List.mem_filter.mp (hab.subset (List.mem_cons_of_mem _ List.mem_cons_self))).2
    rw [beq_iff_eq] at ha hb
    exact decide_eq_true (Int.le_of_eq (hb.trans ha.symm))
  -- What is in order already stays in this order, and nothing else has this priority.
  have hsublist : (w.rules.filter fun r => r.priority == priority).Sublist w.ranked := by
    refine List.sublist_mergeSort (fun a b c hab hbc => ?_) (fun a b => ?_) hequal
      List.filter_sublist
    · exact decide_eq_true (Int.le_trans (of_decide_eq_true hbc) (of_decide_eq_true hab))
    · rw [Bool.or_eq_true, decide_eq_true_eq, decide_eq_true_eq]
      exact Int.le_total _ _
  have hfiltered := hsublist.filter fun r => r.priority == priority
  rw [List.filter_filter] at hfiltered
  simp only [Bool.and_self] at hfiltered
  exact (hfiltered.eq_of_length (w.perm_ranked.filter _).length_eq.symm).symm

/-- Where no condition fails, the rules that hold are those that apply. -/
theorem holding_eq (h : ∀ r ∈ rules, r.Answers snapshot) :
    holding snapshot rules = .ok (rules.filter fun r => r.applies snapshot) := by
  induction rules with
  | nil => rfl
  | cons r rest ih =>
    have hrest := ih fun q hq => h q (List.mem_cons_of_mem _ hq)
    unfold holding
    rw [hrest, List.filter_cons]
    by_cases henabled : r.enabled = true
    · obtain ⟨isHeld, hheld⟩ := h r List.mem_cons_self henabled
      have happlies : r.applies snapshot = isHeld := by
        simp only [applies, henabled, hheld, Bool.true_and]
      rw [if_pos henabled, hheld, happlies]
      rfl
    · have happlies : r.applies snapshot = false := by
        simp only [applies, Bool.not_eq_true] at henabled ⊢
        rw [henabled, Bool.false_and]
      rw [if_neg henabled, happlies]
      rfl

/-- So a workflow finds the rules that apply. -/
theorem exists_matching (h : ∀ r ∈ w.rules, r.Answers snapshot) :
    ∃ rules, w.matching snapshot = .ok rules ∧ w.Routes snapshot rules := by
  refine ⟨_, holding_eq fun r hr => h r (w.perm_ranked.mem_iff.mp hr),
    w.descending_ranked.sublist List.filter_sublist, fun priority => ?_⟩
  rw [List.filter_filter, ← List.filter_filter, List.filter_comm, w.tied_ranked, List.filter_filter]

end Routed

/-! ## What they come to -/

section Meant

variable {w : Workflow} {rules : List Rule} {l : Level}

theorem flatMap_assigns (rules : List Rule) (l : Level) :
    (rules.flatMap fun r => r.assigns l) = approversFor rules l := by
  unfold approversFor
  induction rules with
  | nil => rfl
  | cons r rest ih =>
    rw [List.flatMap_cons, ih, List.filter_cons, assigns]
    split <;> rfl

theorem any_requires : (rules.any fun r => r.requires l) = true ↔
    ∃ r ∈ rules, r.action.routing = .requireLevel ∧ r.action.level = some l := by
  simp only [List.any_eq_true, requires, Bool.and_eq_true, beq_iff_eq]

theorem any_skips : (rules.any fun r => r.skips l) = true ↔
    ∃ top, IsHighest (Target rules) top ∧ l.index < top.index := by
  rw [← exists_lt_iff]
  simp only [List.any_eq_true, skips, Bool.and_eq_true, beq_iff_eq, Option.any_eq_true,
    decide_eq_true_eq, Target]
  constructor
  · rintro ⟨r, hr, hrouting, target, htarget, hlt⟩
    exact ⟨target, ⟨r, hr, hrouting, htarget⟩, hlt⟩
  · rintro ⟨target, ⟨r, hr, hrouting, htarget⟩, hlt⟩
    exact ⟨r, hr, hrouting, target, htarget, hlt⟩

theorem skipped_evaluationOf (w : Workflow) (rules : List Rule) :
    (w.evaluationOf rules).skipped = Level.all.filter fun l => rules.any fun r => r.skips l := rfl

theorem required_evaluationOf (w : Workflow) (rules : List Rule) :
    (w.evaluationOf rules).required = Level.all.filter fun l =>
      rules.any (fun r => r.requires l) || (w.demands l && !rules.any fun r => r.skips l) := rfl

theorem assigned_evaluationOf (w : Workflow) (rules : List Rule) (l : Level) :
    (w.evaluationOf rules).assigned l =
      if (approversFor rules l).isEmpty && !rules.any (fun r => r.skips l) then
        ((w.configOf? l).map (·.approvers)).getD []
      else approversFor rules l := by
  rw [← flatMap_assigns]
  rfl

theorem mem_skipped :
    l ∈ (w.evaluationOf rules).skipped ↔ (rules.any fun r => r.skips l) = true := by
  rw [skipped_evaluationOf, List.mem_filter]
  exact and_iff_right l.mem_all

theorem mem_of_configOf? {c : LevelConfig} (h : w.configOf? l = some c) :
    c ∈ w.levels ∧ c.level = l :=
  ⟨List.mem_of_find?_eq_some h, by simpa using List.find?_some h⟩

/-- The configuration of a level that is configured once. -/
theorem configOf?_eq (h : (w.levels.map (·.level)).Nodup) {c : LevelConfig} (hc : c ∈ w.levels) :
    w.configOf? c.level = some c := by
  have hthere : (w.configOf? c.level).isSome :=
    List.find?_isSome.mpr ⟨c, hc, beq_self_eq_true _⟩
  obtain ⟨d, hd⟩ := Option.isSome_iff_exists.mp hthere
  obtain ⟨hmem, hlevel⟩ := mem_of_configOf? hd
  rw [hd, List.inj_on_of_nodup_map h hmem hc hlevel]

theorem configOf?_eq_none (h : ∀ c ∈ w.levels, c.level ≠ l) : w.configOf? l = none :=
  List.find?_eq_none.mpr fun c hc hlevel => h c hc (beq_iff_eq.mp hlevel)

theorem demands_iff (h : (w.levels.map (·.level)).Nodup) :
    w.demands l = true ↔ ∃ c ∈ w.levels, c.level = l ∧ c.isOptional = false := by
  unfold demands
  constructor
  · intro hdemands
    obtain ⟨c, hc, hneeded⟩ := (Option.any_eq_true _ _).mp hdemands
    obtain ⟨hmem, hlevel⟩ := mem_of_configOf? hc
    exact ⟨c, hmem, hlevel, (Bool.not_eq_true' _).mp hneeded⟩
  · rintro ⟨c, hc, rfl, hneeded⟩
    rw [configOf?_eq h hc, Option.any_some, hneeded]
    rfl

/-- What the levels and the rules that apply come to means what it should. -/
theorem means_evaluationOf (hlevels : (w.levels.map (·.level)).Nodup)
    (h : w.Routes snapshot rules) : w.Means snapshot (w.evaluationOf rules) where
  routed := h
  autoApproved := by
    show rules.any Rule.approves = true ↔ _
    simp only [List.any_eq_true, approves, beq_iff_eq]
    rfl
  skipped _ := mem_skipped.trans any_skips
  skipped_inOrder := skipped_evaluationOf w rules ▸ inOrder_filter _
  required l := by
    rw [required_evaluationOf, List.mem_filter, Bool.or_eq_true, any_requires, Bool.and_eq_true,
      Bool.not_eq_true', ← Bool.not_eq_true, ← mem_skipped (w := w), demands_iff hlevels, and_iff_right l.mem_all]
    refine or_congr_right ⟨?_, ?_⟩
    · rintro ⟨⟨c, hc, hlevel, hneeded⟩, hskipped⟩
      exact ⟨c, hc, hlevel, hneeded, hskipped⟩
    · rintro ⟨c, hc, hlevel, hneeded, hskipped⟩
      exact ⟨⟨c, hc, hlevel, hneeded⟩, hskipped⟩
  required_inOrder := required_evaluationOf w rules ▸ inOrder_filter _
  assigned_byRules l hrules := by
    have hsome : (approversFor rules l).isEmpty = false := List.isEmpty_eq_false_iff.mpr hrules
    rw [assigned_evaluationOf, hsome]
    rfl
  assigned_configured c hc hrules hskipped := by
    have hnone : approversFor rules c.level = [] := hrules
    have hkept : (rules.any fun r => r.skips c.level) = false :=
      Bool.eq_false_iff.mpr fun hany => hskipped (mem_skipped.mpr hany)
    rw [assigned_evaluationOf, hnone, hkept, configOf?_eq hlevels hc]
    rfl
  assigned_nobody l hrules hnobody := by
    have hnone : approversFor rules l = [] := hrules
    rw [assigned_evaluationOf, hnone]
    rcases hnobody with hskipped | hmissing
    · rw [mem_skipped.mp hskipped]
      rfl
    · rw [configOf?_eq_none hmissing, Option.map_none, Option.getD_none, ite_self]

/-- One evaluation at most means this. -/
theorem Means.unique {e e' : Evaluation} (h : w.Means snapshot e) (h' : w.Means snapshot e') :
    e = e' := by
  have hrouted := h.routed.unique h'.routed
  have hskipped : e.skipped = e'.skipped := by
    refine h.skipped_inOrder.ext h'.skipped_inOrder fun l => ?_
    rw [h.skipped, h'.skipped, hrouted]
  have hrequired : e.required = e'.required := by
    refine h.required_inOrder.ext h'.required_inOrder fun l => ?_
    rw [h.required, h'.required, hrouted, hskipped]
  have happroved : e.autoApproved = e'.autoApproved := by
    rw [Bool.eq_iff_iff, h.autoApproved, h'.autoApproved, hrouted]
  have hassigned : e.assigned = e'.assigned := by
    funext l
    by_cases hrules : approversFor e'.routed l = []
    · by_cases hconfigured : ∃ c ∈ w.levels, c.level = l ∧ l ∉ e'.skipped
      · obtain ⟨c, hc, rfl, hkept⟩ := hconfigured
        rw [h.assigned_configured c hc (hrouted ▸ hrules) (hskipped ▸ hkept),
          h'.assigned_configured c hc hrules hkept]
      · have hnobody : l ∈ e'.skipped ∨ ∀ c ∈ w.levels, c.level ≠ l := by
          by_cases hl : l ∈ e'.skipped
          · exact .inl hl
          · exact .inr fun c hc hlevel => hconfigured ⟨c, hc, hlevel, hl⟩
        rw [h.assigned_nobody l (hrouted ▸ hrules) (hskipped ▸ hnobody),
          h'.assigned_nobody l hrules hnobody]
    · rw [h.assigned_byRules l (hrouted ▸ hrules), h'.assigned_byRules l hrules, hrouted]
  cases e
  cases e'
  simp only at hrouted hskipped hrequired happroved hassigned
  rw [hrouted, hskipped, hrequired, happroved, hassigned]

end Meant

/-! ## The order of the rules -/

section Reordered

variable {w w' : Workflow} {rules rules' : List Rule}

/-- The same rules, in any order and with any priorities: those that apply do the same. -/
theorem Routes.exists_action (h : w.Routes snapshot rules) (h' : w'.Routes snapshot rules')
    (hrules : (w.rules.map Rule.unranked).Perm (w'.rules.map Rule.unranked)) {P : RuleAction → Prop}
    (hfound : ∃ r ∈ rules, P r.action) : ∃ r ∈ rules', P r.action := by
  obtain ⟨r, hr, haction⟩ := hfound
  obtain ⟨hr, happlies⟩ := h.mem_iff.mp hr
  obtain ⟨r', hr', hsame⟩ := List.mem_map.mp (hrules.mem_iff.mp (List.mem_map_of_mem hr))
  -- Neither what a rule does nor whether it applies has to do with its priority.
  have hsame_action : r'.unranked.action = r.unranked.action := by rw [hsame]
  have hsame_applies : r'.unranked.applies snapshot = r.unranked.applies snapshot := by rw [hsame]
  have hfound : r' ∈ rules' := h'.mem_iff.mpr ⟨hr', hsame_applies.trans happlies⟩
  exact ⟨r', hfound, (show r'.action = r.action from hsame_action) ▸ haction⟩

theorem Routes.exists_action_iff (h : w.Routes snapshot rules) (h' : w'.Routes snapshot rules')
    (hrules : (w.rules.map Rule.unranked).Perm (w'.rules.map Rule.unranked))
    (P : RuleAction → Prop) : (∃ r ∈ rules, P r.action) ↔ ∃ r ∈ rules', P r.action :=
  ⟨h.exists_action h' hrules, h'.exists_action h hrules.symm⟩

/-- Neither the levels nor whether approval is needed depends on the order of the rules. -/
theorem Means.eq_of_perm {e e' : Evaluation} (h : w.Means snapshot e) (h' : w'.Means snapshot e')
    (hlevels : w'.levels = w.levels)
    (hrules : (w.rules.map Rule.unranked).Perm (w'.rules.map Rule.unranked)) :
    e'.required = e.required ∧ e'.skipped = e.skipped ∧ e'.autoApproved = e.autoApproved := by
  have hiff := h.routed.exists_action_iff h'.routed hrules
  have htarget : Target e.routed = Target e'.routed := by
    funext l
    exact propext (hiff fun a => a.routing = .skipLevel ∧ a.skipTo = some l)
  have hskipped : e'.skipped = e.skipped := by
    refine h'.skipped_inOrder.ext h.skipped_inOrder fun l => ?_
    rw [h.skipped, h'.skipped, htarget]
  refine ⟨?_, hskipped, ?_⟩
  · refine h'.required_inOrder.ext h.required_inOrder fun l => ?_
    rw [h.required, h'.required, hskipped, hlevels,
      hiff fun a => a.routing = .requireLevel ∧ a.level = some l]
  · rw [Bool.eq_iff_iff, h.autoApproved, h'.autoApproved, hiff fun a => a.routing = .autoApprove]

theorem answers_of_perm (h : ∀ r ∈ w.rules, r.Answers snapshot)
    (hrules : (w.rules.map Rule.unranked).Perm (w'.rules.map Rule.unranked)) :
    ∀ r ∈ w'.rules, r.Answers snapshot := by
  intro r hr
  obtain ⟨q, hq, hsame⟩ := List.mem_map.mp (hrules.mem_iff.mpr (List.mem_map_of_mem hr))
  have hunranked : q.unranked.Answers snapshot := h q hq
  rw [hsame] at hunranked
  exact hunranked

end Reordered

theorem exists_evaluate {w : Workflow} (hlevels : (w.levels.map (·.level)).Nodup)
    (h : ∀ r ∈ w.rules, r.Answers snapshot) :
    ∃ e, w.evaluate snapshot = .ok e ∧ w.Means snapshot e := by
  obtain ⟨rules, hmatching, hroutes⟩ := exists_matching h
  refine ⟨w.evaluationOf rules, ?_, means_evaluationOf hlevels hroutes⟩
  unfold evaluate
  rw [hmatching]
  rfl

/-- A workflow of two levels, for an example: open items skip the first level and have to pass the
    third one. -/
def tiered : Workflow where
  name := "Tiered"
  levels := [{ level := .first, approvers := ["ann"] }, { level := .second, approvers := ["bob"] }]
  rules := [
    { id := "free", name := "Free", condition := whenOpen
      action := { routing := .autoApprove }, priority := 9, enabled := false },
    { id := "skip", name := "Not the first", condition := whenOpen
      action := { routing := .skipLevel, skipTo := some .second }, priority := 5 },
    { id := "third", name := "The third", condition := whenOpen
      action := { routing := .requireLevel, level := some .third }, priority := 1 },
    { id := "cyd", name := "Cyd", condition := whenOpen
      action := { routing := .assignApprover, level := some .second, approvers := some ["cyd"] }
      priority := 1 }]
where
  whenOpen : ConditionForm := .node (.test .equals) (some "status") (.text "open") none

theorem ofPayload_tiered : ofPayload tiered.toValue = .ok tiered := by
  show Checked.toResult "Invalid workflow configuration" (settle tiered) = _
  unfold settle
  rw [if_pos (by decide), List.mergeSort_of_pairwise (by decide)]
  rfl

theorem evaluate_tiered : tiered.evaluate [("status", .text "open")] =
    .ok (tiered.evaluationOf (tiered.rules.drop 1)) := by
  have hranked : tiered.ranked = tiered.rules := List.mergeSort_of_pairwise (by decide)
  unfold evaluate matching
  rw [hranked]
  rfl

/-- The evaluation of a workflow that was accepted never fails by itself. It is the one that means
    what it should, and the same rules in another order, or with other priorities, require and skip
    the same levels and make approval unnecessary for the same items. -/
theorem evaluate_means {payload : Value} {w : Workflow} (hw : ofPayload payload = .ok w)
    (hanswers : ∀ r ∈ w.rules, r.Answers snapshot) :
    ∃ e, w.evaluate snapshot = .ok e ∧ (∀ e', w.Means snapshot e' ↔ e' = e) ∧
      ∀ w' : Workflow, w'.levels = w.levels →
        (w.rules.map Rule.unranked).Perm (w'.rules.map Rule.unranked) →
        ∃ e', w'.evaluate snapshot = .ok e' ∧ e'.required = e.required ∧ e'.skipped = e.skipped ∧
          e'.autoApproved = e.autoApproved := by
  have hnodup := (admitted_of_payload hw).levels.nodup
  obtain ⟨e, he, hmeans⟩ := exists_evaluate hnodup hanswers
  refine ⟨e, he, fun e' => ⟨fun h => h.unique hmeans, fun h => h ▸ hmeans⟩, ?_⟩
  intro w' hlevels hrules
  have hnodup' : (w'.levels.map (·.level)).Nodup := hlevels ▸ hnodup
  obtain ⟨e', he', hmeans'⟩ := exists_evaluate hnodup' (answers_of_perm hanswers hrules)
  exact ⟨e', he', hmeans.eq_of_perm hmeans' hlevels hrules⟩

theorem evaluate_means_tiered :
    ofPayload tiered.toValue = .ok tiered ∧
      (∀ r ∈ tiered.rules, r.Answers [("status", .text "open")]) ∧
      ∃ e, tiered.evaluate [("status", .text "open")] = .ok e ∧
        (∀ e', tiered.Means [("status", .text "open")] e' ↔ e' = e) ∧
        e.routed.map (·.id) = ["skip", "third", "cyd"] ∧ e.autoApproved = false ∧
        e.skipped = [.first] ∧ e.required = [.second, .third] ∧ e.assigned .first = [] ∧
        e.assigned .second = ["cyd"] := by
  have hanswers : ∀ r ∈ tiered.rules, r.Answers [("status", .text "open")] := by
    intro r hr _
    simp only [tiered, List.mem_cons, List.not_mem_nil, or_false] at hr
    rcases hr with rfl | rfl | rfl | rfl <;> exact ⟨true, rfl⟩
  obtain ⟨e, he, hmeans, -⟩ := evaluate_means ofPayload_tiered hanswers
  refine ⟨ofPayload_tiered, hanswers, e, he, hmeans, ?_⟩
  rw [evaluate_tiered] at he
  cases he
  exact ⟨rfl, rfl, rfl, rfl, rfl, rfl⟩

end Workflow
end Signoff
