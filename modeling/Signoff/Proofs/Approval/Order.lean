import Signoff.Proofs.Approval.Turns

/-! # Levels in order

    While the workflow says the same about an item, its levels are opened one
    after another, from the first one upwards:

    * `Workflow.Opens.on_opened`, `on_passedOver`, `on_other`: the rows behind an
      opening, level by level.
    * `Stacked`: no level without rows is in front of one with rows.
    * `Orderly`: the levels with rows are those up to some required level, and
      every one in front of the highest is satisfied.
    * `Orderly.kept`, `Orderly.opened`: decisions and openings keep this.
-/

namespace Signoff

variable {w : Workflow} {e : Evaluation} {rows rows' : List Approval} {o : Opening} {l k : Level}
  {itemId key : Int} {now : Moment}

/-! ## Rows of an opening, level by level -/

/-- The rows on a level are those of the drafts for it. -/
theorem Draft.forall₂_on (ds : List Draft) (l : Level) :
    List.Forall₂ (fun (d : Draft) (a : Approval) => ∃ k, a = d.row itemId now k)
      (ds.filter fun d => d.level == l.name)
      (Approval.on (Draft.rowsFrom itemId now key ds) l) := by
  induction ds generalizing key with
  | nil => exact .nil
  | cons d rest ih =>
    have hrows : Approval.on (Draft.rowsFrom itemId now key (d :: rest)) l =
        if d.level == l.name then
          d.row itemId now key :: Approval.on (Draft.rowsFrom itemId now (key + 1) rest) l
        else Approval.on (Draft.rowsFrom itemId now (key + 1) rest) l := List.filter_cons
    rw [hrows, List.filter_cons]
    split
    · exact .cons ⟨key, rfl⟩ ih
    · exact ih

/-- Of drafts for different levels, one at most is for a level. -/
theorem Draft.filter_levels {f : Level → Draft} (hf : ∀ k, (f k).level = k.name) {ls : List Level}
    (hls : ls.Nodup) (l : Level) :
    (ls.map f).filter (fun d => d.level == l.name) = if l ∈ ls then [f l] else [] := by
  have hname : ∀ k ∈ ls, ((fun d : Draft => d.level == l.name) ∘ f) k = (k == l) := by
    intro k _
    have hiff : k.name = l.name ↔ k = l := ⟨Level.name_injective, congrArg Level.name⟩
    simp [hf, hiff]
  rw [List.filter_map, List.filter_congr hname, List.filter_beq]
  split
  · next hmem =>
    rw [List.count_eq_one_of_mem hls hmem]
    rfl
  · next hmem =>
    rw [List.count_eq_zero.mpr hmem]
    rfl

/-- Drafts for known levels become rows on known levels. -/
theorem Draft.named_rowsFrom {ds : List Draft} (h : ∀ d ∈ ds, ∃ l : Level, d.level = l.name) :
    ∀ a ∈ Draft.rowsFrom itemId now key ds, ∃ l : Level, a.level = l.name := by
  intro a ha
  obtain ⟨d, hd, k, rfl⟩ := Draft.mem_rowsFrom ha
  exact h d hd

/-- The drafts of an opening are for known levels. -/
theorem Opening.named_drafts (o : Opening) : ∀ d ∈ o.drafts, ∃ l : Level, d.level = l.name := by
  intro d hd
  rcases List.mem_append.mp hd with hd | hd
  · obtain ⟨l, -, rfl⟩ := List.mem_map.mp hd
    exact ⟨l, rfl⟩
  · obtain ⟨approver, -, rfl⟩ := List.mem_map.mp hd
    exact ⟨o.level, rfl⟩

theorem on_append (rows new : List Approval) (l : Level) :
    Approval.on (rows ++ new) l = Approval.on rows l ++ Approval.on new l :=
  List.filter_append ..

namespace Workflow.Opens

variable (ho : w.Opens e rows o)

include ho

theorem not_mem_passedOver : o.level ∉ o.passedOver := by
  intro hmem
  have := ((ho.mem_passedOver o.level).mp hmem).1
  omega

/-- The opened level gets a row for each of its approvers. -/
theorem drafts_level :
    o.drafts.filter (fun d => d.level == o.level.name) = o.approvers.map (Draft.asked o.level) := by
  unfold Opening.drafts
  have hpassed : (o.passedOver.map Draft.passedOver).filter (fun d => d.level == o.level.name) = [] := by
    rw [List.filter_eq_nil_iff]
    intro d hd hname
    obtain ⟨k, hk, rfl⟩ := List.mem_map.mp hd
    have hsame : k = o.level := Level.name_injective (beq_iff_eq.mp hname)
    exact ho.not_mem_passedOver (hsame ▸ hk)
  have hasked : (o.approvers.map (Draft.asked o.level)).filter (fun d => d.level == o.level.name) =
      o.approvers.map (Draft.asked o.level) := by
    rw [List.filter_eq_self]
    intro d hd
    obtain ⟨approver, -, rfl⟩ := List.mem_map.mp hd
    exact beq_self_eq_true _
  rw [List.filter_append, hpassed, hasked, List.nil_append]

/-- Any other level gets a row if it is passed over. -/
theorem drafts_ne (hne : l ≠ o.level) :
    o.drafts.filter (fun d => d.level == l.name) =
      if l ∈ o.passedOver then [Draft.passedOver l] else [] := by
  unfold Opening.drafts
  have hasked : (o.approvers.map (Draft.asked o.level)).filter (fun d => d.level == l.name) = [] := by
    rw [List.filter_eq_nil_iff]
    intro d hd hname
    obtain ⟨approver, -, rfl⟩ := List.mem_map.mp hd
    exact hne (Level.name_injective (beq_iff_eq.mp hname)).symm
  rw [List.filter_append, hasked, List.append_nil,
    Draft.filter_levels (fun _ => rfl) ho.passedOver_nodup]

/-- Passed over levels are not required. -/
theorem not_required (h : l ∈ o.passedOver) : l ∉ e.required := by
  intro hmem
  obtain ⟨hlt, -, hbehind⟩ := (ho.mem_passedOver l).mp h
  have := hbehind l hmem hlt
  omega

variable (itemId : Int) (now : Moment) (key : Int)

/-- The rows on the opened level. -/
theorem on_opened :
    List.Forall₂ (fun (d : Draft) (a : Approval) => ∃ k, a = d.row itemId now k)
      (o.approvers.map (Draft.asked o.level))
      (Approval.on (rows ++ Draft.rowsFrom itemId now key o.drafts) o.level) := by
  rw [on_append, ho.isEmpty, List.nil_append, ← ho.drafts_level]
  exact Draft.forall₂_on o.drafts o.level

theorem approvers_opened :
    (Approval.on (rows ++ Draft.rowsFrom itemId now key o.drafts) o.level).map (·.approver) =
      o.approvers := by
  have hrows := ho.on_opened itemId now key
  rw [List.forall₂_map_left_iff] at hrows
  have happrovers : List.Forall₂ (fun (p : Option String) (a : Approval) => p = a.approver)
      o.approvers (Approval.on (rows ++ Draft.rowsFrom itemId now key o.drafts) o.level) :=
    hrows.imp fun p a ⟨k, ha⟩ => by rw [ha]; rfl
  rw [← List.forall₂_map_right_iff, List.forall₂_eq_eq_eq] at happrovers
  exact happrovers.symm

/-- Every opening asks somebody. -/
theorem opened_ne_nil :
    Approval.on (rows ++ Draft.rowsFrom itemId now key o.drafts) o.level ≠ [] := by
  intro hnil
  have happrovers := ho.approvers_opened itemId now key
  rw [hnil, ho.approvers] at happrovers
  exact Workflow.approversOn_ne_nil w e o.level happrovers.symm

/-- Its rows are all pending. -/
theorem pending_opened : ∀ a ∈ Approval.on (rows ++ Draft.rowsFrom itemId now key o.drafts) o.level,
    a.status = .pending := by
  intro a ha
  rw [on_append, ho.isEmpty, List.nil_append] at ha
  obtain ⟨hmem, hlevel⟩ := List.mem_filter.mp ha
  obtain ⟨d, hd, k, rfl⟩ := Draft.mem_rowsFrom hmem
  rcases List.mem_append.mp hd with hd | hd
  · obtain ⟨l, hl, rfl⟩ := List.mem_map.mp hd
    have hsame : l = o.level := Level.name_injective (beq_iff_eq.mp hlevel)
    exact absurd (hsame ▸ hl) ho.not_mem_passedOver
  · obtain ⟨approver, -, rfl⟩ := List.mem_map.mp hd
    rfl

/-- So it is not satisfied yet. -/
theorem unsatisfied_opened {w' : Workflow} (hw : w'.Sound) :
    w'.satisfied o.level.name
      (Approval.on (rows ++ Draft.rowsFrom itemId now key o.drafts) o.level) = false := by
  by_contra hsatisfied
  obtain ⟨a, ha, happroved⟩ := hw.approved_of_satisfied (by simpa using hsatisfied)
  rw [ho.pending_opened itemId now key a ha] at happroved
  cases happroved

/-- A level that is passed over gets one row, which is approved. -/
theorem on_passedOver (hl : l ∈ o.passedOver) :
    ∃ a, Approval.on (rows ++ Draft.rowsFrom itemId now key o.drafts) l = [a] ∧
      a.status = .approved := by
  have hne : l ≠ o.level := by
    rintro rfl
    exact ho.not_mem_passedOver hl
  have hrows : List.Forall₂ (fun (d : Draft) (a : Approval) => ∃ k, a = d.row itemId now k) _
      (Approval.on (Draft.rowsFrom itemId now key o.drafts) l) := Draft.forall₂_on o.drafts l
  rw [ho.drafts_ne hne, if_pos hl] at hrows
  obtain ⟨a, rest, ⟨k, ha⟩, hrest, hon⟩ := List.forall₂_cons_left_iff.mp hrows
  rw [List.forall₂_nil_left_iff.mp hrest] at hon
  refine ⟨a, ?_, by rw [ha]; rfl⟩
  rw [on_append, ((ho.mem_passedOver l).mp hl).2.1, List.nil_append, hon]

/-- Every other level is as before. -/
theorem on_other (hne : l ≠ o.level) (hl : l ∉ o.passedOver) :
    Approval.on (rows ++ Draft.rowsFrom itemId now key o.drafts) l = Approval.on rows l := by
  have hrows : List.Forall₂ (fun (d : Draft) (a : Approval) => ∃ k, a = d.row itemId now k) _
      (Approval.on (Draft.rowsFrom itemId now key o.drafts) l) := Draft.forall₂_on o.drafts l
  rw [ho.drafts_ne hne, if_neg hl] at hrows
  rw [on_append, List.forall₂_nil_left_iff.mp hrows, List.append_nil]

end Workflow.Opens

/-! ## Levels without a gap -/

/-- Where a level has rows, so has every level in front of it. -/
def Stacked (rows : List Approval) : Prop :=
  ∀ l k : Level, l.index < k.index → Approval.on rows k ≠ [] → Approval.on rows l ≠ []

namespace Stacked

theorem nil : Stacked [] := fun _ _ _ h => absurd rfl h

theorem kept (h : Stacked rows) (hkept : AllKept rows rows') : Stacked rows' := by
  intro l k hlt hk
  exact (hkept.on l).ne_nil_iff.mpr (h l k hlt ((hkept.on k).ne_nil_iff.mp hk))

/-- Only levels in front of an opened one have rows. -/
theorem lt_opened (h : Stacked rows) (ho : w.Opens e rows o) (hl : Approval.on rows l ≠ []) :
    l.index < o.level.index := by
  by_contra hge
  rcases Nat.lt_or_ge o.level.index l.index with hlt | hle
  · exact h o.level l hlt hl ho.isEmpty
  · have hsame : l = o.level := Level.index_injective (by omega)
    exact hl (hsame ▸ ho.isEmpty)

/-- Behind an opening, the levels with rows are those up to the opened one. -/
theorem on_opened_ne_nil (h : Stacked rows) (ho : w.Opens e rows o) (l : Level) :
    Approval.on (rows ++ Draft.rowsFrom itemId now key o.drafts) l ≠ [] ↔
      l.index ≤ o.level.index := by
  by_cases hlevel : l = o.level
  · subst hlevel
    exact ⟨fun _ => Nat.le_refl _, fun _ => ho.opened_ne_nil itemId now key⟩
  · by_cases hpassed : l ∈ o.passedOver
    · obtain ⟨a, ha, -⟩ := ho.on_passedOver itemId now key hpassed
      have := ((ho.mem_passedOver l).mp hpassed).1
      rw [ha]
      exact ⟨fun _ => by omega, fun _ => List.cons_ne_nil _ _⟩
    · rw [ho.on_other itemId now key hlevel hpassed]
      refine ⟨fun hl => Nat.le_of_lt (h.lt_opened ho hl), fun hle hnil => ?_⟩
      have hlt : l.index < o.level.index := by
        rcases Nat.lt_or_eq_of_le hle with hlt | heq
        · exact hlt
        · exact absurd (Level.index_injective heq) hlevel
      -- A level without rows behind all required ones in front would be passed over.
      refine hpassed ((ho.mem_passedOver l).mpr ⟨hlt, hnil, fun p hp hplt => ?_⟩)
      by_contra hge
      have hrows := (ho.front p hp hplt).1
      rcases Nat.lt_or_ge l.index p.index with hlp | hpl
      · exact h l p hlp hrows hnil
      · have hsame : l = p := Level.index_injective (by omega)
        exact hrows (hsame ▸ hnil)

theorem opened (h : Stacked rows) (ho : w.Opens e rows o) :
    Stacked (rows ++ Draft.rowsFrom itemId now key o.drafts) := by
  intro l k hlt hk
  have hle := (h.on_opened_ne_nil ho k).mp hk
  exact (h.on_opened_ne_nil ho l).mpr (by omega)

end Stacked

/-! ## The invariant -/

/-- The levels of an item are opened in order, as far as the evaluation of its workflow requires. -/
structure Orderly (w : Workflow) (e : Evaluation) (rows : List Approval) : Prop where
  named : ∀ a ∈ rows, ∃ l : Level, a.level = l.name
  /-- No level has rows, or those that have are the levels up to some required one. -/
  levels : (∀ l, Approval.on rows l = []) ∨
    ∃ top ∈ e.required, ∀ l, Approval.on rows l ≠ [] ↔ l.index ≤ top.index
  /-- Every level in front of another one with rows is satisfied, and by an approval. -/
  cleared : ∀ l k : Level, l.index < k.index → Approval.on rows k ≠ [] →
    w.satisfied l.name (Approval.on rows l) = true ∧
      ∃ a ∈ Approval.on rows l, a.status = .approved
  /-- A level with rows that is not required was passed over. -/
  passedOver : ∀ l, l ∉ e.required → Approval.on rows l ≠ [] →
    ∃ a, Approval.on rows l = [a] ∧ a.status = .approved
  /-- A required level with rows asks each approver of a parallel level once, or asks once. -/
  asked : ∀ l ∈ e.required, Approval.on rows l ≠ [] →
    if (w.configOf? l).any (·.isParallel) ∧ Workflow.named e l ≠ [] then
      (Approval.on rows l).map (·.approver) = (Workflow.named e l).eraseDups.map some
    else (Approval.on rows l).length = 1

/-- Approvers with a name are kept. -/
theorem AllKept.approvers (h : AllKept rows rows') {users : List String}
    (hnamed : ∀ user ∈ users, user.isEmpty = false)
    (husers : rows.map (·.approver) = users.map some) : rows'.map (·.approver) = users.map some := by
  induction h generalizing users with
  | nil => exact husers
  | @cons a a' rest rest' ha _ ih =>
    cases users with
    | nil => cases husers
    | cons user others =>
      simp only [List.map_cons, List.cons.injEq] at husers ⊢
      have hhas : a.hasApprover = true := by
        rw [Approval.hasApprover, husers.1]
        simp [hnamed user (List.mem_cons_self ..)]
      exact ⟨(ha.approver hhas).trans husers.1,
        ih (fun u hu => hnamed u (List.mem_cons_of_mem _ hu)) husers.2⟩

namespace Orderly

theorem nil : Orderly w e [] where
  named := by simp
  levels := .inl fun _ => rfl
  cleared _ _ _ h := absurd rfl h
  passedOver _ _ h := absurd rfl h
  asked _ _ h := absurd rfl h

/-- Decisions keep the order. -/
theorem kept (h : Orderly w e rows) (hkept : AllKept rows rows') : Orderly w e rows' where
  named := by
    intro a' ha'
    obtain ⟨a, ha, hrow⟩ := hkept.exists_mem_left ha'
    obtain ⟨l, hl⟩ := h.named a ha
    exact ⟨l, hrow.level.trans hl⟩
  levels := by
    rcases h.levels with hnone | ⟨top, htop, hlevels⟩
    · refine .inl fun l => ?_
      by_contra hne
      exact (hkept.on l).ne_nil_iff.mp hne (hnone l)
    · exact .inr ⟨top, htop, fun l => (hkept.on l).ne_nil_iff.trans (hlevels l)⟩
  cleared l k hlt hk := by
    obtain ⟨hsatisfied, happroved⟩ := h.cleared l k hlt ((hkept.on k).ne_nil_iff.mp hk)
    exact ⟨(hkept.on l).satisfied hsatisfied, (hkept.on l).exists_approved happroved⟩
  passedOver l hl hrows := by
    obtain ⟨a, ha, happroved⟩ := h.passedOver l hl ((hkept.on l).ne_nil_iff.mp hrows)
    have hon := hkept.on l
    rw [ha] at hon
    obtain ⟨a', rest', hrow, hrest, hon'⟩ := List.forall₂_cons_left_iff.mp hon
    rw [List.forall₂_nil_left_iff.mp hrest] at hon'
    exact ⟨a', hon', hrow.approved happroved⟩
  asked l hl hrows := by
    have hasked := h.asked l hl ((hkept.on l).ne_nil_iff.mp hrows)
    by_cases hparallel : (w.configOf? l).any (·.isParallel) ∧ Workflow.named e l ≠ []
    · -- Every approver of a parallel level has a name, and named approvers stay.
      rw [if_pos hparallel] at hasked ⊢
      refine (hkept.on l).approvers (fun user huser => ?_) hasked
      have hmem : user ∈ Workflow.named e l := List.mem_eraseDups.mp huser
      simpa using (List.mem_filter.mp hmem).2
    · rw [if_neg hparallel] at hasked ⊢
      rw [← (hkept.on l).length_eq]
      exact hasked

theorem stacked (h : Orderly w e rows) : Stacked rows := by
  intro l k hlt hk
  rcases h.levels with hnone | ⟨top, -, hlevels⟩
  · exact absurd (hnone k) hk
  · have := (hlevels k).mp hk
    exact (hlevels l).mpr (by omega)

/-- Whatever is in front of an opening is satisfied by an approval. -/
theorem cleared_front (hw : w.Sound) (h : Orderly w e rows) (ho : w.Opens e rows o)
    (hlt : l.index < o.level.index) (hl : Approval.on rows l ≠ []) :
    w.satisfied l.name (Approval.on rows l) = true ∧
      ∃ a ∈ Approval.on rows l, a.status = .approved := by
  rcases h.levels with hnone | ⟨top, htop, hlevels⟩
  · exact absurd (hnone l) hl
  · have hle := (hlevels l).mp hl
    rcases Nat.lt_or_eq_of_le hle with hbelow | heq
    · -- Another level with rows lies behind.
      exact h.cleared l top hbelow ((hlevels top).mpr (Nat.le_refl _))
    · -- It is the highest level with rows, so it is required, and the opening had to wait for it.
      have hsame : l = top := Level.index_injective heq
      subst hsame
      have hsatisfied := (ho.front l htop hlt).2
      exact ⟨hsatisfied, hw.approved_of_satisfied hsatisfied⟩

/-- The opened level asks its approvers. -/
theorem asked_opened (ho : w.Opens e rows o) :
    if (w.configOf? o.level).any (·.isParallel) ∧ Workflow.named e o.level ≠ [] then
      (Approval.on (rows ++ Draft.rowsFrom itemId now key o.drafts) o.level).map (·.approver) =
        (Workflow.named e o.level).eraseDups.map some
    else (Approval.on (rows ++ Draft.rowsFrom itemId now key o.drafts) o.level).length = 1 := by
  have happrovers := ho.approvers_opened itemId now key
  rw [ho.approvers] at happrovers
  split
  · next hparallel =>
    rw [happrovers]
    exact Workflow.approversOn_parallel hparallel.1 hparallel.2
  · next hsingle =>
    rw [← List.length_map, happrovers]
    apply Workflow.approversOn_single
    rcases not_and_or.mp hsingle with hparallel | hnamed
    · exact .inl (by simpa using hparallel)
    · exact .inr (not_not.mp hnamed)

/-- Openings keep the order. -/
theorem opened (hw : w.Sound) (h : Orderly w e rows) (ho : w.Opens e rows o) :
    Orderly w e (rows ++ Draft.rowsFrom itemId now key o.drafts) where
  named := by
    intro a ha
    rcases List.mem_append.mp ha with ha | ha
    · exact h.named a ha
    · exact Draft.named_rowsFrom o.named_drafts a ha
  levels := .inr ⟨o.level, ho.isRequired, h.stacked.on_opened_ne_nil ho⟩
  cleared l k hlt hk := by
    have hle := (h.stacked.on_opened_ne_nil ho k).mp hk
    have hne : l ≠ o.level := by
      rintro rfl
      omega
    by_cases hpassed : l ∈ o.passedOver
    · -- The only row is the one that was just written.
      obtain ⟨a, ha, happroved⟩ := ho.on_passedOver itemId now key hpassed
      rw [ha]
      refine ⟨w.satisfied_of_all_approved (by simp) ?_, a, by simp, happroved⟩
      intro b hb
      rw [List.mem_singleton.mp hb]
      exact happroved
    · have hl : Approval.on rows l ≠ [] := by
        rw [← ho.on_other itemId now key hne hpassed]
        exact (h.stacked.on_opened_ne_nil ho l).mpr (by omega)
      rw [ho.on_other itemId now key hne hpassed]
      exact h.cleared_front hw ho (by omega) hl
  passedOver l hl hrows := by
    have hne : l ≠ o.level := by
      rintro rfl
      exact hl ho.isRequired
    by_cases hpassed : l ∈ o.passedOver
    · exact ho.on_passedOver itemId now key hpassed
    · rw [ho.on_other itemId now key hne hpassed] at hrows ⊢
      exact h.passedOver l hl hrows
  asked l hl hrows := by
    by_cases hlevel : l = o.level
    · subst hlevel
      exact asked_opened ho
    · -- Required levels are not passed over, so the level is as before.
      have hpassed : l ∉ o.passedOver := fun hmem => ho.not_required hmem hl
      rw [ho.on_other itemId now key hlevel hpassed] at hrows ⊢
      exact h.asked l hl hrows

end Orderly

end Signoff
