import Signoff.Proofs.Approval.Satisfied
import Signoff.Proofs.Approval.Writes

/-! # The next level

    What `Workflow.opening` finds. It is the first required level without rows;
    every required level in front of it is satisfied, and the levels without
    rows behind the last of those are passed over:

    * `Workflow.Ascending`: required levels come in their order.
    * `Workflow.Opens`: what an opening says.
    * `Workflow.opens_of_opening`: an opening that is found says so.
-/

namespace Signoff

/-! ## Approvers -/

namespace Workflow

variable {w : Workflow} {e : Evaluation} {l : Level}

/-- The approvers of a level that count: those with a name. -/
def named (e : Evaluation) (l : Level) : List String := (e.assigned l).filter fun a => !a.isEmpty

/-- A parallel level with approvers asks each of them once. -/
theorem approversOn_parallel (hparallel : (w.configOf? l).any (·.isParallel) = true)
    (hnamed : named e l ≠ []) : w.approversOn e l = (named e l).eraseDups.map some := by
  unfold approversOn
  simp only [hparallel, ↓reduceIte]
  cases hn : named e l with
  | nil => exact absurd hn hnamed
  | cons first rest =>
    have hn' : (e.assigned l).filter (fun a => !a.isEmpty) = first :: rest := hn
    rw [hn']
    simp [List.eraseDups_cons]

/-- Any other level asks once. -/
theorem approversOn_single
    (h : (w.configOf? l).any (·.isParallel) = false ∨ named e l = []) :
    (w.approversOn e l).length = 1 := by
  unfold approversOn
  change (if (if _ then (named e l).eraseDups else (named e l).take 1).isEmpty then [none] else
    (if _ then (named e l).eraseDups else (named e l).take 1).map some).length = 1
  rcases h with h | h
  · cases hn : named e l <;> simp [h]
  · simp [h]

/-- Every level asks somebody, or leaves its row to anybody. -/
theorem approversOn_ne_nil (w : Workflow) (e : Evaluation) (l : Level) : w.approversOn e l ≠ [] := by
  have hask : ∀ asked : List String,
      (if asked.isEmpty then [none] else asked.map some) ≠ [] := by
    intro asked
    cases asked <;> simp
  exact hask _

/-- Nobody is asked twice on a level. -/
theorem approversOn_nodup (w : Workflow) (e : Evaluation) (l : Level) :
    (w.approversOn e l).Nodup := by
  by_cases h : (w.configOf? l).any (·.isParallel) = true ∧ named e l ≠ []
  · -- Everybody is asked once, however often the workflow names them.
    rw [approversOn_parallel h.1 h.2]
    exact (nodup_eraseDups _).map fun _ _ h => Option.some.inj h
  · have hone : (w.approversOn e l).length = 1 := by
      apply approversOn_single
      rcases not_and_or.mp h with h | h
      · exact .inl (by simpa using h)
      · exact .inr (not_not.mp h)
    obtain ⟨p, hp⟩ := List.length_eq_one_iff.mp hone
    rw [hp]
    exact List.nodup_singleton p

end Workflow

/-! ## Levels in their order -/

/-- The levels come in their order, none of them twice. -/
def Ascending (ls : List Level) : Prop := ls.Pairwise fun k l => k.index < l.index

/-- The required levels of an evaluation come in their order. -/
theorem Workflow.ascending_required {w : Workflow} {snapshot : Snapshot} {e : Evaluation}
    (h : w.evaluate snapshot = .ok e) : Ascending e.required := by
  unfold Workflow.evaluate at h
  cases hrules : w.matching snapshot with
  | error fault =>
    rw [hrules] at h
    cases h
  | ok rules =>
    rw [hrules] at h
    cases h
    exact List.Pairwise.filter _ Level.all_sorted

namespace Workflow

variable {w : Workflow} {e : Evaluation} {rows : List Approval} {o : Opening}

/-- Where no level is required, there is none to open. -/
theorem opening_eq_none (h : e.required = []) (rows : List Approval) : w.opening e rows = none := by
  unfold opening
  rw [h]
  split <;> rfl

/-- The search stops at the first level without rows, and only goes past satisfied levels. -/
theorem openingFrom_eq_some {last : Option Level} {ls : List Level}
    (h : w.openingFrom e rows last ls = some o) :
    ∃ front rest, ls = front ++ o.level :: rest ∧
      (∀ p ∈ front, Approval.on rows p ≠ [] ∧ w.satisfied p.name (Approval.on rows p) = true) ∧
      Approval.on rows o.level = [] ∧
      o.passedOver = o.level.before.filter (fun k =>
        (front.getLast?.or last).all (fun p => p.index < k.index) &&
          (Approval.on rows k).isEmpty) ∧
      o.approvers = w.approversOn e o.level := by
  induction ls generalizing last with
  | nil => cases h
  | cons l rest ih =>
    unfold openingFrom at h
    split at h
    · next hempty =>
      cases h
      exact ⟨[], rest, rfl, by simp, List.isEmpty_iff.mp hempty, rfl, rfl⟩
    · next hrows =>
      split at h
      · next hsatisfied =>
        obtain ⟨front, rest', hls, hfront, hempty, hpassed, happrovers⟩ := ih h
        refine ⟨l :: front, rest', by rw [hls, List.cons_append], ?_, hempty, ?_, happrovers⟩
        · intro p hp
          rcases List.mem_cons.mp hp with rfl | hp
          · exact ⟨fun hnil => hrows (List.isEmpty_iff.mpr hnil), hsatisfied⟩
          · exact hfront p hp
        · -- The level in front of an empty `front` is `l` itself.
          rw [hpassed]
          cases hlast : front.getLast? with
          | none =>
            rw [List.getLast?_eq_none_iff] at hlast
            subst hlast
            rfl
          | some p =>
            have hcons : (l :: front).getLast? = some p := by
              rw [List.getLast?_cons, hlast]
              rfl
            rw [hcons]
            rfl
      · cases h

/-- What an opening says about the level that it opens. -/
structure Opens (w : Workflow) (e : Evaluation) (rows : List Approval) (o : Opening) : Prop where
  noneRejected : ∀ a ∈ rows, a.status ≠ .rejected
  isRequired : o.level ∈ e.required
  isEmpty : Approval.on rows o.level = []
  /-- Every required level in front has rows that satisfy it. -/
  front : ∀ p ∈ e.required, p.index < o.level.index →
    Approval.on rows p ≠ [] ∧ w.satisfied p.name (Approval.on rows p) = true
  /-- Passed over are the levels without rows behind all required levels in front. -/
  mem_passedOver : ∀ k, k ∈ o.passedOver ↔ k.index < o.level.index ∧ Approval.on rows k = [] ∧
    ∀ p ∈ e.required, p.index < o.level.index → p.index < k.index
  passedOver_nodup : o.passedOver.Nodup
  approvers : o.approvers = w.approversOn e o.level

private theorem lt_iff_getLast? {front : List Level} {k : Level} (h : Ascending front) :
    front.getLast?.all (fun p => p.index < k.index) = true ↔ ∀ p ∈ front, p.index < k.index := by
  cases hlast : front.getLast? with
  | none =>
    rw [List.getLast?_eq_none_iff] at hlast
    simp [hlast]
  | some p =>
    simp only [Option.all_some, decide_eq_true_eq]
    refine ⟨fun hp q hq => ?_, fun hall => hall p (List.mem_of_getLast? hlast)⟩
    obtain ⟨init, rfl⟩ := List.getLast?_eq_some_iff.mp hlast
    rcases List.mem_append.mp hq with hq | hq
    · have := (List.pairwise_append.mp h).2.2 q hq p (List.mem_singleton_self p)
      omega
    · rw [List.mem_singleton.mp hq]
      exact hp

theorem opens_of_opening (hsorted : Ascending e.required) (h : w.opening e rows = some o) :
    w.Opens e rows o := by
  unfold opening at h
  split at h
  · cases h
  · next hrejected =>
    obtain ⟨front, rest, hrequired, hfront, hempty, hpassed, happrovers⟩ := openingFrom_eq_some h
    rw [hrequired] at hsorted
    obtain ⟨hsorted_front, hsorted_rest, hacross⟩ := List.pairwise_append.mp hsorted
    -- The required levels in front of the opened one are just those of `front`.
    have hmem_front : ∀ p, p ∈ front ↔ p ∈ e.required ∧ p.index < o.level.index := by
      intro p
      rw [hrequired]
      constructor
      · intro hp
        exact ⟨List.mem_append_left _ hp, hacross p hp o.level (List.mem_cons_self ..)⟩
      · rintro ⟨hp, hlt⟩
        rcases List.mem_append.mp hp with hp | hp
        · exact hp
        · rcases List.mem_cons.mp hp with rfl | hp
          · omega
          · have := (List.pairwise_cons.mp hsorted_rest).1 p hp
            omega
    refine
      { noneRejected := ?_
        isRequired := by rw [hrequired]; simp
        isEmpty := hempty
        front := fun p hp hlt => hfront p ((hmem_front p).mpr ⟨hp, hlt⟩)
        mem_passedOver := ?_
        passedOver_nodup := ?_
        approvers := happrovers }
    · intro a ha hstatus
      exact hrejected (List.any_eq_true.mpr ⟨a, ha, by simp [hstatus]⟩)
    · intro k
      rw [hpassed, List.mem_filter, Level.mem_before, Option.or_none, Bool.and_eq_true,
        lt_iff_getLast? hsorted_front, List.isEmpty_iff]
      constructor
      · rintro ⟨hlt, hlast, hk⟩
        exact ⟨hlt, hk, fun p hp hlt => hlast p ((hmem_front p).mpr ⟨hp, hlt⟩)⟩
      · rintro ⟨hlt, hk, hlast⟩
        exact ⟨hlt, fun p hp => hlast p ((hmem_front p).mp hp).1 ((hmem_front p).mp hp).2, hk⟩
    · rw [hpassed]
      exact (Level.all_nodup.filter _).filter _

end Workflow

end Signoff
