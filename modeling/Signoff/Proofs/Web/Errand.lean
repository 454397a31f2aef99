import Signoff.Proofs.Web.Enacting

/-! # Workspaces are kept apart

    Whatever an outsider of a workspace has done, by an operation or by a
    request, respects the workspace. It may only receive items, from an automation
    that aims at it:

    * `Errand`: an operation or a request. `Errand.By`: it is one by the user.
    * `Keyed.runErrands`: errands keep rows apart, one after another.
    * `outsiders_respect`: behind any errands, one by an outsider respects the
      workspace.
    * `outsider_plants`: where an automation aims at it, the workspace may get an
      item.
-/

namespace Signoff

/-! ## Errands -/

/-- What somebody has done on the site: an operation, or a request that is answered. -/
inductive Errand where
  | operation (op : Operation)
  | request (r : Request)

namespace Errand

/-- The errand is one by the user, on the site as it is. -/
def By (user : String) (s : Site) : Errand → Prop
  | operation op => op.By user s
  | request r => r.user = user

/-- The state behind an errand. -/
def after (s : Site) : Errand → Site
  | operation op => op.after s
  | request r => (Web.serve r).after s

end Errand

namespace Site

variable {s : Site} {workspace : Int} {user : String}

/-- The state behind errands, one after another. -/
def runErrands (s : Site) : List Errand → Site
  | [] => s
  | errand :: rest => (errand.after s).runErrands rest

theorem Keyed.congr {s' : Site} (h : s.Keyed) (hsame : s'.stored = s.stored) : s'.Keyed := by
  obtain ⟨hoffice, happrovals⟩ := Prod.mk.inj hsame
  constructor
  · rw [hoffice]
    exact h.toKeyed
  · rw [happrovals]
    exact h.approvals

/-- Errands keep rows apart. -/
theorem Keyed.errand (h : s.Keyed) (errand : Errand) : (errand.after s).Keyed := by
  cases errand with
  | operation op => exact h.after op
  | request r =>
    rcases Web.enacts_serve r s with hsame | ⟨op, -, hsame⟩
    · exact h.congr hsame
    · exact (h.after op).congr hsame

theorem Keyed.runErrands (h : s.Keyed) (errands : List Errand) : (s.runErrands errands).Keyed := by
  induction errands generalizing s with
  | nil => exact h
  | cons errand rest ih => exact ih (h.errand errand)

/-! ## Outsiders -/

/-- Every row of a workspace is as it was behind an errand by an outsider, whatever automations the errand
    sets off. A row can only come with an item that was not there, and only if an automation of a board
    elsewhere puts items on a board of the workspace. -/
theorem outsiders_respect (hkeyed : s.Keyed) (errands : List Errand)
    (hroles : Access.ListsRoles (s.runErrands errands).office)
    (hout : (s.runErrands errands).Outsider workspace user) {errand : Errand}
    (hby : errand.By user (s.runErrands errands)) :
    (s.runErrands errands).Respects workspace (errand.after (s.runErrands errands)) := by
  have hreached : (s.runErrands errands).Keyed := hkeyed.runErrands errands
  cases errand with
  | operation op => exact respects_of_by hreached hroles hout hby
  | request r =>
    obtain rfl : r.user = user := hby
    -- A request enacts nothing, or an operation by its user, who is an outsider.
    rcases Web.enacts_serve r (s.runErrands errands) with hsame | ⟨op, hop, hsame⟩
    · exact respects_of_holdings (holdings_of_stored hsame)
    · have hrespects := respects_of_by hreached hroles hout hop
      exact hrespects.congr (holdings_of_stored hsame)

/-! ## Neighbours -/

/-- Two workspaces with an item each. The first one is A's, the second one is B's. -/
def neighbours : Site where
  office :=
    { small.office with
      members := ⟨[⟨1, 1, "A", "owner"⟩, ⟨2, 2, "B", "owner"⟩]⟩
      boards := ⟨[⟨1, 1, "Purchases", ⟨0⟩⟩, ⟨2, 2, "Payments", ⟨0⟩⟩]⟩
      items := ⟨[.small, { Item.small with id := 2, boardId := 2, createdBy := "B" }]⟩ }

theorem keyed_neighbours : neighbours.Keyed where
  items := by
    unfold Table.KeysDistinct
    decide
  cells := List.nodup_nil
  automations := List.nodup_nil
  workflows := List.nodup_nil
  approvals := List.nodup_nil

/-- A has nothing to do with the workspace of B. -/
theorem outsider_neighbours : neighbours.Outsider 2 "A" where
  noRole := rfl
  noApprover a h := absurd h.1 List.not_mem_nil
  noCreator i h := by
    obtain ⟨hmem, hboard⟩ := h
    simp only [neighbours, List.mem_cons, List.not_mem_nil, or_false] at hmem
    rcases hmem with rfl | rfl
    · cases hboard
    · decide

/-- When A changes the status of the item of A, nothing happens to the workspace of B. -/
theorem outsiders_respect_neighbours :
    let errand := Errand.operation
      (.office (.changeStatus .automations 1 (some "A") (.text "Done")))
    ∀ e, (errand.after neighbours).Holds 2 e ↔ neighbours.Holds 2 e := by
  intro errand e
  have hroles : Access.ListsRoles neighbours.office := Access.listsRoles_of_default rfl
  have hby : errand.By "A" neighbours := rfl
  have hrespects := outsiders_respect keyed_neighbours [] hroles outsider_neighbours hby
  refine ⟨hrespects.nothingNew ?_ e, hrespects.kept e⟩
  rintro ⟨a, ha, -⟩
  exact absurd ha List.not_mem_nil

/-- An automation of A's board that makes items on B's. -/
def planting : Automation where
  id := 1
  boardId := 1
  name := "Copy"
  description := ""
  trigger := .object [("type", .text "item_status_changed")]
  conditions := .null
  actions := .list [.object [("type", .text "create_item"),
    ("config", .object [("targetBoardId", .int 2), ("itemName", .text "Planted"),
      ("copyCells", .bool false)])]]
  isActive := true
  createdBy := "A"
  createdAt := ⟨0⟩
  updatedAt := ⟨0⟩

/-- The neighbours with this automation. -/
def aimed : Site := { neighbours with office.automations := ⟨[planting]⟩ }

/-- Once A has made the automation, the same change adds an item to the workspace of B. -/
theorem outsider_plants :
    let payload : Value := .object [("boardId", .int 1), ("name", .text "Copy"),
      ("trigger", planting.trigger), ("actions", planting.actions)]
    let errand := Errand.operation
      (.office (.changeStatus .automations 1 (some "A") (.text "Done")))
    let planted : Item :=
      { Item.small with id := 3, boardId := 2, name := "Planted", status := some "Done" }
    (Operation.office (.createAutomation payload (some "A"))).after neighbours = aimed ∧
      aimed.Outsider 2 "A" ∧ errand.By "A" aimed ∧
      ¬ aimed.Holds 2 (.item planted) ∧ (errand.after aimed).Holds 2 (.item planted) := by
  intro payload errand planted
  have hitems : (errand.after aimed).office.items.rows =
      [{ Item.small with status := some "Done" },
        { Item.small with id := 2, boardId := 2, createdBy := "B" }, planted] := by
    with_unfolding_all rfl
  have hout : aimed.Outsider 2 "A" := { outsider_neighbours with }
  refine ⟨?_, hout, rfl, ?_, ?_, ?_⟩
  · with_unfolding_all rfl
  · -- The item is new: its key is the next one.
    intro h
    have hlt : planted.id < aimed.office.items.nextKey := Table.key_lt_nextKey h.1
    exact absurd hlt (by decide)
  · rw [hitems]
    simp
  · with_unfolding_all rfl

end Site

end Signoff
