import Signoff.Proofs.Access.Entitled
import Signoff.Proofs.Approval.Reach
import Signoff.Proofs.Keyed

/-! # Outsiders of a workspace

    Somebody without a role in a workspace, who is neither the approver of an
    approval there nor the creator of an item there, leaves the workspace alone:

    * `Site.Holds`: the rows that belong to a workspace.
    * `Site.Outsider`: the user has nothing to do with the workspace.
    * `outside_of_demand`: whatever an outsider is permitted to do is outside.
    * `Site.Respects`: the rows of the workspace stay as they are, and no others come
      unless an automation from outside aims at the workspace.
    * `respects_of_bounds`: it is enough that only items outside are within reach.
-/

open Signoff.Task (Keeps Reads Same)

namespace Signoff

/-! ## The rows of a workspace -/

/-- A row that may belong to a workspace. -/
inductive Entry where
  | item (i : Item)
  | cell (c : Cell)
  | approval (a : Approval)
  | automation (a : Automation)
  | workflow (w : StoredWorkflow)

/-- The item that the row is or is about. -/
def Entry.itemKey? : Entry → Option Int
  | item i => some i.id
  | cell c => some c.itemId
  | approval a => some a.itemId
  | automation _ => none
  | workflow _ => none

/-- The tables of the office that hold rows of workspaces. -/
structure Office.Holdings where
  boards : Table Board
  items : Table Item
  cells : Table Cell
  automations : Table Automation
  workflows : Table StoredWorkflow

/-- What the office holds. -/
def Office.holdings (o : Office) : Holdings where
  boards := o.boards
  items := o.items
  cells := o.cells
  automations := o.automations
  workflows := o.workflows

instance : Office.Notified (Same Office.holdings) where
  written _ _ := rfl

namespace Site

variable {s s' : Site} {workspace : Int} {user : String}

/-- The item of the key lies on a board of the workspace. -/
def HoldsItem (s : Site) (workspace key : Int) : Prop :=
  ∃ i, s.office.items.get? key = some i ∧ s.office.workspaceOf? i.boardId = some workspace

/-- The row is there, and belongs to the workspace: it is on one of its boards, or about an item on one. -/
def Holds (s : Site) (workspace : Int) : Entry → Prop
  | .item i => i ∈ s.office.items.rows ∧ s.office.workspaceOf? i.boardId = some workspace
  | .cell c => c ∈ s.office.cells.rows ∧ s.HoldsItem workspace c.itemId
  | .approval a => a ∈ s.approvals.rows ∧ s.HoldsItem workspace a.itemId
  | .automation a => a ∈ s.office.automations.rows ∧ s.office.workspaceOf? a.boardId = some workspace
  | .workflow w => w ∈ s.office.workflows.rows ∧ s.office.workspaceOf? w.boardId = some workspace

/-- An active automation on a board of another workspace puts items on a board of this one. -/
def AimedAt (s : Site) (workspace : Int) : Prop :=
  ∃ a ∈ s.office.automations.rows, a.isActive = true ∧
    s.office.workspaceOf? a.boardId ≠ some workspace ∧
    ∃ b, a.Aims b ∧ s.office.workspaceOf? b = some workspace

/-- The rows of the workspace are still there as they were. Only an item that was elsewhere or nowhere can
    come, with what is about it, and only where an automation aims at the workspace. -/
structure Respects (workspace : Int) (s s' : Site) : Prop where
  kept (e : Entry) (h : s.Holds workspace e) : s'.Holds workspace e
  arrived (e : Entry) (he : s'.Holds workspace e) :
    s.Holds workspace e ∨ ∃ key, e.itemKey? = some key ∧ ¬ s.HoldsItem workspace key
  nothingNew (h : ¬ s.AimedAt workspace) (e : Entry) (he : s'.Holds workspace e) :
    s.Holds workspace e

theorem Respects.rfl : s.Respects workspace s := ⟨fun _ h => h, fun _ h => .inl h, fun _ _ h => h⟩

instance : Std.Refl (Respects workspace) := ⟨fun _ => Respects.rfl⟩

/-- On the site, one office after the other respects the workspace. -/
def RespectsOffice (s : Site) (workspace : Int) (o o' : Office) : Prop :=
  Respects workspace { s with office := o } { s with office := o' }

instance : Std.Refl (s.RespectsOffice workspace) := ⟨fun _ => Respects.rfl⟩

/-! ## Outsiders -/

/-- The user has no role in the workspace, and no approval or item there is theirs. -/
structure Outsider (s : Site) (workspace : Int) (user : String) : Prop where
  noRole : s.office.role? workspace (some user) = none
  noApprover (a : Approval) (h : s.Holds workspace (.approval a)) : a.approver ≠ some user
  noCreator (i : Item) (h : s.Holds workspace (.item i)) : i.createdBy ≠ user

/-- The row that the resource is, is there. -/
def Stores (s : Site) : Resource → Prop
  | .item i => i ∈ s.office.items.rows
  | .approval a => a ∈ s.approvals.rows
  | .board _ => True
  | .nothing => True

/-- An item is found for the user, who is permitted something with it. -/
def Grants (s : Site) (user : String) (itemId : Int) (archived : Bool) (permission : Permission)
    (item : Item) : Prop :=
  (Office.requireItem itemId archived).answer s.office = .ok item ∧
    Access.demand s.office (some user) (.item item) permission = .ok ()

/-- The item of a resource of the workspace belongs to the workspace. -/
theorem holds_of_itemOf? {resource : Resource} {i : Item} (hstored : s.Stores resource)
    (hitem : Access.itemOf? s.office resource = some i)
    (hworkspace : Access.workspaceOf? s.office resource = some workspace) :
    s.Holds workspace (.item i) := by
  cases resource with
  | item j =>
    cases hitem
    exact ⟨hstored, hworkspace⟩
  | approval a =>
    obtain ⟨item, hget, hboard⟩ := Access.workspaceOf?_approval hworkspace
    have hfound : s.office.items.get? a.itemId = some i := hitem
    obtain rfl : item = i := Option.some.inj (hget.symm.trans hfound)
    exact ⟨(Table.mem_of_get? hget).1, hboard⟩
  | board b => cases hitem
  | nothing => cases hitem

/-- What an outsider is permitted belongs to another workspace. -/
theorem outside_of_demand (hroles : Access.ListsRoles s.office) (hout : s.Outsider workspace user)
    {resource : Resource} {permission : Permission} (hstored : s.Stores resource)
    (h : Access.demand s.office (some user) resource permission = .ok ()) :
    Access.workspaceOf? s.office resource ≠ some workspace := by
  intro hworkspace
  have hallows := Access.allows_of_demand h
  unfold Access.allows at hallows
  rw [hworkspace] at hallows
  simp only [hout.noRole] at hallows
  split at hallows
  · cases hallows
  · -- An approver or a creator in the workspace is no outsider, and an elevated role is a role.
    have helevated : Access.isElevated s.office none ≠ .ok true := by
      intro hlisted
      rw [← hout.noRole] at hlisted
      obtain ⟨role, roles, hrole, -⟩ := Access.holdsElevated_of_isElevated hroles hlisted
      rw [hout.noRole] at hrole
      cases hrole
    have hcreated : (Access.itemOf? s.office resource).any (fun i => i.createdBy == user) = false := by
      cases hitem : Access.itemOf? s.office resource with
      | none => rfl
      | some i => simpa using hout.noCreator i (holds_of_itemOf? hstored hitem hworkspace)
    cases permission with
    | readItems => cases hallows
    | decideApproval =>
      simp only at hallows
      split at hallows
      · next a =>
        split at hallows
        · next happrover =>
          obtain ⟨item, hitem⟩ := Access.workspaceOf?_approval hworkspace
          apply hout.noApprover a ⟨hstored, item, hitem⟩
          simpa using (Bool.and_eq_true_iff.mp happrover).2
        · exact helevated hallows
      · exact helevated hallows
    | deleteApproval =>
      rw [hcreated] at hallows
      cases hallows
    | archiveItem =>
      rw [hcreated] at hallows
      cases hallows
    | writeWorkflow => cases hallows
    | writeAutomations => cases hallows

section Outside

variable (hroles : Access.ListsRoles s.office) (hout : s.Outsider workspace user)

include hroles hout

/-- A board that an outsider is permitted something on lies outside. -/
theorem outside_of_board {n : Int} {board : Board} {permission : Permission}
    (hget : s.office.boards.get? n = some board)
    (h : Access.demand s.office (some user) (.board board) permission = .ok ()) :
    s.office.workspaceOf? n ≠ some workspace := by
  have hboard : s.office.workspaceOf? n = Access.workspaceOf? s.office (.board board) := by
    unfold Office.workspaceOf?
    rw [hget]
    rfl
  rw [hboard]
  exact outside_of_demand hroles hout trivial h

/-- So does the board that a value names. -/
theorem outside_of_target {board : Value} {target : Board} {permission : Permission}
    (htarget : (Office.requireBoard board).answer s.office = .ok target)
    (h : Access.demand s.office (some user) (.board target) permission = .ok ()) :
    s.office.workspaceOf? target.id ≠ some workspace := by
  obtain ⟨n, -, hget⟩ := Office.get?_of_requireBoard htarget
  have hid : target.id = n := (Table.mem_of_get? hget).2
  rw [hid]
  exact outside_of_board hroles hout hget h

/-- An item that an outsider is permitted something with lies outside. -/
theorem outside_of_grants {itemId : Int} {archived : Bool} {permission : Permission} (item : Item)
    (h : s.Grants user itemId archived permission item) :
    s.office.items.get? item.id = some item ∧
      s.office.workspaceOf? item.boardId ≠ some workspace := by
  obtain ⟨hget, -⟩ := Office.get?_of_requireItem h.1
  have hid := Office.id_of_requireItem h.1
  have hstored : s.Stores (.item item) := (Table.mem_of_get? hget).1
  rw [hid]
  exact ⟨hget, outside_of_demand hroles hout hstored h.2⟩

/-- An approval that an outsider is permitted something with is about an item outside. -/
theorem outside_of_approval {key : Int} {a : Approval} {item : Item} {permission : Permission}
    (hget : s.approvals.get? key = some a) (hitem : s.office.items.get? a.itemId = some item)
    (h : Access.demand s.office (some user) (.approval a) permission = .ok ()) :
    s.office.items.get? item.id = some item ∧
      s.office.workspaceOf? item.boardId ≠ some workspace := by
  have hid : item.id = a.itemId := (Table.mem_of_get? hitem).2
  have hstored : s.Stores (.approval a) := (Table.mem_of_get? hget).1
  have houtside := outside_of_demand hroles hout hstored h
  have hboard : Access.workspaceOf? s.office (.approval a) = s.office.workspaceOf? item.boardId := by
    show (s.office.items.get? a.itemId).bind _ = _
    rw [hitem]
    rfl
  rw [hid]
  exact ⟨hitem, hboard ▸ houtside⟩

end Outside

/-! ## Within reach of an outsider -/

section Reaching

variable {c : Reach}

/-- The item is out of reach where no item of the workspace is within. -/
theorem HoldsItem.not_covers (hkeyed : s.Keyed) {key : Int} (h : s.HoldsItem workspace key)
    (hitems : ∀ i, s.Holds workspace (.item i) → ¬ c.items i.id) : ¬ c.Covers s.office key := by
  obtain ⟨i, hget, hboard⟩ := h
  obtain ⟨hmem, hkey⟩ := Table.mem_of_get? hget
  have hid : i.id = key := hkey
  rw [← hid]
  exact Reach.not_covers_of_mem hkeyed.items hmem (hitems i ⟨hmem, hboard⟩)

theorem workspaceOf?_of_leaves (h : c.LeavesSite s s') (b : Int) :
    s'.office.workspaceOf? b = s.office.workspaceOf? b := by
  unfold Office.workspaceOf?
  rw [h.office.boards]

/-- An item that is out of reach belongs to the workspace as before. -/
theorem holdsItem_iff (h : c.LeavesSite s s') {key : Int}
    (hnot : ¬ c.Covers s.office key) : s'.HoldsItem workspace key ↔ s.HoldsItem workspace key := by
  unfold HoldsItem
  rw [h.office.get?_eq hnot]
  simp only [workspaceOf?_of_leaves h]

/-- Where no item of the workspace is within reach, its rows are kept. -/
theorem kept_of_leaves (hkeyed : s.Keyed) (h : c.LeavesSite s s')
    (hitems : ∀ i, s.Holds workspace (.item i) → ¬ c.items i.id) (e : Entry)
    (he : s.Holds workspace e) : s'.Holds workspace e := by
  have hboards := workspaceOf?_of_leaves h
  cases e with
  | item i =>
    obtain ⟨hmem, hboard⟩ := he
    have hnot := Reach.not_covers_of_mem hkeyed.items hmem (hitems i ⟨hmem, hboard⟩)
    exact ⟨(h.office.items i hnot).mpr hmem, (hboards i.boardId).trans hboard⟩
  | cell cell =>
    obtain ⟨hmem, hitem⟩ := he
    have hnot := hitem.not_covers hkeyed hitems
    exact ⟨(h.office.cells cell hnot).mpr hmem, (holdsItem_iff h hnot).mpr hitem⟩
  | approval a =>
    obtain ⟨hmem, hitem⟩ := he
    have hnot := hitem.not_covers hkeyed hitems
    exact ⟨(h.approvals a hnot).mpr hmem, (holdsItem_iff h hnot).mpr hitem⟩
  | automation a =>
    obtain ⟨hmem, hboard⟩ := he
    exact ⟨h.office.automations.symm ▸ hmem, (hboards a.boardId).trans hboard⟩
  | workflow w =>
    obtain ⟨hmem, hboard⟩ := he
    exact ⟨h.office.workflows.symm ▸ hmem, (hboards w.boardId).trans hboard⟩

/-- Then a row that is new is about an item that is new. -/
theorem arrived_of_leaves (hkeyed : s.Keyed) (h : c.LeavesSite s s')
    (hitems : ∀ i, s.Holds workspace (.item i) → ¬ c.items i.id) (e : Entry)
    (he : s'.Holds workspace e) :
    s.Holds workspace e ∨ ∃ key, e.itemKey? = some key ∧ ¬ s.HoldsItem workspace key := by
  have hboards := workspaceOf?_of_leaves h
  have hnot {key : Int} (hold : s.HoldsItem workspace key) : ¬ c.Covers s.office key :=
    hold.not_covers hkeyed hitems
  cases e with
  | item i =>
    by_cases hold : s.HoldsItem workspace i.id
    · exact .inl ⟨(h.office.items i (hnot hold)).mp he.1, (hboards i.boardId).symm.trans he.2⟩
    · exact .inr ⟨i.id, rfl, hold⟩
  | cell cell =>
    by_cases hold : s.HoldsItem workspace cell.itemId
    · exact .inl ⟨(h.office.cells cell (hnot hold)).mp he.1, hold⟩
    · exact .inr ⟨cell.itemId, rfl, hold⟩
  | approval a =>
    by_cases hold : s.HoldsItem workspace a.itemId
    · exact .inl ⟨(h.approvals a (hnot hold)).mp he.1, hold⟩
    · exact .inr ⟨a.itemId, rfl, hold⟩
  | automation a =>
    exact .inl ⟨h.office.automations ▸ he.1, (hboards a.boardId).symm.trans he.2⟩
  | workflow w =>
    exact .inl ⟨h.office.workflows ▸ he.1, (hboards w.boardId).symm.trans he.2⟩

/-- Where no board of the workspace is within reach, no row is added to it. -/
theorem old_of_leaves (h : c.LeavesSite s s')
    (hwithin : ∀ b, c.boards b → s.office.workspaceOf? b ≠ some workspace) (e : Entry)
    (he : s'.Holds workspace e) : s.Holds workspace e := by
  have hboards := workspaceOf?_of_leaves h
  -- An item of the workspace would lie on a board within reach.
  have hnot {i : Item} (hi : i ∈ s'.office.items.rows)
      (hboard : s'.office.workspaceOf? i.boardId = some workspace) : ¬ c.Covers s.office i.id :=
    fun hcovers => hwithin _ (h.office.placed i hi hcovers) ((hboards i.boardId).symm.trans hboard)
  have hnotKey {key : Int} (hitem : s'.HoldsItem workspace key) : ¬ c.Covers s.office key := by
    obtain ⟨i, hget, hboard⟩ := hitem
    obtain ⟨hmem, hkey⟩ := Table.mem_of_get? hget
    have hid : i.id = key := hkey
    rw [← hid]
    exact hnot hmem hboard
  cases e with
  | item i =>
    obtain ⟨hmem, hboard⟩ := he
    exact ⟨(h.office.items i (hnot hmem hboard)).mp hmem, (hboards i.boardId).symm.trans hboard⟩
  | cell cell =>
    obtain ⟨hmem, hitem⟩ := he
    have hout := hnotKey hitem
    exact ⟨(h.office.cells cell hout).mp hmem, (holdsItem_iff h hout).mp hitem⟩
  | approval a =>
    obtain ⟨hmem, hitem⟩ := he
    have hout := hnotKey hitem
    exact ⟨(h.approvals a hout).mp hmem, (holdsItem_iff h hout).mp hitem⟩
  | automation a =>
    obtain ⟨hmem, hboard⟩ := he
    exact ⟨h.office.automations ▸ hmem, (hboards a.boardId).symm.trans hboard⟩
  | workflow w =>
    obtain ⟨hmem, hboard⟩ := he
    exact ⟨h.office.workflows ▸ hmem, (hboards w.boardId).symm.trans hboard⟩

/-- What is bounded by items outside of the workspace respects it, whatever boards outside are within
    reach as well. -/
theorem respects_of_bounds (hkeyed : s.Keyed) (items : Int → Prop)
    (hitems : ∀ i ∈ s.office.items.rows, items i.id →
      s.office.workspaceOf? i.boardId ≠ some workspace)
    (h : ∀ boards : Int → Prop, (∀ b, s.office.workspaceOf? b ≠ some workspace → boards b) →
      (Reach.mk items boards).BoundsSite s s') : s.Respects workspace s' := by
  have hout (boards : Int → Prop) (i : Item) (hi : s.Holds workspace (.item i)) :
      ¬ (Reach.mk items boards).items i.id := fun hwithin => hitems i hi.1 hwithin hi.2
  -- For the rows that are there it does not matter where items are put.
  have hanywhere := h (fun _ => True) (fun _ _ => trivial) hkeyed.approvals
    ⟨hkeyed.items, hkeyed.cells, fun _ _ _ => trivial, fun _ _ _ _ _ _ => trivial⟩
  constructor
  · exact kept_of_leaves hkeyed hanywhere (hout _)
  · exact arrived_of_leaves hkeyed hanywhere (hout _)
  · intro haimed
    have haims : ∀ a ∈ s.office.automations.rows, a.isActive = true →
        s.office.workspaceOf? a.boardId ≠ some workspace →
        ∀ b, a.Aims b → s.office.workspaceOf? b ≠ some workspace := by
      intro a ha hactive houtside b hb hworkspace
      exact haimed ⟨a, ha, hactive, houtside, b, hb, hworkspace⟩
    have hleaves := h (fun b => s.office.workspaceOf? b ≠ some workspace) (fun _ hb => hb)
      hkeyed.approvals ⟨hkeyed.items, hkeyed.cells, hitems, haims⟩
    exact old_of_leaves hleaves fun _ hb => hb

/-- So does what is bounded by items that are found outside. -/
theorem respects_of_found (hkeyed : s.Keyed) (found : Item → Prop)
    (hfound : ∀ item, found item → s.office.items.get? item.id = some item ∧
      s.office.workspaceOf? item.boardId ≠ some workspace)
    (h : ∀ c : Reach, (∀ item, found item → c.items item.id ∧ c.boards item.boardId) →
      (∀ b, s.office.workspaceOf? b ≠ some workspace → c.boards b) → c.BoundsSite s s') :
    s.Respects workspace s' := by
  apply respects_of_bounds hkeyed (fun key => ∃ item, found item ∧ item.id = key)
  · rintro i hi ⟨item, hitem, hid⟩
    obtain ⟨hget, houtside⟩ := hfound item hitem
    have hsame : s.office.items.get? i.id = some i := hkeyed.items.get?_of_mem hi
    rw [← hid, hget] at hsame
    cases hsame
    exact houtside
  · intro boards hboards
    exact h _ (fun item hitem => ⟨⟨item, hitem, rfl⟩, hboards _ (hfound item hitem).2⟩) hboards

end Reaching

/-! ## Rows that are kept by boards -/

/-- Where items, cells and approvals are as they were, the rows that boards outside hold do not matter. -/
theorem respects_of_settings (hboards : s'.office.boards = s.office.boards)
    (hitems : s'.office.items = s.office.items) (hcells : s'.office.cells = s.office.cells)
    (happrovals : s'.approvals = s.approvals)
    (hautomations : ∀ a : Automation, s.office.workspaceOf? a.boardId = some workspace →
      (a ∈ s'.office.automations.rows ↔ a ∈ s.office.automations.rows))
    (hworkflows : ∀ w : StoredWorkflow, s.office.workspaceOf? w.boardId = some workspace →
      (w ∈ s'.office.workflows.rows ↔ w ∈ s.office.workflows.rows)) : s.Respects workspace s' := by
  have hsame (b : Int) : s'.office.workspaceOf? b = s.office.workspaceOf? b := by
    unfold Office.workspaceOf?
    rw [hboards]
  have hholds (e : Entry) : s'.Holds workspace e ↔ s.Holds workspace e := by
    cases e with
    | item i => simp only [Holds, hitems, hsame]
    | cell c => simp only [Holds, HoldsItem, hitems, hcells, hsame]
    | approval a => simp only [Holds, HoldsItem, hitems, happrovals, hsame]
    | automation a =>
      simp only [Holds, hsame]
      exact and_congr_left fun hboard => hautomations a hboard
    | workflow w =>
      simp only [Holds, hsame]
      exact and_congr_left fun hboard => hworkflows w hboard
  exact ⟨fun e he => (hholds e).mpr he, fun e he => .inl ((hholds e).mp he), fun _ e he => (hholds e).mp he⟩

/-- The tables that hold rows of workspaces. -/
def holdings (s : Site) : Office.Holdings × Table Approval := (s.office.holdings, s.approvals)

/-- Where these tables are as they were, so are the rows of every workspace. -/
theorem respects_of_holdings (h : s'.holdings = s.holdings) : s.Respects workspace s' := by
  simp only [holdings, Office.holdings, Prod.mk.injEq, Office.Holdings.mk.injEq] at h
  obtain ⟨⟨hboards, hitems, hcells, hautomations, hworkflows⟩, happrovals⟩ := h
  refine respects_of_settings hboards hitems hcells happrovals (fun a _ => ?_) fun w _ => ?_
  · rw [hautomations]
  · rw [hworkflows]

/-- What holds no more and no less than a state that respects the workspace respects it as well. -/
theorem Respects.congr {s'' : Site} (h : s.Respects workspace s') (hsame : s''.holdings = s'.holdings) :
    s.Respects workspace s'' := by
  have hholds {e : Entry} (he : s''.Holds workspace e) : s'.Holds workspace e :=
    (respects_of_holdings hsame.symm).kept e he
  constructor
  · exact fun e he => (respects_of_holdings hsame).kept e (h.kept e he)
  · exact fun e he => h.arrived e (hholds he)
  · exact fun haimed e he => h.nothingNew haimed e (hholds he)

theorem holdings_of_stored (h : s'.stored = s.stored) : s'.holdings = s.holdings :=
  congrArg (fun x : Office × Table Approval => (x.1.holdings, x.2)) h

/-- What only looks up respects every workspace, and so does what only writes notifications. -/
theorem respects_of_keeps {α : Type} {task : SiteTask α} (h : Keeps (Same stored) task) :
    s.Respects workspace (task.after s) :=
  respects_of_holdings (holdings_of_stored (h s))

theorem respects_within {α : Type} {task : OfficeTask α} (h : Keeps (Same Office.holdings) task) :
    s.Respects workspace ((within task).after s) :=
  respects_of_holdings (Prod.ext (h s.office) rfl)

end Site

end Signoff
