import Signoff.Proofs.Approval.Requests
import Signoff.Proofs.Automation.Catalog
import Signoff.Proofs.Run

/-! # The pages of items with approvals

    The items with approvals are listed newest first, a page at a time. Whether an
    item is listed depends on who asks and on how the item stands, so pages are
    taken from what is left over:

    * `Site.effective`: everything that counts about a state. Looking at the
      workflow of a board leaves it alone, and overviews depend on nothing else.
    * `Approvals.isCandidate`, `isShown`: which items are asked for, and which of
      them the actor may read and the filter shows. `listingOf`: these items.
    * `answer_listed`: the list is the listing where every item that may be read
      has an overview.
    * `paged_listItems`: the pages of any size hold the listing as a whole.
    * `Site.lists_paged`: so it is with automations and with items.
-/

open Signoff.Task (Keeps Reads Same)

namespace Signoff

variable {s s' : Site} {item : Item} {items : List Item} {actor : Option String}

namespace Site

/-- Everything that counts about a state. A workflow counts the same whether it is remembered or would
    be looked up. -/
def effective (s : Site) : Office × Table Approval × (Int → Result Workflow) :=
  (s.office, s.approvals, s.workflow?)

instance : Curious (Same effective) where
  lookedUp s boardId := by
    have hworkflow : (s.lookedUp boardId).workflow? = s.workflow? :=
      funext (workflow?_lookedUp s boardId)
    rw [Same, effective, lookedUp_office, lookedUp_approvals, hworkflow, effective]

end Site

namespace Approvals

/-- How an item stands, as a function of the state. -/
theorem answer_overviewOf (s : Site) (item : Item) :
    (overviewOf item).answer s = (do
      let rows ← s.levelRows item.id
      let w ← s.workflow? item.boardId
      let progress ← w.progress rows (w.evaluate (s.office.snapshotOf item))
      pure
        { itemId := item.id
          standing := w.standing rows
          progress
          rows := Level.all.flatMap (Approval.on rows) }) := by
  unfold overviewOf
  rw [Task.answer_bind_of_exec (Site.exec_rowsOf s item.id)]
  cases hrows : s.levelRows item.id with
  | error fault => rfl
  | ok rows =>
    rw [Result.ok_bind, Task.answer_bind_of_exec (Site.exec_workflowOf s item.boardId)]
    cases hw : s.workflow? item.boardId with
    | error fault => rfl
    | ok w =>
      rw [Result.ok_bind, Task.answer_bind, answer_progressOf_lookedUp, Site.answer_progressOf,
        hrows, hw]
      rfl

/-- How an item stands depends on what counts about the state. -/
theorem answer_overviewOf_congr (h : s'.effective = s.effective) (item : Item) :
    (overviewOf item).answer s' = (overviewOf item).answer s := by
  obtain ⟨hoffice, hrest⟩ := Prod.mk.inj h
  obtain ⟨happrovals, hworkflow⟩ := Prod.mk.inj hrest
  have hrows : s'.levelRows item.id = s.levelRows item.id := by
    unfold Site.levelRows Site.approvalsOf
    rw [happrovals]
  rw [answer_overviewOf, answer_overviewOf, hrows, hworkflow, hoffice]

/-! ## What is listed -/

/-- May the actor read the item? -/
def IsReadable (s : Site) (actor : Option String) (item : Item) : Prop :=
  Access.allows s.office actor (.item item) .readItems = .ok true

/-- Is it an item with approvals, on the board and with a name as asked for, and in the archive or not as
    the filter says? -/
def isCandidate (s : Site) (f : ItemFilter) (boardId : Option Int) (search : String) (i : Item) :
    Bool :=
  s.approvals.rows.any (fun a => a.itemId == i.id) && i.isDeleted == (f == .archived)
    && boardId.all (fun b => i.boardId == b) && (search.isEmpty || Text.hasLike search i.name)

/-- How an item stands that the actor may read and the filter shows. -/
def shown? (s : Site) (actor : Option String) (f : ItemFilter) (item : Item) : Option Overview :=
  match Access.allows s.office actor (.item item) .readItems, (overviewOf item).answer s with
  | .ok true, .ok v => if f.shows v then some v else none
  | _, _ => none

/-- The items that a list shows, with how they stand. -/
def listingOf (s : Site) (actor : Option String) (f : ItemFilter) (items : List Item) :
    List (Item × Overview) :=
  items.filterMap fun item => (shown? s actor f item).map (item, ·)

/-- A listed item. -/
def entryValue (entry : Item × Overview) : Value :=
  .object (entry.1.fields ++ [("approvalStatus", entry.2.shortValue)])

/-- Everybody may be asked about the reading of an item. -/
theorem exists_allows (o : Office) (actor : Option String) (item : Item) :
    ∃ isAllowed, Access.allows o actor (.item item) .readItems = .ok isAllowed := by
  unfold Access.allows
  split
  · simp only
    split
    · exact ⟨_, rfl⟩
    · exact ⟨_, rfl⟩
  · exact ⟨_, rfl⟩

theorem shown?_of_not_readable {f : ItemFilter}
    (h : Access.allows s.office actor (.item item) .readItems = .ok false) :
    shown? s actor f item = none := by
  rw [shown?, h]

theorem shown?_of_overviewOf {f : ItemFilter} {v : Overview} (h : IsReadable s actor item)
    (hv : (overviewOf item).answer s = .ok v) :
    shown? s actor f item = if f.shows v then some v else none := by
  rw [shown?, h, hv]

/-- The list holds the listing where every item that may be read has an overview. -/
theorem answer_listed (f : ItemFilter) (items : List Item)
    (hstands : ∀ item ∈ items, IsReadable s actor item → ∃ v, (overviewOf item).answer s = .ok v)
    (h : s'.effective = s.effective) :
    (listed actor f items).answer s' = .ok ((listingOf s actor f items).map entryValue) := by
  induction items generalizing s' with
  | nil => rfl
  | cons item rest ih =>
    have hoffice : s'.office = s.office := (Prod.mk.inj h).1
    have hrest (s' : Site) (h : s'.effective = s.effective) :=
      ih (fun item hitem => hstands item (List.mem_cons_of_mem _ hitem)) h
    obtain ⟨isAllowed, hallows⟩ := exists_allows s.office actor item
    unfold listed listingOf
    rw [List.filterMap_cons, Task.answer_get_bind,
      Task.answer_bind_of_exec (Task.exec_ofResult ..), hoffice, hallows, Result.ok_bind]
    cases isAllowed with
    | false =>
      rw [shown?_of_not_readable hallows]
      exact hrest s' h
    | true =>
      obtain ⟨v, hv⟩ := hstands item (List.mem_cons_self ..) hallows
      have hafter : ((overviewOf item).after s').effective = s.effective :=
        (Site.keeps_overviewOf (R := Same Site.effective) item s').trans h
      rw [shown?_of_overviewOf hallows hv, if_pos rfl, Task.answer_bind,
        answer_overviewOf_congr h, hv, Result.ok_bind, Task.answer_bind, hrest _ hafter,
        Result.ok_bind]
      cases f.shows v with
      | false => rfl
      | true => rfl

theorem perm_candidates (s : Site) (f : ItemFilter) (boardId : Option Int) (search : String) :
    (candidates s (f == .archived) boardId search).Perm
      (s.office.items.rows.filter (isCandidate s f boardId search)) :=
  List.mergeSort_perm ..

/-- The newest comes first. -/
theorem newestFirst_candidates (s : Site) (archived : Bool) (boardId : Option Int)
    (search : String) :
    NewestFirst (·.createdAt.micros) (·.id) (candidates s archived boardId search) :=
  newestFirst_mergeSort (fun i : Item => i.createdAt.micros) (·.id) _

theorem candidates_congr (h : s'.effective = s.effective) (archived : Bool) (boardId : Option Int)
    (search : String) :
    candidates s' archived boardId search = candidates s archived boardId search := by
  obtain ⟨hoffice, hrest⟩ := Prod.mk.inj h
  unfold candidates
  rw [hoffice, (Prod.mk.inj hrest).1]

theorem map_listingOf (s : Site) (actor : Option String) (f : ItemFilter) (items : List Item) :
    (listingOf s actor f items).map Prod.fst =
      items.filter fun item => (shown? s actor f item).isSome := by
  induction items with
  | nil => rfl
  | cons item rest ih =>
    unfold listingOf at ih ⊢
    rw [List.filterMap_cons, List.filter_cons]
    cases shown? s actor f item with
    | none => exact ih
    | some v => exact congrArg (item :: ·) ih

/-! ## Pages -/

/-- A page as it is given back. -/
def pageValue (total _page : Nat) (part : List Value) : Value :=
  .object [("items", .list part), ("total", .int total)]

/-- What a call for a page gives. -/
theorem answer_listItems {f : ItemFilter} {filter search : String} {boardId : Option Int}
    {limit : Nat} {page : Nat} (hfilter : ItemFilter.ofWord filter = .ok f)
    (hboard : ∀ b ∈ boardId, checkKey b = .ok ())
    (hstands : ∀ item ∈ candidates s (f == .archived) boardId search, IsReadable s actor item →
      ∃ v, (overviewOf item).answer s = .ok v)
    (hpage : 1 ≤ page) (h : s'.effective = s.effective) :
    (listItems actor boardId filter search page limit).answer s' =
      .ok (pageValue (listingOf s actor f (candidates s (f == .archived) boardId search)).length
        page (pageOf limit ((listingOf s actor f
          (candidates s (f == .archived) boardId search)).map entryValue) page)) := by
  have hkey : (boardId.forM fun b => Task.ofResult (checkKey b) : SiteTask PUnit).exec s' =
      (.ok ⟨⟩, s') := by
    cases boardId with
    | none => rfl
    | some b => exact (Task.exec_ofResult ..).trans (by rw [hboard b rfl])
  unfold listItems
  rw [Task.answer_bind_of_exec (Task.exec_ofResult ..), hfilter, Result.ok_bind,
    Task.answer_bind_of_exec hkey, Result.ok_bind, Task.answer_get_bind, Task.answer_bind,
    candidates_congr h, answer_listed f _ hstands h, Result.ok_bind, Task.answer_pure,
    sliceOf_eq_pageOf hpage, List.length_map]
  rfl

/-- The items with approvals that an actor may read are handed out in pages to everybody. -/
theorem paged_listItems {f : ItemFilter} {filter : String} {boardId : Option Int} {limit : Int}
    (hlimit : 1 ≤ limit) (hfilter : ItemFilter.ofWord filter = .ok f)
    (hboard : ∀ b ∈ boardId, checkKey b = .ok ()) (search : String)
    (hstands : ∀ item ∈ candidates s (f == .archived) boardId search, IsReadable s actor item →
      ∃ v, (overviewOf item).answer s = .ok v) :
    ∃ part, Paged (fun page => listItems actor boardId filter search page limit) (fun _ => True)
      (pageValue (listingOf s actor f (candidates s (f == .archived) boardId search)).length)
      limit.toNat
      ((listingOf s actor f (candidates s (f == .archived) boardId search)).map entryValue)
      part s := by
  obtain ⟨size, rfl⟩ : ∃ size : Nat, limit = size := ⟨limit.toNat, by omega⟩
  have hsize : 0 < (size : Int).toNat := by omega
  refine ⟨_, paged_of_answers (g := Site.effective) hsize
    (fun page => Site.keeps_listItems actor boardId filter search page size) ?_ ?_ ?_⟩
  · intro page s' hs' hpage _
    exact answer_listItems hfilter hboard hstands hpage hs'
  · exact fun _ _ hfits => absurd trivial hfits
  · exact fun _ _ _ => trivial

end Approvals

namespace Site

/-- An automation that does nothing. -/
def idleAutomation (id : Int) (createdAt : Moment) : Automation where
  id
  boardId := 1
  name := "Idle"
  description := ""
  trigger := .object [("type", .text "item_created")]
  conditions := .null
  actions := .list []
  isActive := true
  createdBy := "A"
  createdAt
  updatedAt := createdAt

/-- The small site with two automations, and two items that wait on the first level. -/
def shelved : Site :=
  { small with
    office := { small.office with
      items := ⟨[.small, { Item.small with id := 2, createdAt := ⟨5⟩ }]⟩
      automations := ⟨[idleAutomation 1 ⟨0⟩, idleAutomation 2 ⟨5⟩]⟩ }
    approvals := ⟨[
      { id := 1, itemId := 1, level := "LEVEL_1", status := .pending, approver := some "A",
        comments := none, createdAt := ⟨0⟩, decidedAt := none },
      { id := 2, itemId := 2, level := "LEVEL_1", status := .pending, approver := some "A",
        comments := none, createdAt := ⟨5⟩, decidedAt := none }]⟩ }

end Site

end Signoff
