import Signoff.Automation.Catalog
import Signoff.Proofs.Office.Items
import Signoff.Proofs.Pages

/-! # The pages of automations

    The automations of a board are listed newest first, a page at a time:

    * `Automations.wanted`: the ones that are asked for.
    * `perm_matching`, `newestFirst_matching`: the listing is these, in this order.
    * `reads_list`: listing them changes nothing.
    * `paged_list`: the pages of any size hold the listing as a whole.
-/

open Signoff.Task (Keeps Reads Same)

namespace Signoff

/-- What is counted within a number that the store can hold, it can hold as well. -/
theorem checkKey_of_le {m n : Nat} (hle : m ≤ n) (h : checkKey n = .ok ()) :
    checkKey m = .ok () := by
  have hn : TextColumn.fits n = true := by
    unfold checkKey at h
    cases hfits : TextColumn.fits n with
    | true => rfl
    | false =>
      rw [hfits] at h
      cases h
  obtain ⟨-, hlt⟩ := Bool.and_eq_true_iff.mp hn
  have hm : TextColumn.fits m = true := by
    refine Bool.and_eq_true_iff.mpr ⟨?_, ?_⟩
    · exact decide_eq_true (by unfold TextColumn.bound; omega)
    · exact decide_eq_true (by have := of_decide_eq_true hlt; omega)
  rw [checkKey, hm]
  rfl

namespace Automations

variable {o : Office} {board : Value} {b : Board} {actor : Option String} {isActive : Option Bool}
  {search : String} {limit : Int} {page : Nat}

/-- Is it an automation of the board, with the activity and a name as asked for? -/
def wanted (boardId : Int) (isActive : Option Bool) (search : String) (a : Automation) : Bool :=
  a.boardId == boardId && isActive.all (fun b => a.isActive == b)
    && (search.isEmpty || Text.hasLike search a.name)

/-- Every wanted automation is listed as often as it is stored. -/
theorem perm_matching (o : Office) (boardId : Int) (isActive : Option Bool) (search : String) :
    (matching o boardId isActive search).Perm
      (o.automations.rows.filter (wanted boardId isActive search)) :=
  List.mergeSort_perm ..

/-- The newest comes first. -/
theorem newestFirst_matching (o : Office) (boardId : Int) (isActive : Option Bool)
    (search : String) :
    NewestFirst (·.createdAt.micros) (·.id) (matching o boardId isActive search) :=
  newestFirst_mergeSort (fun a : Automation => a.createdAt.micros) (·.id) _

/-- A page as it is given back. -/
def pageValue (limit : Int) (total page : Nat) (part : List Value) : Value :=
  .object [
    ("automations", .list part),
    ("pagination", .object [("page", .int page), ("limit", .int (pageSize limit)),
      ("total", .int total), ("totalPages", .int (pageCount (pageSize limit).toNat total))])]

/-- A page can be asked for if the store can count what lies in front of it. -/
def Reaches (limit : Int) (page : Nat) : Prop :=
  checkKey (((page : Int) - 1) * pageSize limit) = .ok ()

theorem pageSize_pos (limit : Int) : 0 < (pageSize limit).toNat := by
  unfold pageSize
  omega

theorem natCast_pageSize (limit : Int) : ((pageSize limit).toNat : Int) = pageSize limit := by
  unfold pageSize
  omega

theorem reads_list (board : Value) (actor : Option String) (isActive : Option Bool)
    (search : String) (page limit : Int) : Reads (list board actor isActive search page limit) := by
  refine (Office.reads_requireBoard board).bind fun b => ?_
  refine (Office.reads_demand actor _ _).bind fun _ => ?_
  refine .ite (.throw _) ?_
  exact (Keeps.ofResult _).bind fun _ => Keeps.get.bind fun _ => .pure _

/-- What a call for a page of a board gives that the actor may read. -/
theorem answer_list (hboard : (Office.requireBoard board).answer o = .ok b)
    (hallowed : Access.allows o actor (.board b) .readItems = .ok true) (hpage : 1 ≤ page) :
    (list board actor isActive search page limit).answer o =
      (checkKey (((page : Int) - 1) * pageSize limit)).map fun _ =>
        pageValue limit (matching o b.id isActive search).length page
          (pageOf (pageSize limit).toNat
            ((matching o b.id isActive search).map Automation.toValue) page) := by
  have hdemand : Access.demand o actor (.board b) .readItems = .ok () := by
    rw [Access.demand, hallowed]
    rfl
  have hfirst : ¬ (page : Int) < 1 := by omega
  have hsize : ((pageSize limit).toNat : Int) = pageSize limit := natCast_pageSize limit
  have hslice : sliceOf (matching o b.id isActive search) (((page : Int) - 1) * pageSize limit)
      (((page : Int) - 1) * pageSize limit + pageSize limit) =
        pageOf (pageSize limit).toNat (matching o b.id isActive search) page := by
    rw [← sliceOf_eq_pageOf hpage, hsize]
  have hcount := natCast_pageCount (pageSize_pos limit) (matching o b.id isActive search).length
  rw [hsize] at hcount
  unfold list
  rw [(Office.reads_requireBoard board).answer_bind, hboard, Result.ok_bind,
    (Office.reads_demand actor _ _).answer_bind, Office.answer_demand, hdemand, Result.ok_bind,
    if_neg hfirst, Task.answer_bind_of_exec (Task.exec_ofResult ..)]
  cases checkKey (((page : Int) - 1) * pageSize limit) with
  | error fault => rfl
  | ok _ =>
    rw [Result.ok_bind, Task.answer_get_bind, Task.answer_pure, hslice, map_pageOf, pageValue, hcount]
    rfl

/-- The automations of a board are handed out in pages to everybody who may read it. -/
theorem paged_list (hboard : (Office.requireBoard board).answer o = .ok b)
    (hallowed : Access.allows o actor (.board b) .readItems = .ok true)
    (hcount : checkKey o.automations.rows.length = .ok ()) (isActive : Option Bool)
    (search : String) (limit : Int) :
    ∃ part, Paged (fun page => list board actor isActive search page limit) (Reaches limit)
      (pageValue limit (matching o b.id isActive search).length) (pageSize limit).toNat
      ((matching o b.id isActive search).map Automation.toValue) part o := by
  refine ⟨_, paged_of_answers (pageSize_pos limit)
    (fun page => reads_list board actor isActive search page limit) ?_ ?_ ?_⟩
  · intro page s' hs' hpage hfits
    obtain rfl : s' = o := hs'
    rw [answer_list hboard hallowed hpage, hfits]
    rfl
  · intro page hpage hfits
    rw [answer_list hboard hallowed hpage]
    cases hkey : checkKey (((page : Int) - 1) * pageSize limit) with
    | ok _ => exact absurd hkey hfits
    | error fault => exact ⟨fault, rfl⟩
  · intro page hpage hlast
    -- The page starts within the listing, which is no longer than the table.
    rw [List.length_map] at hlast
    have hstart := start_lt_of_le_pageCount (pageSize_pos limit) hpage hlast
    have hlength := (perm_matching o b.id isActive search).length_eq
    have hfilter := List.length_filter_le (wanted b.id isActive search) o.automations.rows
    have hcast : ((page : Int) - 1) * pageSize limit =
        ((page - 1) * (pageSize limit).toNat : Nat) := by
      rw [Int.natCast_mul, Int.natCast_sub hpage, natCast_pageSize, Int.natCast_one]
    rw [Reaches, hcast]
    exact checkKey_of_le (by omega) hcount

end Automations

end Signoff
