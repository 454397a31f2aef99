import Signoff.Proofs.Task
import Signoff.Proofs.Table

/-! # Looking up in the office

    Looking up items and boards, and asking for permission, changes nothing. An
    item that is found is there under its key, and whoever is permitted something
    has a name.
-/

open Signoff.Task (Keeps Reads)

namespace Signoff.Office

variable {o : Office} {key : Int} {archived : Bool} {item : Item}

theorem reads_findItem (key : Int) (archived : Bool) : Reads (findItem key archived) :=
  (Keeps.ofResult _).bind fun _ => Keeps.get.bind fun _ => .pure _

theorem reads_requireItem (key : Int) (archived : Bool) : Reads (requireItem key archived) := by
  refine (reads_findItem key archived).bind fun found => ?_
  cases found with
  | some item => exact .pure item
  | none => exact .throw _

theorem reads_demand (actor : Option String) (resource : Resource) (permission : Permission) :
    Reads (demand actor resource permission) :=
  Keeps.get.bind fun _ => .ofResult _

theorem answer_demand (o : Office) (actor : Option String) (resource : Resource)
    (permission : Permission) :
    (demand actor resource permission).answer o = Access.demand o actor resource permission := by
  unfold demand
  rw [Task.answer_get_bind, Task.answer_ofResult]

/-- Only somebody with a name is allowed anything. -/
theorem actor_of_demand {actor : Option String} {resource : Resource} {permission : Permission}
    (h : Access.demand o actor resource permission = .ok ()) :
    ∃ user, actor = some user ∧ user.isEmpty = false := by
  unfold Access.demand at h
  obtain ⟨isAllowed, hallows, h⟩ := Result.bind_eq_ok h
  cases isAllowed with
  | false => cases h
  | true =>
    unfold Access.allows at hallows
    split at hallows
    · split at hallows
      · cases hallows
      · next hname => exact ⟨_, rfl, by simpa using hname⟩
    · cases hallows

theorem answer_findItem (o : Office) (key : Int) (archived : Bool) :
    (findItem key archived).answer o =
      (checkKey key).map fun _ =>
        (o.items.get? key).filter fun i => archived || !i.isDeleted := by
  unfold findItem Task.answer
  rw [Task.exec_bind, Task.exec_ofResult]
  cases checkKey key <;> rfl

theorem answer_requireItem (o : Office) (key : Int) (archived : Bool) :
    (requireItem key archived).answer o = (do
      checkKey key
      match (o.items.get? key).filter fun i => archived || !i.isDeleted with
      | some item => pure item
      | none => throw (.notFound "Item" (.int key))) := by
  unfold requireItem
  rw [(reads_findItem key archived).answer_bind, answer_findItem]
  cases checkKey key with
  | error fault => rfl
  | ok _ =>
    simp only [Except.map, bind, Except.bind]
    cases (o.items.get? key).filter fun i => archived || !i.isDeleted <;> rfl

/-- The item that is found is there, and live unless archived ones are asked for. -/
theorem get?_of_requireItem (h : (requireItem key archived).answer o = .ok item) :
    o.items.get? key = some item ∧ (archived || !item.isDeleted) = true := by
  rw [answer_requireItem] at h
  obtain ⟨_, -, h⟩ := Result.bind_eq_ok h
  split at h
  · next found hfound =>
    cases h
    exact Option.filter_eq_some_iff.mp hfound
  · cases h

/-- An item is only looked for under keys that can be stored. -/
theorem checkKey_of_requireItem (h : (requireItem key archived).answer o = .ok item) :
    checkKey key = .ok () := by
  rw [answer_requireItem] at h
  obtain ⟨_, hkey, -⟩ := Result.bind_eq_ok h
  exact hkey

/-- An item that is there is found, unless it is archived and only live ones are asked for. -/
theorem answer_requireItem_of_get? (hkey : checkKey key = .ok ())
    (hitem : o.items.get? key = some item) :
    (requireItem key archived).answer o =
      if archived || !item.isDeleted then .ok item else .error (.notFound "Item" (.int key)) := by
  rw [answer_requireItem, hkey, hitem]
  cases hfound : archived || !item.isDeleted with
  | true =>
    simp only [Option.filter_some, hfound]
    rfl
  | false =>
    simp only [Option.filter_some, hfound]
    rfl

/-- A live item is also found where archived ones are asked for. -/
theorem requireItem_archived (h : (requireItem key archived).answer o = .ok item) :
    (requireItem key true).answer o = .ok item := by
  obtain ⟨hitem, -⟩ := get?_of_requireItem h
  rw [answer_requireItem] at h ⊢
  obtain ⟨_, hkey, -⟩ := Result.bind_eq_ok h
  rw [hkey, hitem]
  rfl

/-- An item is found under its own key. -/
theorem id_of_requireItem (h : (requireItem key archived).answer o = .ok item) : item.id = key :=
  (Table.mem_of_get? (get?_of_requireItem h).1).2

/-! ## Boards, columns and snapshots -/

theorem reads_requireBoard (key : Value) : Reads (requireBoard key) := by
  have hfind : Reads (findBoard key) := by
    refine (Keeps.ofResult _).bind fun n => ?_
    cases n with
    | some n => exact (Keeps.ofResult _).bind fun _ => Keeps.get.bind fun _ => .pure _
    | none => exact .pure _
  refine hfind.bind fun found => ?_
  cases found with
  | some b => exact .pure b
  | none => exact .throw _

/-- The board that is found is the one that the value names. -/
theorem get?_of_requireBoard {key : Value} {b : Board}
    (h : (requireBoard key).answer o = .ok b) :
    ∃ n, key.key? = .ok (some n) ∧ o.boards.get? n = some b := by
  unfold requireBoard findBoard at h
  rw [bind_assoc, Reads.answer_bind (.ofResult _), Task.answer_ofResult] at h
  obtain ⟨n, hn, h⟩ := Result.bind_eq_ok h
  cases n with
  | none => cases h
  | some n =>
    refine ⟨n, hn, ?_⟩
    simp only at h
    rw [bind_assoc, Reads.answer_bind (.ofResult _), Task.answer_ofResult] at h
    obtain ⟨_, -, h⟩ := Result.bind_eq_ok h
    rw [bind_assoc, Task.answer_get_bind, pure_bind] at h
    cases hget : o.boards.get? n with
    | none =>
      rw [hget] at h
      cases h
    | some found =>
      rw [hget] at h
      cases h
      rfl

theorem reads_columnKey (column : Value) : Reads (columnKey column) := by
  refine (Keeps.ofResult _).bind fun n => ?_
  cases n with
  | some n => exact .pure n
  | none => exact .throw _

theorem reads_snapshot (item : Item) : Reads (snapshot item) := Keeps.get.bind fun _ => .pure _

end Signoff.Office
