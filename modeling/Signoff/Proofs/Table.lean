import Signoff.Store.Table
import Mathlib.Data.List.Nodup

/-! # Keys of tables

    The key of a row finds that row as long as no two rows share a key. New keys
    are greater than all that are there, so adding, changing and removing rows
    keeps keys apart.
-/

namespace Signoff

/-- A list without its repetitions has none. -/
theorem nodup_eraseDups {α : Type} [BEq α] [LawfulBEq α] (l : List α) : l.eraseDups.Nodup := by
  match l with
  | [] => simp
  | first :: rest =>
    rw [List.eraseDups_cons, List.nodup_cons]
    refine ⟨?_, nodup_eraseDups _⟩
    simp
termination_by l.length
decreasing_by
  simp only [List.length_cons]
  exact Nat.lt_succ_of_le (List.length_filter_le ..)

/-- What is sorted by time, and by key where the times are equal, lies in this order. -/
theorem pairwise_oldest {α : Type} (time : α → Nat) (key : α → Int) (l : List α) :
    (l.mergeSort fun a b => time a < time b || (time a == time b && key a ≤ key b)).Pairwise
      fun a b => time a < time b ∨ time a = time b ∧ key a ≤ key b := by
  have hsorted : (l.mergeSort fun a b => time a < time b || (time a == time b && key a ≤ key b)).Pairwise
      fun a b => (time a < time b || (time a == time b && key a ≤ key b)) = true := by
    apply List.pairwise_mergeSort
    · intro a b c hab hbc
      simp at hab hbc ⊢
      omega
    · intro a b
      simp
      omega
  exact hsorted.imp fun h => by simpa using h

namespace Table

variable {α : Type} [Row α]

/-- No two rows have the same key. -/
def KeysDistinct (t : Table α) : Prop := (t.rows.map Row.key).Nodup

private theorem foldl_max_spec (l : List α) (n : Int) :
    n ≤ l.foldl (fun n row => max n (Row.key row)) n ∧
      ∀ row ∈ l, Row.key row ≤ l.foldl (fun n row => max n (Row.key row)) n := by
  induction l generalizing n with
  | nil => simp
  | cons first rest ih =>
    obtain ⟨h_start, h_rest⟩ := ih (max n (Row.key first))
    simp only [List.foldl_cons]
    refine ⟨by omega, ?_⟩
    intro row hrow
    rcases List.mem_cons.mp hrow with rfl | hrow
    · omega
    · exact h_rest row hrow

/-- A new key is greater than the keys that are there. -/
theorem key_lt_nextKey {t : Table α} {row : α} (h : row ∈ t.rows) : Row.key row < t.nextKey := by
  have := (foldl_max_spec t.rows 0).2 row h
  unfold nextKey lastKey
  omega

/-- New keys count upwards. -/
theorem nextKey_append (t : Table α) {row : α} (h : Row.key row = t.nextKey) :
    (⟨t.rows ++ [row]⟩ : Table α).nextKey = t.nextKey + 1 := by
  simp only [nextKey, lastKey] at h ⊢
  rw [List.foldl_append, List.foldl_cons, List.foldl_nil, h]
  omega

theorem zero_le_lastKey (t : Table α) : 0 ≤ t.lastKey := (foldl_max_spec t.rows 0).1

/-- The greatest key depends on the keys only. -/
theorem lastKey_congr {t t' : Table α} (h : t'.rows.map Row.key = t.rows.map Row.key) :
    t'.lastKey = t.lastKey := by
  have hkeys (t : Table α) : t.lastKey = (t.rows.map Row.key).foldl max 0 := by
    unfold lastKey
    rw [List.foldl_map]
  rw [hkeys, hkeys, h]

/-- A change that leaves the key of its row alone leaves all keys alone. -/
theorem keys_modify (t : Table α) {key : Int} {f : α → α}
    (hf : ∀ row, Row.key row = key → Row.key (f row) = key) :
    (t.modify key f).rows.map Row.key = t.rows.map Row.key := by
  simp only [Table.modify, List.map_map]
  apply List.map_congr_left
  intro row _
  by_cases hkey : Row.key row = key
  · simp [hkey, hf row hkey]
  · simp [hkey]

/-- What a change leaves alone in its row is left alone in all rows. -/
theorem map_modify (t : Table α) (key : Int) {β : Type} {f : α → α} {g : α → β}
    (hf : ∀ row, g (f row) = g row) : (t.modify key f).rows.map g = t.rows.map g := by
  simp only [Table.modify, List.map_map]
  apply List.map_congr_left
  intro row _
  rw [Function.comp_apply]
  split
  · exact hf row
  · rfl

namespace KeysDistinct

variable {t : Table α}

/-- With distinct keys, the row of a key is the only one that has it. -/
theorem eq_of_key_eq (h : t.KeysDistinct) {row row' : α} (hrow : row ∈ t.rows)
    (hrow' : row' ∈ t.rows) (hkey : Row.key row = Row.key row') : row = row' :=
  List.inj_on_of_nodup_map h hrow hrow' hkey

theorem modify (h : t.KeysDistinct) (key : Int) {f : α → α}
    (hf : ∀ row, Row.key row = key → Row.key (f row) = key) : (t.modify key f).KeysDistinct := by
  unfold KeysDistinct
  rw [keys_modify t hf]
  exact h

theorem erase (h : t.KeysDistinct) (key : Int) : (t.erase key).KeysDistinct :=
  List.Nodup.sublist (List.filter_sublist.map _) h

theorem append (h : t.KeysDistinct) {new : List α} (hnew : (new.map Row.key).Nodup)
    (hfresh : ∀ row ∈ new, t.nextKey ≤ Row.key row) :
    (⟨t.rows ++ new⟩ : Table α).KeysDistinct := by
  unfold KeysDistinct
  rw [List.map_append]
  refine List.Nodup.append h hnew ?_
  intro key hold hkey
  -- Every old key is below the next one, and every new key is not.
  obtain ⟨row, hrow, rfl⟩ := List.mem_map.mp hold
  obtain ⟨row', hrow', hkey'⟩ := List.mem_map.mp hkey
  have h_old := key_lt_nextKey hrow
  have h_new := hfresh row' hrow'
  omega

end KeysDistinct

/-- Sorted rows of a table have distinct keys as well. -/
theorem KeysDistinct.mergeSort_filter {t : Table α} (h : t.KeysDistinct) (p : α → Bool)
    (le : α → α → Bool) : (((t.rows.filter p).mergeSort le).map Row.key).Nodup := by
  have hperm := (List.mergeSort_perm (t.rows.filter p) le).map Row.key
  exact hperm.nodup_iff.mpr (List.Nodup.sublist (List.filter_sublist.map _) h)

theorem KeysDistinct.add {t : Table α} (h : t.KeysDistinct) {make : Int → α}
    (hkey : Row.key (make t.nextKey) = t.nextKey) : (t.add make).KeysDistinct := by
  refine h.append (List.nodup_singleton _) fun row hrow => ?_
  rw [List.mem_singleton.mp hrow]
  exact Int.le_of_eq hkey.symm

/-- Rows under other keys stay as they are. -/
theorem mem_modify_of_ne {t : Table α} {key : Int} {f : α → α}
    (hf : ∀ row, Row.key row = key → Row.key (f row) = key) {row : α} (hrow : Row.key row ≠ key) :
    row ∈ (t.modify key f).rows ↔ row ∈ t.rows := by
  unfold modify
  rw [List.mem_map]
  constructor
  · rintro ⟨old, hold, hchanged⟩
    split at hchanged
    · next hkey =>
      have hnew := hf old (beq_iff_eq.mp hkey)
      rw [hchanged] at hnew
      exact absurd hnew hrow
    · rwa [← hchanged]
  · intro hold
    exact ⟨row, hold, if_neg fun hkey => hrow (beq_iff_eq.mp hkey)⟩

/-- Where the row that is changed does not satisfy `P`, neither before nor behind, the rows that do are
    the same. -/
theorem KeysDistinct.mem_modify {t : Table α} (h : t.KeysDistinct) {P : α → Prop} {old : α}
    {f : α → α} (hold : old ∈ t.rows) (hbefore : ¬ P old) (hbehind : ¬ P (f old)) {row : α}
    (hrow : P row) :
    row ∈ (t.modify (Row.key old) f).rows ↔ row ∈ t.rows := by
  have honly : ∀ r ∈ t.rows, Row.key r = Row.key old → r = old := fun r hr hsame =>
    h.eq_of_key_eq hr hold hsame
  unfold Table.modify
  rw [List.mem_map]
  constructor
  · rintro ⟨r, hr, hchanged⟩
    split at hchanged
    · next hsame =>
      rw [honly r hr (beq_iff_eq.mp hsame)] at hchanged
      exact absurd (hchanged ▸ hrow) hbehind
    · rwa [← hchanged]
  · intro hmem
    refine ⟨row, hmem, if_neg fun hsame => hbefore ?_⟩
    rwa [← honly row hmem (beq_iff_eq.mp hsame)]

/-- The row that is found is there, under the key. -/
theorem mem_of_get? {t : Table α} {key : Int} {row : α} (h : t.get? key = some row) :
    row ∈ t.rows ∧ Row.key row = key :=
  ⟨List.mem_of_find?_eq_some h, by simpa using List.find?_some h⟩

/-- With distinct keys, every row is found under its key. -/
theorem KeysDistinct.get?_of_mem {t : Table α} {row : α} (h : t.KeysDistinct) (hrow : row ∈ t.rows) :
    t.get? (Row.key row) = some row := by
  have hthere : (t.get? (Row.key row)).isSome :=
    List.find?_isSome.mpr ⟨row, hrow, beq_self_eq_true _⟩
  obtain ⟨found, hfound⟩ := Option.isSome_iff_exists.mp hthere
  obtain ⟨hmem, hkey⟩ := mem_of_get? hfound
  rw [hfound, h.eq_of_key_eq hmem hrow hkey]

/-- What a change of the row leaves alone finds the same row. -/
theorem find?_modify (t : Table α) {key : Int} {f : α → α} {p : α → Bool}
    (hp : ∀ row, Row.key row = key → p (f row) = p row) :
    (t.modify key f).rows.find? p =
      (t.rows.find? p).map fun row => if Row.key row == key then f row else row := by
  have hsame : (p ∘ fun row => if Row.key row == key then f row else row) = p := by
    funext row
    rw [Function.comp_apply]
    split
    · next hkey => exact hp row (beq_iff_eq.mp hkey)
    · rfl
  unfold modify
  rw [List.find?_map, hsame]

/-- Under a key there is what was there, changed if it is the key of the change. -/
theorem get?_modify_eq_map (t : Table α) {key k : Int} {f : α → α}
    (hf : ∀ row, Row.key row = key → Row.key (f row) = key) :
    (t.modify key f).get? k = (t.get? k).map fun row => if Row.key row == key then f row else row := by
  apply find?_modify
  intro row hkey
  rw [hf row hkey, hkey]

/-- A changed row is found under its key. -/
theorem get?_modify {t : Table α} {key k : Int} {f : α → α} {row : α}
    (hf : ∀ row, Row.key row = key → Row.key (f row) = key) (h : t.get? k = some row) :
    (t.modify key f).get? k = some (if Row.key row == key then f row else row) := by
  rw [get?_modify_eq_map t hf, h]
  rfl

/-- The next key is not taken. -/
theorem get?_nextKey (t : Table α) : t.get? t.nextKey = none := by
  apply List.find?_eq_none.mpr
  intro row hrow hsame
  have hlt := key_lt_nextKey hrow
  rw [beq_iff_eq.mp hsame] at hlt
  omega

/-- A new row is found under the next key. -/
theorem get?_add_new (t : Table α) {make : Int → α}
    (hkey : Row.key (make t.nextKey) = t.nextKey) :
    (t.add make).get? t.nextKey = some (make t.nextKey) := by
  have hnone := get?_nextKey t
  unfold get? at hnone ⊢
  rw [rows_add, List.find?_append, hnone]
  simp [hkey]

/-- New rows do not hide those that are there. -/
theorem get?_add {t : Table α} {make : Int → α} {k : Int} {row : α} (h : t.get? k = some row) :
    (t.add make).get? k = some row := by
  unfold get? at h ⊢
  rw [rows_add, List.find?_append, h]
  rfl

end Table

end Signoff
