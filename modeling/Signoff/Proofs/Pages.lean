import Signoff.Proofs.Task
import Signoff.Store.Query
import Signoff.Value.Basic

/-! # Lists in pages

    A list that is handed out page by page is handed out as a whole:

    * `NewestFirst`: the order of such a list.
    * `pageOf`: the part of a list that lies on a page, where the first page is 1.
      `pageCount`: how many pages a list needs.
    * `flatMap_pageOf`: these pages, one behind another, are the list.
      `pageOf_eq_nil`: nothing lies behind them.
    * `Paged`: what it means that calls hand out a listing in pages.
      `paged_of_answers`: it is enough to know every single call.
-/

open Signoff.Task (Keeps Same)

namespace Signoff

/-- The newest come first, and of those with the same time the ones with greater keys. -/
def NewestFirst {α : Type} (time : α → Nat) (key : α → Int) (l : List α) : Prop :=
  l.Pairwise fun a b => time b < time a ∨ time a = time b ∧ key b ≤ key a

/-- Sorting by falling time, and by falling key where the times are equal, gives this order. -/
theorem newestFirst_mergeSort {α : Type} (time : α → Nat) (key : α → Int) (l : List α) :
    NewestFirst time key
      (l.mergeSort fun a b => time b < time a || (time a == time b && key b ≤ key a)) := by
  have hsorted : (l.mergeSort fun a b => time b < time a || (time a == time b && key b ≤ key a)).Pairwise
      fun a b => (time b < time a || (time a == time b && key b ≤ key a)) = true := by
    apply List.pairwise_mergeSort
    · intro a b c hab hbc
      simp at hab hbc ⊢
      omega
    · intro a b
      simp
      omega
  exact hsorted.imp fun h => by simpa using h

/-! ## Parts -/

section Parts

variable {α : Type} {size page : Nat} {l : List α}

/-- How many pages of a size some entries need. -/
def pageCount (size entries : Nat) : Nat := (entries + size - 1) / size

/-- The part of a list that lies on a page. -/
def pageOf (size : Nat) (l : List α) (page : Nat) : List α :=
  (l.drop ((page - 1) * size)).take size

theorem placeIn_natCast (n k : Nat) : placeIn n k = min k n := by
  unfold placeIn
  rw [if_neg (by omega), Int.toNat_natCast]

theorem sliceOf_natCast (l : List α) (start size : Nat) :
    sliceOf l start ((start + size : Nat) : Int) = (l.drop start).take size := by
  simp only [sliceOf, placeIn_natCast, ← List.take_eq_take_min, List.drop_take]
  by_cases hlong : start ≤ l.length
  · rw [Nat.min_eq_left hlong, Nat.add_sub_cancel_left]
  · have hbehind : l.length ≤ start := by omega
    rw [Nat.min_eq_right hbehind, List.drop_length, List.drop_of_length_le hbehind]
    simp

/-- Slices that start behind whole pages are pages. -/
theorem sliceOf_eq_pageOf (h : 1 ≤ page) (l : List α) :
    sliceOf l (((page : Int) - 1) * size) (((page : Int) - 1) * size + size) =
      pageOf size l page := by
  have hstart : ((page : Int) - 1) * size = ((page - 1) * size : Nat) := by
    rw [Int.natCast_mul, Int.natCast_sub h, Int.natCast_one]
  rw [hstart, ← Int.natCast_add, sliceOf_natCast, pageOf]

theorem map_pageOf {β : Type} (f : α → β) (size : Nat) (l : List α) (page : Nat) :
    (pageOf size l page).map f = pageOf size (l.map f) page := by
  rw [pageOf, pageOf, List.map_take, List.map_drop]

/-- So many pages hold so many entries. -/
theorem flatMap_range'_pageOf (size : Nat) (l : List α) (n : Nat) :
    (List.range' 1 n).flatMap (pageOf size l) = l.take (n * size) := by
  induction n with
  | zero => simp
  | succ n ih =>
    rw [List.range'_1_concat, List.flatMap_append, ih, List.flatMap_singleton, Nat.add_one_mul,
      List.take_add, pageOf, Nat.add_sub_cancel_left]

/-- The number of pages, as it is computed with numbers that may be below zero. -/
theorem natCast_pageCount (hsize : 0 < size) (entries : Nat) :
    (pageCount size entries : Int) = ((entries : Int) + size - 1) / size := by
  rw [pageCount, Int.natCast_ediv, Int.natCast_sub (by omega), Int.natCast_add, Int.natCast_one]

/-- The pages that a list needs have room for it. -/
theorem le_pageCount_mul (hsize : 0 < size) (n : Nat) : n ≤ pageCount size n * size := by
  have hdiv : size * ((n + size - 1) / size) + (n + size - 1) % size = n + size - 1 :=
    Nat.div_add_mod ..
  have hmod : (n + size - 1) % size < size := Nat.mod_lt _ hsize
  rw [pageCount, Nat.mul_comm]
  omega

/-- The pages that a list needs hold the list. -/
theorem flatMap_pageOf (hsize : 0 < size) (l : List α) :
    (List.range' 1 (pageCount size l.length)).flatMap (pageOf size l) = l := by
  rw [flatMap_range'_pageOf, List.take_of_length_le (le_pageCount_mul hsize l.length)]

/-- Nothing is left for later pages. -/
theorem pageOf_eq_nil (hsize : 0 < size) (h : pageCount size l.length < page) :
    pageOf size l page = [] := by
  have hroom : pageCount size l.length * size ≤ (page - 1) * size :=
    Nat.mul_le_mul_right _ (by omega)
  have hlong : l.length ≤ (page - 1) * size := Nat.le_trans (le_pageCount_mul hsize _) hroom
  rw [pageOf, List.drop_of_length_le hlong, List.take_nil]

/-- A page that a list needs starts within the list. -/
theorem start_lt_of_le_pageCount (hsize : 0 < size) {n : Nat} (hpage : 1 ≤ page)
    (h : page ≤ pageCount size n) : (page - 1) * size < n := by
  have hpages : page * size ≤ pageCount size n * size := Nat.mul_le_mul_right _ h
  have hrest : pageCount size n * size ≤ n + size - 1 := Nat.div_mul_le_self ..
  have hstart : (page - 1) * size + size = page * size := by
    rw [← Nat.succ_mul, Nat.succ_eq_add_one, Nat.sub_add_cancel hpage]
  omega

end Parts

/-! ## Calls -/

variable {σ α β γ : Type}

/-- Calls that give the same whatever happened to the rest of the state give the same in a row. -/
theorem Task.answer_mapM {g : σ → γ} {s : σ} {f : α → Task σ β} {y : α → β} (l : List α)
    (hkeeps : ∀ x ∈ l, Keeps (Same g) (f x))
    (hanswer : ∀ x ∈ l, ∀ s', g s' = g s → (f x).answer s' = .ok (y x)) :
    (l.mapM f).answer s = .ok (l.map y) := by
  suffices hall : ∀ s', g s' = g s → (l.mapM f).answer s' = .ok (l.map y) from hall s rfl
  induction l with
  | nil => exact fun _ _ => rfl
  | cons x l ih =>
    intro s' hs'
    have hafter : g ((f x).after s') = g s := (hkeeps x (List.mem_cons_self ..) s').trans hs'
    have hrest := ih (fun x hx => hkeeps x (List.mem_cons_of_mem _ hx))
      (fun x hx => hanswer x (List.mem_cons_of_mem _ hx)) _ hafter
    rw [List.mapM_cons, Task.answer_bind, hanswer x (List.mem_cons_self ..) s' hs',
      Result.ok_bind, Task.answer_bind, hrest]
    rfl

/-- The calls hand out a listing in pages of a size. Not every page can be asked for, and a page is
    told about as its answer says. -/
structure Paged (fetch : Nat → Task σ Value) (fits : Nat → Prop)
    (respond : Nat → List Value → Value) (size : Nat) (listing : List Value)
    (part : Nat → List Value) (s : σ) : Prop where
  /-- Every page holds its part of the listing. -/
  answered : ∀ page, 1 ≤ page → fits page → (fetch page).answer s = .ok (respond page (part page))
  /-- A page that cannot be asked for is refused. -/
  refused : ∀ page, 1 ≤ page → ¬ fits page → ∃ fault, (fetch page).answer s = .error fault
  /-- All the pages that the listing needs can be read in a row. -/
  readable : ((List.range' 1 (pageCount size listing.length)).mapM fetch).answer s =
    .ok ((List.range' 1 (pageCount size listing.length)).map fun page => respond page (part page))
  /-- They hold the whole of it, every entry once and in order. -/
  joined : (List.range' 1 (pageCount size listing.length)).flatMap part = listing
  /-- No page holds more than its size. -/
  short : ∀ page, (part page).length ≤ size
  /-- Later pages are empty. -/
  later : ∀ page, pageCount size listing.length < page → part page = []

/-- Calls that hand out the pages of a listing whatever happened to the rest of the state hand it out
    as a whole. -/
theorem paged_of_answers {fetch : Nat → Task σ Value} {fits : Nat → Prop}
    {respond : Nat → List Value → Value} {size : Nat} {listing : List Value} {g : σ → γ} {s : σ}
    (hsize : 0 < size) (hkeeps : ∀ page, Keeps (Same g) (fetch page))
    (hanswer : ∀ page s', g s' = g s → 1 ≤ page → fits page →
      (fetch page).answer s' = .ok (respond page (pageOf size listing page)))
    (hrefused : ∀ page, 1 ≤ page → ¬ fits page → ∃ fault, (fetch page).answer s = .error fault)
    (hfits : ∀ page, 1 ≤ page → page ≤ pageCount size listing.length → fits page) :
    Paged fetch fits respond size listing (pageOf size listing) s where
  answered page hpage hfit := hanswer page s rfl hpage hfit
  refused := hrefused
  readable := by
    refine Task.answer_mapM _ (fun page _ => hkeeps page) fun page hmem s' hs' => ?_
    obtain ⟨hfirst, hlast⟩ := List.mem_range'_1.mp hmem
    exact hanswer page s' hs' hfirst (hfits page hfirst (by omega))
  joined := flatMap_pageOf hsize listing
  short page := by
    rw [pageOf, List.length_take]
    omega
  later page hpage := pageOf_eq_nil hsize hpage

end Signoff
