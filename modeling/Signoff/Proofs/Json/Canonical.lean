import Signoff.Proofs.Json.Strings
import Signoff.Proofs.Number.Written

/-! # Canonical texts tell trees apart

    Two values have the same canonical text just if they are the same tree, but for the
    order in which fields are written:

    * `Value.IsJson`: the values that JSON knows. `Value.SameTree`: being the same tree.
    * `Ends`: what may follow a value within a text.
    * `sequence_inj`: what is written with commas in between is told apart where its
      parts are.
    * `apart_canonical`: so a value is told apart from every other, whatever
      follows the two. The induction is on the value, as its parts are values as well.
    * `canonical_eq_iff`: canonical texts are equal just if the trees are the same.
-/

namespace Signoff

namespace Value

/-- Induction on a value, with what holds of all of its items or fields. -/
@[elab_as_elim]
theorem induction_on_parts {P : Value → Prop} (null : P .null) (bool : ∀ b, P (.bool b))
    (int : ∀ n, P (.int n)) (float : ∀ x, P (.float x)) (text : ∀ s, P (.text s))
    (list : ∀ items, (∀ v ∈ items, P v) → P (.list items))
    (object : ∀ fields : Fields, (∀ field ∈ fields, P field.2) → P (.object fields)) :
    ∀ v, P v
  | .null => null
  | .bool b => bool b
  | .int n => int n
  | .float x => float x
  | .text s => text s
  | .list items =>
    list items fun v _ => induction_on_parts null bool int float text list object v
  | .object fields =>
    object fields fun field _ => induction_on_parts null bool int float text list object field.2
termination_by v => sizeOf v
decreasing_by
  · next hv =>
    have hlt := List.sizeOf_lt_of_mem hv
    rw [Value.list.sizeOf_spec]
    omega
  · next hfield =>
    have hlt := List.sizeOf_lt_of_mem hfield
    rw [Prod.mk.sizeOf_spec] at hlt
    rw [Value.object.sizeOf_spec]
    omega

/-- A value that JSON knows: its numbers are finite, and no object has a name twice. -/
inductive IsJson : Value → Prop where
  | null : IsJson .null
  | bool (b : Bool) : IsJson (.bool b)
  | int (n : Int) : IsJson (.int n)
  | float {x : Float} (hx : x.isFinite = true) : IsJson (.float x)
  | text (s : String) : IsJson (.text s)
  | list {items : List Value} (h : ∀ v ∈ items, IsJson v) : IsJson (.list items)
  | object {fields : Fields} (hnames : (fields.map (·.1)).Nodup)
      (h : ∀ field ∈ fields, IsJson field.2) : IsJson (.object fields)

/-- The same tree up to the order of fields: some order of the fields of both objects has the same
    names, and under them the same trees. Integers, doubles and Booleans are different leaves, and so are
    two doubles that are not one and the same, as zero and its opposite. -/
inductive SameTree : Value → Value → Prop where
  | null : SameTree .null .null
  | bool (b : Bool) : SameTree (.bool b) (.bool b)
  | int (n : Int) : SameTree (.int n) (.int n)
  | float (x : Float) : SameTree (.float x) (.float x)
  | text (s : String) : SameTree (.text s) (.text s)
  | list {items items' : List Value} (h : List.Forall₂ SameTree items items') :
      SameTree (.list items) (.list items')
  | object {fields fields' ordered ordered' : Fields} (hfields : fields.Perm ordered)
      (hfields' : fields'.Perm ordered')
      (hnames : ordered.map (·.1) = ordered'.map (·.1))
      (h : List.Forall₂ SameTree (ordered.map (·.2)) (ordered'.map (·.2))) :
      SameTree (.object fields) (.object fields')

/-- Every value is the same tree as itself. -/
theorem SameTree.refl (v : Value) : SameTree v v := by
  induction v using Value.induction_on_parts with
  | null => exact .null
  | bool b => exact .bool b
  | int n => exact .int n
  | float x => exact .float x
  | text s => exact .text s
  | list items ih => exact .list (List.forall₂_same.mpr ih)
  | object fields ih =>
    refine .object (List.Perm.refl _) (List.Perm.refl _) rfl (List.forall₂_same.mpr fun v hv => ?_)
    obtain ⟨field, hfield, rfl⟩ := List.mem_map.mp hv
    exact ih field hfield

theorem IsJson.isFinite {x : Float} (h : IsJson (.float x)) : x.isFinite = true := by
  cases h with
  | float hx => exact hx

theorem IsJson.of_mem {items : List Value} (h : IsJson (.list items)) : ∀ v ∈ items, IsJson v := by
  cases h with
  | list h => exact h

theorem IsJson.of_mem_fields {fields : Fields} (h : IsJson (.object fields)) :
    (fields.map (·.1)).Nodup ∧ ∀ field ∈ fields, IsJson field.2 := by
  cases h with
  | object hnames h => exact ⟨hnames, h⟩

end Value

namespace Json

open Float.Model (UnpackedFloat)
open Value (IsJson SameTree)

variable {v w : Value} {items items' : List Value} {fields fields' : Fields} {c close : Char}
  {r s : List Char}

/-! ## The parts of canonical texts -/

theorem canonicalItems_eq_map (items : List Value) : canonicalItems items = items.map canonical := by
  induction items with
  | nil => rfl
  | cons v rest ih => rw [canonicalItems, ih, List.map_cons]

theorem canonicalFields_eq_map (fields : Fields) :
    canonicalFields fields = fields.map fun field => (field.1, canonical field.2) := by
  induction fields with
  | nil => rfl
  | cons field rest ih => rw [canonicalFields, ih, List.map_cons]

/-- A field as it is written. -/
def fieldText (field : String × Value) : List Char :=
  (stringText field.1).toList ++ ':' :: ' ' :: (canonical field.2).toList

/-- Texts one behind another, with commas in between. -/
def joined {α : Type} (text : α → List Char) : List α → List Char
  | [] => []
  | a :: rest => text a ++ rest.flatMap fun a => ',' :: ' ' :: text a

theorem joined_cons_cons {α : Type} (text : α → List Char) (a b : α) (rest : List α) :
    joined text (a :: b :: rest) = text a ++ ([',', ' '] ++ joined text (b :: rest)) := by
  simp [joined]

theorem toList_intercalate {α : Type} (text : α → String) (l : List α) :
    (", ".intercalate (l.map text)).toList = joined (fun a => (text a).toList) l := by
  rw [String.toList_intercalate, List.map_map]
  induction l with
  | nil => rfl
  | cons a rest ih =>
    cases rest with
    | nil => simp [joined]
    | cons b rest =>
      rw [List.map_cons, List.map_cons, List.intercalate_cons_cons, joined_cons_cons, ← ih,
        List.append_assoc, List.map_cons]
      rfl

theorem toList_canonical_list (items : List Value) :
    (canonical (.list items)).toList =
      '[' :: (joined (fun v => (canonical v).toList) items ++ [']']) := by
  rw [canonical, canonicalItems_eq_map, String.toList_append, String.toList_append,
    toList_intercalate]
  rfl

/-- Fields are sorted by their names, whatever their values are. -/
theorem sortFields_map {α β : Type} (f : α → β) (fields : List (String × α)) :
    sortFields (fields.map fun field => (field.1, f field.2)) =
      (sortFields fields).map fun field => (field.1, f field.2) := by
  unfold sortFields
  rw [List.map_mergeSort]
  exact fun _ _ _ _ => rfl

theorem perm_sortFields {α : Type} (fields : List (String × α)) : fields.Perm (sortFields fields) :=
  (List.mergeSort_perm fields _).symm

theorem toList_canonical_object (fields : Fields) :
    (canonical (.object fields)).toList =
      '\x7b' :: (joined fieldText (sortFields fields) ++ ['\x7d']) := by
  rw [canonical, canonicalFields_eq_map, sortFields_map, List.map_map, String.toList_append,
    String.toList_append, toList_intercalate]
  have htext : (fun field : String × Value =>
      (stringText field.1 ++ ": " ++ canonical field.2).toList) = fieldText := by
    funext field
    simp [fieldText]
  exact congrArg (fun text => '\x7b' :: (joined text (sortFields fields) ++ ['\x7d'])) htext

/-! ## What follows a value -/

/-- The characters that may stand behind a value. -/
def closers : List Char := [',', ']', '\x7d']

/-- The characters that texts, lists and objects begin with. -/
def openers : List Char := ['"', '[', '\x7b']

/-- What may follow a value: nothing, a comma, or the end of a list or an object. -/
def Ends (r : List Char) : Prop := ∀ c ∈ r.head?, c ∈ closers

/-- Texts without such characters are told apart from what follows them. -/
theorem append_inj_of_ends {t t' : List Char} (ht : ∀ c ∈ t, c ∉ closers)
    (ht' : ∀ c ∈ t', c ∉ closers) (hr : Ends r) (hs : Ends s)
    (h : t ++ r = t' ++ s) : t = t' ∧ r = s := by
  induction t generalizing t' with
  | nil =>
    cases t' with
    | nil => exact ⟨rfl, h⟩
    | cons c t' =>
      have hhead : r = c :: (t' ++ s) := h
      exact absurd (hr c (by simp [hhead])) (ht' c (List.mem_cons_self ..))
  | cons c t ih =>
    cases t' with
    | nil =>
      have hhead : s = c :: (t ++ r) := h.symm
      exact absurd (hs c (by simp [hhead])) (ht c (List.mem_cons_self ..))
    | cons d t' =>
      obtain ⟨hcd, htail⟩ := List.cons.inj h
      obtain ⟨htt', hrs⟩ := ih (fun c hc => ht c (List.mem_cons_of_mem _ hc))
        (fun c hc => ht' c (List.mem_cons_of_mem _ hc)) htail
      exact ⟨by rw [hcd, htt'], hrs⟩

section Sequences

variable {α : Type} {text : α → List Char} {R : α → α → Prop} {xs ys : List α}

/-- Two texts are told apart, whatever may follow them, or else they stand for related things. -/
def Apart (text : α → List Char) (R : α → α → Prop) (x y : α) : Prop :=
  ∀ ⦃r s⦄, Ends r → Ends s → text x ++ r = text y ++ s → R x y ∧ r = s

/-- What stands behind the first of several texts, up to the end of them all. -/
def following (text : α → List Char) (xs : List α) (close : Char) (r : List Char) : List Char :=
  (xs.flatMap fun x => ',' :: ' ' :: text x) ++ close :: r

theorem ends_following (hclose : close ∈ [']', '\x7d']) (text : α → List Char) (xs : List α)
    (r : List Char) : Ends (following text xs close r) := by
  intro c hc
  cases xs with
  | nil =>
    obtain rfl : close = c := by simpa [following] using hc
    exact List.mem_cons_of_mem _ hclose
  | cons x xs =>
    obtain rfl : ',' = c := by simpa [following] using hc
    exact List.mem_cons_self ..

/-- It is told apart where each of the texts is. -/
theorem following_inj (hclose : close ∈ [']', '\x7d'])
    (hapart : ∀ x ∈ xs, ∀ y ∈ ys, Apart text R x y)
    (h : following text xs close r = following text ys close s) :
    List.Forall₂ R xs ys ∧ r = s := by
  have hcomma : close ≠ ',' := by
    rintro rfl
    simp at hclose
  induction xs generalizing ys with
  | nil =>
    cases ys with
    | nil => exact ⟨.nil, by simpa [following] using h⟩
    | cons y ys => exact absurd (List.cons.inj h).1 hcomma
  | cons x xs ih =>
    cases ys with
    | nil => exact absurd (List.cons.inj h).1.symm hcomma
    | cons y ys =>
      have htext : text x ++ following text xs close r = text y ++ following text ys close s := by
        simpa [following] using h
      obtain ⟨hxy, htail⟩ := hapart x (List.mem_cons_self ..) y (List.mem_cons_self ..)
        (ends_following hclose text xs r) (ends_following hclose text ys s) htext
      obtain ⟨hrest, hrs⟩ := ih (fun x hx y hy =>
        hapart x (List.mem_cons_of_mem _ hx) y (List.mem_cons_of_mem _ hy)) htail
      exact ⟨.cons hxy hrest, hrs⟩

/-- Such texts are what stands behind a first text, but for the comma in front of it. -/
theorem following_cons (text : α → List Char) (x : α) (xs : List α) (close : Char)
    (r : List Char) :
    following text (x :: xs) close r = ',' :: ' ' :: (joined text (x :: xs) ++ close :: r) := by
  simp [joined, following]

/-- Texts with commas in between are told apart where each of them is, and where none begins like the
    end. -/
theorem sequence_inj (hclose : close ∈ [']', '\x7d'])
    (hfirst : ∀ x ∈ xs ++ ys, ∃ c ∈ (text x).head?, c ≠ close)
    (hapart : ∀ x ∈ xs, ∀ y ∈ ys, Apart text R x y)
    (h : joined text xs ++ close :: r = joined text ys ++ close :: s) :
    List.Forall₂ R xs ys ∧ r = s := by
  have hnone (z : α) (hz : z ∈ xs ++ ys) (zs : List α) (r s : List Char) :
      joined text (z :: zs) ++ close :: r ≠ close :: s := by
    obtain ⟨c, hc, hne⟩ := hfirst z hz
    obtain ⟨tail, htail⟩ := List.head?_eq_some_iff.mp hc
    rw [joined, htail]
    exact fun h => hne (List.cons.inj h).1
  cases xs with
  | nil =>
    cases ys with
    | nil => exact ⟨.nil, by simpa [joined] using h⟩
    | cons y ys => exact absurd h.symm (hnone y (by simp) ys s r)
  | cons x xs =>
    cases ys with
    | nil => exact absurd h (hnone x (by simp) xs r s)
    | cons y ys =>
      refine following_inj hclose hapart ?_
      rw [following_cons, following_cons, h]

end Sequences

/-! ## Leaves -/

/-- The character that opens a value with parts. Numbers and words have none. -/
def opener? : Value → Option Char
  | .text _ => some '"'
  | .list _ => some '['
  | .object _ => some '\x7b'
  | _ => none

/-- A finite double is written as a number. -/
theorem floatText_of_isFinite {x : Float} (hx : x.isFinite = true) :
    floatText x = NumberText.floatText x := by
  have hkinds : ∀ u : UnpackedFloat, u.isFinite = true → u.isNaN = false ∧ u.isInf = false := by
    intro u hu
    cases u with
    | infinity | notANumber => cases hu
    | zero | finite => exact ⟨rfl, rfl⟩
  have hnumber : x.isNaN = false := (hkinds _ hx).1
  have hfinite : x.isInf = false := (hkinds _ hx).2
  unfold floatText
  rw [hnumber, hfinite]
  rfl

/-- What opens a value with parts, ends a value or begins a word is no figure. -/
theorem not_isFigure : ∀ d ∈ closers ++ (openers ++ ['n', 't', 'f']), ¬ Formula.IsFigure d := by
  simp [closers, openers, Formula.IsFigure]

/-- The words that stand for null and the Booleans. -/
def words : List (List Char) :=
  [['n', 'u', 'l', 'l'], ['t', 'r', 'u', 'e'], ['f', 'a', 'l', 's', 'e']]

/-- The leaves that are no numbers. -/
theorem eq_null_or_bool (hleaf : opener? v = none) (hword : v.isNumber = false) :
    v = .null ∨ v = .bool true ∨ v = .bool false := by
  cases v with
  | null => exact .inl rfl
  | bool b => cases b <;> simp
  | int n => cases hword
  | float x => cases hword
  | text s => cases hleaf
  | list items => cases hleaf
  | object fields => cases hleaf

/-- They are written as words. -/
theorem mem_words (hleaf : opener? v = none) (hword : v.isNumber = false) :
    (canonical v).toList ∈ words := by
  rcases eq_null_or_bool hleaf hword with rfl | rfl | rfl <;> simp [canonical, words]

/-- Numbers are written with figures. -/
theorem figures_canonical (hv : IsJson v) (hnumber : v.isNumber = true) :
    (canonical v).toList ≠ [] ∧ ∀ c ∈ (canonical v).toList, Formula.IsFigure c := by
  cases hv with
  | int n =>
    refine ⟨?_, fun c hc => (NumberText.figures_intText n c hc).1⟩
    rw [canonical]
    unfold NumberText.intText NumberText.natText
    split <;> simp [Nat.toDigits_ne_nil]
  | @float x hx =>
    rw [canonical, floatText_of_isFinite hx]
    obtain ⟨hfigures, c, hc, -⟩ := NumberText.figures_floatText hx
    exact ⟨List.ne_nil_of_mem hc, hfigures⟩
  | null => cases hnumber
  | bool b => cases hnumber
  | text s => cases hnumber
  | list h => cases hnumber
  | object hnames h => cases hnumber

/-- The first character of a word is no figure. -/
theorem words_heads : ∀ t ∈ words, ∃ c ∈ t.head?, c ∈ ['n', 't', 'f'] := by
  simp [words]

/-- No number is written like a word. -/
theorem ne_of_mem_words (hv : IsJson v) (hnumber : v.isNumber = true)
    (hword : (canonical w).toList ∈ words) : canonical v ≠ canonical w := by
  intro h
  obtain ⟨c, hc, hletter⟩ := words_heads _ hword
  have hmem : c ∈ (canonical v).toList := by
    rw [h]
    exact List.mem_of_mem_head? hc
  exact not_isFigure c (by simp [hletter]) ((figures_canonical hv hnumber).2 c hmem)

/-- A leaf has none of the characters that may follow it, and does not begin like a text, a list or an
    object. -/
theorem leaf_characters (hv : IsJson v) (hleaf : opener? v = none) :
    (∀ c ∈ (canonical v).toList, c ∉ closers) ∧
      ∃ c ∈ (canonical v).toList.head?, c ∉ openers := by
  cases hnumber : v.isNumber with
  | false =>
    have hwords : ∀ t ∈ words, (∀ c ∈ t, c ∉ closers) ∧ ∃ c ∈ t.head?, c ∉ openers := by
      simp [words, closers, openers]
    exact hwords _ (mem_words hleaf hnumber)
  | true =>
    obtain ⟨hne, hfigures⟩ := figures_canonical hv hnumber
    have hother (d : Char) (hd : d ∈ closers ++ openers) : d ∉ (canonical v).toList := by
      intro hmem
      refine not_isFigure d ?_ (hfigures d hmem)
      rw [← List.append_assoc]
      exact List.mem_append_left _ hd
    refine ⟨fun c hc hcloser => hother c (List.mem_append_left _ hcloser) hc, ?_⟩
    refine ⟨_, List.head?_eq_some_head hne, fun hopener => ?_⟩
    exact hother _ (List.mem_append_right _ hopener) (List.head_mem hne)

/-- Numbers that are written alike are the same. -/
theorem number_inj (hv : IsJson v) (hw : IsJson w) (hnumber : v.isNumber = true)
    (hnumber' : w.isNumber = true) (h : canonical v = canonical w) : SameTree v w := by
  cases v with
  | int m =>
    cases w with
    | int n =>
      obtain rfl := NumberText.intText_injective (by simpa [canonical] using h)
      exact .int m
    | float y =>
      rw [canonical, canonical, floatText_of_isFinite hw.isFinite] at h
      exact absurd h.symm (NumberText.floatText_ne_intText hw.isFinite m)
    | _ => cases hnumber'
  | float x =>
    have hx := hv.isFinite
    cases w with
    | int n =>
      rw [canonical, canonical, floatText_of_isFinite hx] at h
      exact absurd h (NumberText.floatText_ne_intText hx n)
    | float y =>
      have hy := hw.isFinite
      rw [canonical, canonical, floatText_of_isFinite hx, floatText_of_isFinite hy] at h
      obtain rfl := NumberText.floatText_injective hx hy h
      exact .float x
    | _ => cases hnumber'
  | _ => cases hnumber

/-- Leaves that are written alike are the same. -/
theorem leaf_inj (hv : IsJson v) (hw : IsJson w) (hleaf : opener? v = none)
    (hleaf' : opener? w = none) (h : canonical v = canonical w) : SameTree v w := by
  cases hnumber : v.isNumber with
  | true =>
    cases hnumber' : w.isNumber with
    | true => exact number_inj hv hw hnumber hnumber' h
    | false => exact absurd h (ne_of_mem_words hv hnumber (mem_words hleaf' hnumber'))
  | false =>
    cases hnumber' : w.isNumber with
    | true => exact absurd h.symm (ne_of_mem_words hw hnumber' (mem_words hleaf hnumber))
    | false =>
      -- The words are different from one another.
      have hsame : v = w := by
        rcases eq_null_or_bool hleaf hnumber with rfl | rfl | rfl <;>
          rcases eq_null_or_bool hleaf' hnumber' with rfl | rfl | rfl <;> simp [canonical] at h ⊢
      exact hsame ▸ .refl v

/-! ## Trees -/

/-- How a value begins tells whether it is a leaf, and which kind of value it is if it is none. -/
theorem exists_head (hv : IsJson v) : ∃ c ∈ (canonical v).toList.head?,
    c ∉ closers ∧ (opener? v = some c ∧ c ∈ openers ∨ opener? v = none ∧ c ∉ openers) := by
  have hopeners : ∀ c ∈ openers, c ∉ closers := by simp [openers, closers]
  cases hleaf : opener? v with
  | none =>
    obtain ⟨hinner, c, hc, hother⟩ := leaf_characters hv hleaf
    exact ⟨c, hc, hinner c (List.mem_of_mem_head? hc), .inr ⟨rfl, hother⟩⟩
  | some c =>
    have hboth : c ∈ (canonical v).toList.head? ∧ c ∈ openers := by
      cases v with
      | text s =>
        cases hleaf
        exact ⟨by simp [canonical, toList_stringText], by simp [openers]⟩
      | list items =>
        cases hleaf
        exact ⟨by simp [toList_canonical_list], by simp [openers]⟩
      | object fields =>
        cases hleaf
        exact ⟨by simp [toList_canonical_object], by simp [openers]⟩
      | _ => cases hleaf
    exact ⟨c, hboth.1, hopeners c hboth.2, .inl ⟨rfl, hboth.2⟩⟩

/-- Values that are written alike are opened alike. -/
theorem opener?_eq (hv : IsJson v) (hw : IsJson w)
    (h : (canonical v).toList ++ r = (canonical w).toList ++ s) : opener? v = opener? w := by
  obtain ⟨c, hc, -, hkind⟩ := exists_head hv
  obtain ⟨d, hd, -, hkind'⟩ := exists_head hw
  have hcd : c = d := by
    have hheads := congrArg List.head? h
    rw [List.head?_append_of_ne_nil _ (by rintro hnil; simp [hnil] at hc),
      List.head?_append_of_ne_nil _ (by rintro hnil; simp [hnil] at hd)] at hheads
    rw [Option.mem_def.mp hc, Option.mem_def.mp hd] at hheads
    exact Option.some.inj hheads
  subst hcd
  rcases hkind with ⟨hopener, hmem⟩ | ⟨hleaf, hother⟩ <;>
    rcases hkind' with ⟨hopener', hmem'⟩ | ⟨hleaf', hother'⟩
  · rw [hopener, hopener']
  · exact absurd hmem hother'
  · exact absurd hmem' hother
  · rw [hleaf, hleaf']

/-- Fields are told apart where their values are. -/
theorem apart_fieldText {f g : String × Value}
    (h : Apart (fun v => (canonical v).toList) SameTree f.2 g.2) :
    Apart fieldText (fun f g => f.1 = g.1 ∧ SameTree f.2 g.2) f g := by
  intro r s hr hs htext
  simp only [fieldText, List.append_assoc, List.cons_append] at htext
  obtain ⟨hname, htail⟩ := stringText_append_inj htext
  obtain ⟨hsame, hrs⟩ := h hr hs (List.cons.inj (List.cons.inj htail).2).2
  exact ⟨⟨hname, hsame⟩, hrs⟩

/-- The names and the trees of related fields, side by side. -/
theorem forall₂_fields {fields fields' : Fields}
    (h : List.Forall₂ (fun f g => f.1 = g.1 ∧ SameTree f.2 g.2) fields fields') :
    fields.map (·.1) = fields'.map (·.1) ∧
      List.Forall₂ SameTree (fields.map (·.2)) (fields'.map (·.2)) := by
  induction h with
  | nil => exact ⟨rfl, .nil⟩
  | cons hfirst hrest ih =>
    exact ⟨by rw [List.map_cons, List.map_cons, hfirst.1, ih.1], .cons hfirst.2 ih.2⟩

/-- A value is told apart from every other that is not the same tree, whatever follows the two. -/
theorem apart_canonical (hv : IsJson v) (hw : IsJson w) :
    Apart (fun v => (canonical v).toList) SameTree v w := by
  induction v using Value.induction_on_parts generalizing w with
  | null | bool | int | float =>
    intro r s hr hs h
    have hleaf' : opener? w = none := (opener?_eq hv hw h).symm
    obtain ⟨htext, hrs⟩ := append_inj_of_ends (leaf_characters hv rfl).1
      (leaf_characters hw hleaf').1 hr hs h
    exact ⟨leaf_inj hv hw rfl hleaf' (String.toList_inj.mp htext), hrs⟩
  | text a =>
    intro r s hr hs h
    have hopener := opener?_eq hv hw h
    cases w with
    | text b =>
      simp only [canonical] at h
      obtain ⟨rfl, hrs⟩ := stringText_append_inj h
      exact ⟨.text a, hrs⟩
    | _ => cases hopener
  | list items ih =>
    intro r s hr hs h
    have hopener := opener?_eq hv hw h
    cases w with
    | list items' =>
      simp only [toList_canonical_list, List.cons_append, List.append_assoc, List.cons.injEq,
        true_and, List.nil_append] at h
      have hfirst : ∀ x ∈ items ++ items', ∃ c ∈ (canonical x).toList.head?, c ≠ ']' := by
        intro x hx
        have hjson : IsJson x := (List.mem_append.mp hx).elim (hv.of_mem x) (hw.of_mem x)
        obtain ⟨c, hc, hcloser, -⟩ := exists_head hjson
        exact ⟨c, hc, by rintro rfl; simp [closers] at hcloser⟩
      obtain ⟨hsame, hrs⟩ := sequence_inj (by simp) hfirst
        (fun x hx y hy => ih x hx (hv.of_mem x hx) (hw.of_mem y hy)) h
      exact ⟨.list hsame, hrs⟩
    | _ => cases hopener
  | object fields ih =>
    intro r s hr hs h
    have hopener := opener?_eq hv hw h
    cases w with
    | object fields' =>
      simp only [toList_canonical_object, List.cons_append, List.append_assoc, List.cons.injEq,
        true_and, List.nil_append] at h
      have hperm := perm_sortFields fields
      have hperm' := perm_sortFields fields'
      have hfirst : ∀ f ∈ sortFields fields ++ sortFields fields',
          ∃ c ∈ (fieldText f).head?, c ≠ '\x7d' := by
        intro f _
        exact ⟨'"', by simp [fieldText, toList_stringText], by simp⟩
      have hfields : ∀ f ∈ sortFields fields, ∀ g ∈ sortFields fields',
          Apart fieldText (fun f g => f.1 = g.1 ∧ SameTree f.2 g.2) f g := by
        intro f hf g hg
        have hf := hperm.mem_iff.mpr hf
        have hg := hperm'.mem_iff.mpr hg
        exact apart_fieldText (ih f hf (hv.of_mem_fields.2 f hf) (hw.of_mem_fields.2 g hg))
      obtain ⟨hsame, hrs⟩ := sequence_inj (by simp) hfirst hfields h
      obtain ⟨hnames, htrees⟩ := forall₂_fields hsame
      exact ⟨.object hperm hperm' hnames htrees, hrs⟩
    | _ => cases hopener

/-- Fields with different names have one order by their names. -/
theorem sortFields_congr {α : Type} {l l' : List (String × α)} (hnames : (l.map (·.1)).Nodup)
    (h : l.Perm l') : sortFields l = sortFields l' := by
  have hperm : (sortFields l).Perm (sortFields l') :=
    (perm_sortFields l).symm.trans (h.trans (perm_sortFields l'))
  have hsorted (l : List (String × α)) : (sortFields l).Pairwise fun f g => f.1 ≤ g.1 := by
    have hpairs : (sortFields l).Pairwise fun f g => decide (f.1 ≤ g.1) = true :=
      List.pairwise_mergeSort
        (fun f g h hfg hgh =>
          decide_eq_true ((of_decide_eq_true hfg).trans (of_decide_eq_true hgh)))
        (fun f g => by simpa using String.le_total f.1 g.1) l
    exact hpairs.imp of_decide_eq_true
  refine hperm.eq_of_pairwise (fun f g hf hg hfg hgf => ?_) (hsorted l) (hsorted l')
  have hf : f ∈ l := (perm_sortFields l).mem_iff.mpr hf
  have hg : g ∈ l := (h.trans (perm_sortFields l')).mem_iff.mpr hg
  exact List.inj_on_of_nodup_map hnames hf hg (String.le_antisymm hfg hgf)

/-- So the order in which they are written does not count. -/
theorem canonical_perm (hnames : (fields.map (·.1)).Nodup) (h : fields.Perm fields') :
    canonical (.object fields) = canonical (.object fields') := by
  rw [canonical, canonical, canonicalFields_eq_map, canonicalFields_eq_map, sortFields_map,
    sortFields_map, sortFields_congr hnames h]

theorem map_eq_of_forall₂ {α β : Type} {R : α → α → Prop} {f : α → β} {xs ys : List α}
    (h : List.Forall₂ R xs ys) (hf : ∀ x ∈ xs, ∀ y, R x y → f x = f y) : xs.map f = ys.map f := by
  induction h with
  | nil => rfl
  | cons hfirst hrest ih =>
    rw [List.map_cons, List.map_cons, hf _ (List.mem_cons_self ..) _ hfirst,
      ih fun x hx => hf x (List.mem_cons_of_mem _ hx)]

/-- The names and the canonical texts of fields, side by side. -/
theorem canonicalFields_eq_zip (fields : Fields) :
    canonicalFields fields = (fields.map (·.1)).zip ((fields.map (·.2)).map canonical) := by
  rw [canonicalFields_eq_map, List.map_map, List.zip_map']
  rfl

/-- The same tree has one canonical text. -/
theorem canonical_eq_of_sameTree (hv : IsJson v) (h : SameTree v w) : canonical v = canonical w := by
  induction v using Value.induction_on_parts generalizing w with
  | null | bool | int | float | text =>
    cases h
    rfl
  | list items ih =>
    cases h with
    | @list _ items' hsame =>
      have htexts : items.map canonical = items'.map canonical :=
        map_eq_of_forall₂ hsame fun x hx y => ih x hx (hv.of_mem x hx)
      rw [canonical, canonical, canonicalItems_eq_map, canonicalItems_eq_map, htexts]
  | object fields ih =>
    cases h with
    | @object _ fields' ordered ordered' hfields hfields' hnames hsame =>
      obtain ⟨hnodup, hjson⟩ := hv.of_mem_fields
      have hnodup' : (fields'.map (·.1)).Nodup := by
        rw [(hfields'.map _).nodup_iff, ← hnames, ← (hfields.map _).nodup_iff]
        exact hnodup
      have htexts : (ordered.map (·.2)).map canonical = (ordered'.map (·.2)).map canonical := by
        refine map_eq_of_forall₂ hsame fun x hx y hxy => ?_
        obtain ⟨field, hfield, rfl⟩ := List.mem_map.mp hx
        have hmem := hfields.mem_iff.mpr hfield
        exact ih field hmem (hjson field hmem) hxy
      calc canonical (.object fields) = canonical (.object ordered) :=
            canonical_perm hnodup hfields
        _ = canonical (.object ordered') := by
            rw [canonical, canonical, canonicalFields_eq_zip, canonicalFields_eq_zip, hnames, htexts]
        _ = canonical (.object fields') := (canonical_perm hnodup' hfields').symm

/-- Canonical texts are equal just if the trees are the same. -/
theorem canonical_eq_iff (hv : IsJson v) (hw : IsJson w) :
    canonical v = canonical w ↔ SameTree v w := by
  refine ⟨fun h => ?_, canonical_eq_of_sameTree hv⟩
  have hends : Ends [] := by simp [Ends]
  have htext : (canonical v).toList ++ [] = (canonical w).toList ++ [] := by rw [h]
  exact (apart_canonical hv hw hends hends htext).1

end Json

end Signoff
