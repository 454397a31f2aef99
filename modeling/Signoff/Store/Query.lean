/-! # Queries

The part of a list that is asked for: what matches a pattern with wild cards, and a page of it.
-/

/-! ## Patterns with wild cards

In a pattern `%` stands for any text and `_` for any character; letters of the alphabet match in
either case.
-/

namespace Signoff.Text

/-- Does the pattern match the whole text? -/
def isLike (pattern text : List Char) : Bool :=
  match pattern, text with
  | [], cs => cs.isEmpty
  | '%' :: ps, [] => isLike ps []
  | '%' :: ps, c :: cs => isLike ps (c :: cs) || isLike ('%' :: ps) cs
  | _ :: _, [] => false
  | p :: ps, c :: cs => (p == '_' || p.toLower == c.toLower) && isLike ps cs
termination_by pattern.length + text.length

/-- Does some part of the text match the pattern? -/
def hasLike (pattern text : String) : Bool :=
  isLike ('%' :: pattern.toList ++ ['%']) text.toList

end Signoff.Text

/-! ## Pages

A part of a list from one position up to another. Positions below zero count from the end, and what
lies outside of the list is left out.
-/

namespace Signoff

/-- The place in a list of `n` items that a position means. -/
def placeIn (n : Nat) (position : Int) : Nat :=
  if position < 0 then (position + n).toNat else min position.toNat n

/-- The items of a list from one position up to another. -/
def sliceOf {α : Type} (items : List α) (start stop : Int) : List α :=
  let first := placeIn items.length start
  (items.take (placeIn items.length stop)).drop first

end Signoff
