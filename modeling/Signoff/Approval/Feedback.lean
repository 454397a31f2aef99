import Signoff.Text.Case
import Signoff.Text.Kinds

/-! # Feedback

A comment that says "changes requested", in whatever case, asks for changes. The feedback is the
comment without these words and the colon behind them at its beginning.
-/

namespace Signoff.Feedback

/-- The words that ask for changes. -/
def words : List Char := "changes requested".toList

/-- Is it the small letter `w` in some case? The long s counts as an s. -/
def isLetter (w c : Char) : Bool :=
  Text.lower (String.singleton c) == String.singleton w || (w == 's' && c.toNat == 0x17F)

/-- What is behind the letters at the beginning of a text, whatever their case. -/
def behind? : List Char → List Char → Option (List Char)
  | [], cs => some cs
  | w :: ws, c :: cs => if isLetter w c then behind? ws cs else none
  | _ :: _, [] => none

/-- Do the words occur in the text? -/
def occurs : List Char → Bool
  | [] => false
  | c :: cs => (behind? words (c :: cs)).isSome || occurs cs

/-- Does the comment ask for changes? -/
def isAskedFor (comment : Option String) : Bool := comment.any fun s => occurs s.toList

/-- The feedback of a comment. -/
def of (comment : String) : String :=
  match behind? words (comment.toList.dropWhile Text.isBlank) with
  | some (':' :: rest) => Text.trim (String.ofList rest)
  | _ => Text.trim comment

end Signoff.Feedback
