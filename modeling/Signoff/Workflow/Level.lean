import Signoff.Fault

/-! # Levels

The three levels of an approval flow, in their strict order.
-/

namespace Signoff

/-- A level of approval. -/
inductive Level where
  | first
  | second
  | third
deriving DecidableEq, Repr, Inhabited

namespace Level

/-- Every level, in order. -/
def all : List Level := [.first, .second, .third]

/-- The position in the order. -/
def index : Level → Nat
  | .first => 0
  | .second => 1
  | .third => 2

/-- The name of a level. -/
def name : Level → String
  | .first => "LEVEL_1"
  | .second => "LEVEL_2"
  | .third => "LEVEL_3"

/-- Every level with its name. -/
def table : List (String × Level) := all.map fun l => (l.name, l)

/-- The level of a name. -/
def ofName? (name : String) : Option Level := table.lookup name

/-- The level of a name, or the fault of an unknown one. -/
def ofName (name : String) : Result Level :=
  match ofName? name with
  | some l => .ok l
  | none => .error (.badValue "no level has this name")

/-- The level in front, which has to be approved before. -/
def previous? : Level → Option Level
  | .first => none
  | .second => some .first
  | .third => some .second

/-- The levels in front, in order. -/
def before (l : Level) : List Level := all.filter fun k => k.index < l.index

/-- The levels behind, in order. -/
def after (l : Level) : List Level := all.filter fun k => l.index < k.index

end Level

/-- How messages name a level: every `LEVEL_` in its name is written `Level `. -/
def levelLabel (name : String) : String := name.replace "LEVEL_" "Level "

end Signoff
