/-!
Scopes: the names visible at some point, with a value for each. Inner names hide outer ones, and of
several pairs for one name on the same level the first counts.
-/

namespace Monotype

/-- A chain of levels, innermost first. -/
inductive Scope (α : Type) where
  | top (names : List (String × α))
  | inner (names : List (String × α)) (outer : Scope α)
deriving Repr, Inhabited

namespace Scope

variable {α : Type}

def down (s : Scope α) (names : List (String × α)) : Scope α := .inner names s

/-- Leaves the innermost level. The top level cannot be left. -/
def up : Scope α → Scope α
  | .top names => .top names
  | .inner _ outer => outer

def get? (x : String) : Scope α → Option α
  | .top names => names.lookup x
  | .inner names outer => match names.lookup x with
    | some a => some a
    | none => outer.get? x

end Scope

end Monotype
