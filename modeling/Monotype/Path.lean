/-!
Paths of files, made of the names between the slashes. Empty names and single dots say nothing and
are dropped; double dots stay.
-/

namespace Monotype

inductive Anchor where
  | here
  | root
  /-- The root written with two slashes, which systems may tell apart from the other one. -/
  | doubleRoot
deriving Repr, DecidableEq, Inhabited

namespace Anchor

/-- More than two slashes are as good as one. -/
def ofSlashes : Nat → Anchor
  | 0 => .here
  | 2 => .doubleRoot
  | _ => .root

def text : Anchor → String
  | .here => ""
  | .root => "/"
  | .doubleRoot => "//"

end Anchor

structure Path where
  anchor : Anchor := .here
  parts : List String
deriving Repr, DecidableEq, Inhabited

namespace Path

def ofString (s : String) : Path where
  anchor := .ofSlashes (s.toList.takeWhile (· = '/')).length
  parts := (s.splitOn "/").filter fun part => part ≠ "" ∧ part ≠ "."

/-- The text of a path. The current folder is a single dot. -/
def text (p : Path) : String :=
  let written := p.anchor.text ++ "/".intercalate p.parts
  if written.isEmpty then "." else written

end Path

def Path.textOf : Option Path → String
  | none => "None"
  | some p => p.text

end Monotype
