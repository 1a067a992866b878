import Monotype.Ty

/-!
Substitutions: what has been found out about variables so far, in the order in which it was found.
A replacement may mention variables that are replaced themselves, and `Subst.resolve` follows such
chains to their end.
-/

namespace Monotype

/-- The replacements of variables, oldest first. -/
abbrev Subst := List (Int × Ty)

namespace Subst

def keys (s : Subst) : List Int := s.map (·.1)

def get? (s : Subst) (v : Int) : Option Ty := s.lookup v

/-- Writes an entry: over the old one if there is one, else after all others. -/
def set (v : Int) (t : Ty) : Subst → Subst
  | [] => [(v, t)]
  | (w, u) :: s => if w = v then (v, t) :: s else (w, u) :: set v t s

/-- What a variable stands for when at most `depth` replacements may follow one another. -/
def follow (s : Subst) : (depth : Nat) → Int → Ty
  | 0, v => .var v
  | depth + 1, v =>
    match s.get? v with
    | none => .var v
    | some t => t.inst (s.follow depth)

/-- The assignment that a substitution amounts to. A chain of replacements without a cycle is no
longer than the substitution, so that many steps reach its end. -/
def closure (s : Subst) : Int → Ty := s.follow s.length

/-- The type with every replaced variable followed to its end. -/
def resolve (s : Subst) (t : Ty) : Ty := t.inst s.closure

def debug (s : Subst) : String :=
  "\x7b" ++ ", ".intercalate (s.map fun (v, t) => toString v ++ ": " ++ t.debug) ++ "\x7d"

end Subst

end Monotype
