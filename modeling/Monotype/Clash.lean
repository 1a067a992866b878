import Monotype.Ty

/-!
Clashes: pairs of types that no assignment makes equal, with the way in which they differ.
-/

namespace Monotype

inductive ClashKind where
  /-- Nothing more is said than that the types differ. -/
  | plain
  /-- The outermost shapes differ. -/
  | mismatch
  | arity
  | label
  /-- The left one is a variable inside the right one. -/
  | circular
deriving Repr, DecidableEq, Inhabited

structure Clash where
  kind : ClashKind
  left : Ty
  right : Ty
deriving Repr, DecidableEq, Inhabited

end Monotype
