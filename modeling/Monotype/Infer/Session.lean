import Monotype.Unify

/-!
The state of inference and the ways in which it stops. A session survives a failure: ids that were
given out stay used, and replacements and log lines that were made stay.
-/

namespace Monotype

inductive Problem where
  | clash (clash : Clash) (span : Option Span)
  | undefinedName (name : String) (span : Span)
  | duplicateBinding (name : String) (span : Span)
  | emptyMatch
  /-- An expression stands where a pattern is expected. -/
  | misplaced
deriving Repr, DecidableEq, Inhabited

structure Session where
  /-- The id of the next fresh variable. -/
  next : Int := 1
  subst : Subst := []
  log : List Event := []
deriving Repr, DecidableEq, Inhabited

/-- Inference keeps its session when it fails. -/
abbrev Infer := EStateM Problem Session

namespace Infer

def fresh : Infer Ty := modifyGet fun s => (.var s.next, { s with next := s.next + 1 })

def tell (e : Event) : Infer Unit := modify fun s => { s with log := s.log ++ [e] }

def resolve (t : Ty) : Infer Ty := do
  return (← get).subst.resolve t

/-- Makes equations hold. A clash is blamed on the span. -/
def unify (span : Option Span) (es : List Equation) : Infer Unit := fun s =>
  let u := s.subst.unify es
  let s := { s with subst := u.subst, log := s.log ++ u.log }
  match u.clash with
  | none => .ok () s
  | some c => .error (.clash c span) s

end Infer

end Monotype
