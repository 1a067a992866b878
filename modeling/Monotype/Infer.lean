import Monotype.Infer.Pattern
import Monotype.Scope

/-!
Types of expressions. Equations are solved as soon as they come up, so every type that is handed on
is resolved by what is known at that moment. Variables are monomorphic: a name has one type wherever
it is used.
-/

namespace Monotype

/-- The equations of a match: all patterns have the type of the first one and so has the subject,
and all bodies have the type of the first one. -/
def caseEquations (first : Ty × Ty) (rest : List (Ty × Ty)) (subject : Ty) : List Equation :=
  rest.flatMap (fun (pattern, body) => [⟨first.1, pattern⟩, ⟨first.2, body⟩]) ++ [⟨first.1, subject⟩]

mutual

/-- The type of an expression whose free names are typed by the scope. -/
def Expr.infer (scope : Scope Ty) : Expr → Infer Ty
  | .unit _ => return .unit
  | .int .. => return .int
  | .name span x =>
    match scope.get? x with
    | some t => Infer.resolve t
    | none => throw (.undefinedName x span)
  | .tuple _ elements => do
    Infer.resolve (.tuple (← Expr.inferAll scope elements))
  | .binop span _ left right => do
    let l ← left.infer scope
    let r ← right.infer scope
    Infer.unify span [⟨l, .int⟩, ⟨r, .int⟩]
    return .int
  | .apply span func arg => do
    let a ← arg.infer scope
    let f ← func.infer scope
    let result ← Infer.fresh
    Infer.unify span [⟨.fn a result, f⟩]
    Infer.resolve result
  | .constructor _ label arg => do
    Infer.resolve (.sum label (← arg.infer scope))
  | .function _ param body => do
    let (p, bound) ← param.infer
    let b ← body.infer (scope.down bound)
    Infer.resolve (.fn p b)
  | .cond span pred cons alt => do
    let p ← pred.infer scope
    let c ← cons.infer scope
    let a ← alt.infer scope
    Infer.unify span [⟨p, .int⟩, ⟨c, a⟩]
    Infer.resolve c
  | .letIn span target value body => do
    let (t, bound) ← target.infer
    let v ← value.infer (scope.down bound)
    Infer.unify span [⟨t, v⟩]
    let b ← body.infer (scope.down bound)
    Infer.resolve b
  | .matchOn span _ [] => do
    Infer.tell (.emptyMatch span)
    throw .emptyMatch
  | .matchOn span subject ((binder, body) :: rest) => do
    let s ← subject.infer scope
    let (p, bound) ← binder.infer
    let b ← body.infer (scope.down bound)
    let others ← Expr.inferCases scope rest
    Infer.unify span (caseEquations (p, b) others s)
    Infer.resolve b
  | .pattern p => return (← p.infer).1

def Expr.inferAll (scope : Scope Ty) : List Expr → Infer (List Ty)
  | [] => return []
  | e :: es => do
    let t ← e.infer scope
    return t :: (← Expr.inferAll scope es)

def Expr.inferCases (scope : Scope Ty) : List (Pattern × Expr) → Infer (List (Ty × Ty))
  | [] => return []
  | (binder, body) :: cases => do
    let (p, bound) ← binder.infer
    let b ← body.infer (scope.down bound)
    return (p, b) :: (← Expr.inferCases scope cases)

end

/-- The type of an expression under an environment, with the solution in the log. -/
def Expr.inferType (env : Bindings) (e : Expr) : Infer Ty := do
  let t ← e.infer (.top env)
  Infer.tell (.solution (← get).subst)
  return t

end Monotype
