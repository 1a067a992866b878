import Monotype.Infer

/-!
Inferers, which are used for one tree after the other. An inferer keeps what it knows between trees,
also when a tree has no type. The scope at hand belongs to its state: a level is entered for the names
of a pattern and left again, whatever happens in between.
-/

namespace Monotype

structure Inferer where
  scope : Scope Ty
  session : Session := {}
deriving Repr, Inhabited

/-- Visits of an inferer to a tree. Its state survives a failure. -/
abbrev Visit := EStateM Problem Inferer

namespace Visit

variable {α : Type}

def lift (x : Infer α) : Visit α := fun w =>
  match x w.session with
  | .ok a s => .ok a { w with session := s }
  | .error problem s => .error problem { w with session := s }

/-- Visits something one level further in. The level is left also when the visit fails. -/
def inside (bound : Bindings) (x : Visit α) : Visit α := fun w =>
  match x { w with scope := w.scope.down bound } with
  | .ok a w => .ok a { w with scope := w.scope.up }
  | .error problem w => .error problem { w with scope := w.scope.up }

def typeOf (span : Span) (x : String) : Visit Ty := fun w =>
  match w.scope.get? x with
  | some t => .ok t w
  | none => .error (.undefinedName x span) w

end Visit

mutual

def Expr.visit : Expr → Visit Ty
  | .unit _ => return .unit
  | .int .. => return .int
  | .name span x => do
    let t ← Visit.typeOf span x
    Visit.lift (Infer.resolve t)
  | .tuple _ elements => do
    let ts ← Expr.visitAll elements
    Visit.lift (Infer.resolve (.tuple ts))
  | .binop span _ left right => do
    let l ← left.visit
    let r ← right.visit
    Visit.lift (Infer.unify span [⟨l, .int⟩, ⟨r, .int⟩])
    return .int
  | .apply span func arg => do
    let a ← arg.visit
    let f ← func.visit
    let result ← Visit.lift Infer.fresh
    Visit.lift (Infer.unify span [⟨.fn a result, f⟩])
    Visit.lift (Infer.resolve result)
  | .constructor _ label arg => do
    let t ← arg.visit
    Visit.lift (Infer.resolve (.sum label t))
  | .function _ param body => do
    let (p, bound) ← Visit.lift param.infer
    let b ← Visit.inside bound body.visit
    Visit.lift (Infer.resolve (.fn p b))
  | .cond span pred cons alt => do
    let p ← pred.visit
    let c ← cons.visit
    let a ← alt.visit
    Visit.lift (Infer.unify span [⟨p, .int⟩, ⟨c, a⟩])
    Visit.lift (Infer.resolve c)
  | .letIn span target value body => do
    let (t, bound) ← Visit.lift target.infer
    let v ← Visit.inside bound value.visit
    Visit.lift (Infer.unify span [⟨t, v⟩])
    let b ← Visit.inside bound body.visit
    Visit.lift (Infer.resolve b)
  | .matchOn span _ [] => Visit.lift do
    Infer.tell (.emptyMatch span)
    throw .emptyMatch
  | .matchOn span subject ((binder, body) :: rest) => do
    let s ← subject.visit
    let (p, bound) ← Visit.lift binder.infer
    let b ← Visit.inside bound body.visit
    let others ← Expr.visitCases rest
    Visit.lift (Infer.unify span (caseEquations (p, b) others s))
    Visit.lift (Infer.resolve b)
  | .pattern p => return (← Visit.lift p.infer).1

def Expr.visitAll : List Expr → Visit (List Ty)
  | [] => return []
  | e :: es => do
    let t ← e.visit
    return t :: (← Expr.visitAll es)

def Expr.visitCases : List (Pattern × Expr) → Visit (List (Ty × Ty))
  | [] => return []
  | (binder, body) :: cases => do
    let (p, bound) ← Visit.lift binder.infer
    let b ← Visit.inside bound body.visit
    return (p, b) :: (← Expr.visitCases cases)

end

end Monotype
