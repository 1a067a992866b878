import Monotype.Span

/-!
Syntax trees. Expressions and patterns are two sorts; a tree built by hand may still put a node of
one sort where the other is expected, and `Expr.pattern` and `Pattern.expr` stand for that.
-/

namespace Monotype

mutual

/-- An expression. Every node keeps the span it came from. -/
inductive Expr where
  | unit (span : Span)
  | int (span : Span) (value : Int)
  | name (span : Span) (value : String)
  | tuple (span : Span) (elements : List Expr)
  | binop (span : Span) (operator : String) (left right : Expr)
  | apply (span : Span) (func arg : Expr)
  | constructor (span : Span) (label : String) (arg : Expr)
  | function (span : Span) (param : Pattern) (body : Expr)
  | cond (span : Span) (pred cons alt : Expr)
  /-- The names of the target are bound in the value as well as in the body. -/
  | letIn (span : Span) (target : Pattern) (value body : Expr)
  | matchOn (span : Span) (subject : Expr) (cases : List (Pattern × Expr))
  /-- A pattern where an expression is expected. -/
  | pattern (pattern : Pattern)

inductive Pattern where
  | unit (span : Span)
  | int (span : Span) (value : Int)
  | wildcard (span : Span)
  | name (span : Span) (value : String)
  | constructor (span : Span) (label : String) (arg : Pattern)
  | tuple (span : Span) (elements : List Pattern)
  /-- An expression where a pattern is expected. -/
  | expr (expr : Expr)

end

instance : Inhabited Expr := ⟨.unit default⟩

instance : Inhabited Pattern := ⟨.unit default⟩

mutual

def Expr.kindName : Expr → String
  | .unit _ => "Unit"
  | .int .. => "Scalar"
  | .name .. => "Name"
  | .tuple .. => "Tuple"
  | .binop .. => "BinOp"
  | .apply .. => "Apply"
  | .constructor .. => "Constructor"
  | .function .. => "Function"
  | .cond .. => "Cond"
  | .letIn .. => "Let"
  | .matchOn .. => "Match"
  | .pattern p => p.kindName

def Pattern.kindName : Pattern → String
  | .unit _ => "UnitPattern"
  | .int .. => "ScalarPattern"
  | .wildcard _ => "WildcardPattern"
  | .name .. => "FreeName"
  | .constructor .. => "ConstructorPattern"
  | .tuple .. => "TuplePattern"
  | .expr e => e.kindName

end

end Monotype
