import Monotype.Misuse
import Monotype.Tree

/-!
Trees as program text. A let puts its body on a line of its own, a match does so with each case, and
what lies inside a value or a case is indented one level deeper.
-/

namespace Monotype

mutual

/-- The text of a pattern. A constructor pattern is put in brackets inside another one. -/
def Pattern.text : Pattern → Except Misuse String
  | .unit _ => .ok "()"
  | .int _ n => .ok (toString n)
  | .wildcard _ => .ok "_"
  | .name _ x => .ok x
  | .constructor _ label arg => do
    let inner ← arg.text
    return match arg with
      | .constructor .. => label ++ " (" ++ inner ++ ")"
      | _ => label ++ " " ++ inner
  | .tuple _ elements => return "(" ++ ", ".intercalate (← Pattern.textAll elements) ++ ")"
  | .expr e => .error (.shownAsPattern e.kindName)

def Pattern.textAll : List Pattern → Except Misuse (List String)
  | [] => .ok []
  | p :: ps => do
    let first ← p.text
    return first :: (← Pattern.textAll ps)

end

def newLine (level : Nat) : String := "\n" ++ String.join (List.replicate level "  ")

mutual

def Expr.textAt (level : Nat) : Expr → Except Misuse String
  | .unit _ => .ok "()"
  | .int _ n => .ok (toString n)
  | .name _ x => .ok x
  | .tuple _ elements => return "(" ++ ", ".intercalate (← Expr.textAll level elements) ++ ")"
  | .binop _ operator left right => do
    let l ← left.textAt level
    let r ← right.textAt level
    return "(" ++ l ++ " " ++ operator ++ " " ++ r ++ ")"
  | .apply _ func arg => do
    let f ← func.textAt level
    let a ← arg.textAt level
    return f ++ " (" ++ a ++ ")"
  | .constructor _ label arg => return label ++ " (" ++ (← arg.textAt level) ++ ")"
  | .function _ param body => do
    let p ← param.textAt level
    let b ← body.textAt level
    return "\\" ++ p ++ " -> " ++ b
  | .cond _ pred cons alt => do
    let p ← pred.textAt level
    let c ← cons.textAt level
    let a ← alt.textAt level
    return "if " ++ p ++ " then " ++ c ++ " else " ++ a
  | .letIn _ target value body => do
    let v ← value.textAt (level + 1)
    let b ← body.textAt level
    let t ← target.textAt level
    return "let " ++ t ++ " = " ++ v ++ " in" ++ newLine level ++ b
  | .matchOn _ subject cases => do
    let cs ← Expr.textCases (level + 1) cases
    let s ← subject.textAt level
    return "match " ++ s ++ " with" ++ cs
  | .pattern p => p.textAt level

/-- The text of a pattern in its place. An expression there is printed as it is. -/
def Pattern.textAt (level : Nat) : Pattern → Except Misuse String
  | .expr e => e.textAt level
  | p => p.text

def Expr.textAll (level : Nat) : List Expr → Except Misuse (List String)
  | [] => .ok []
  | e :: es => do
    let first ← e.textAt level
    return first :: (← Expr.textAll level es)

def Expr.textCases (level : Nat) : List (Pattern × Expr) → Except Misuse String
  | [] => .ok ""
  | (binder, body) :: cases => do
    let p ← binder.textAt level
    let b ← body.textAt level
    return newLine level ++ "| " ++ p ++ " -> " ++ b ++ (← Expr.textCases level cases)

end

def Expr.text (e : Expr) : Except Misuse String := e.textAt 0

end Monotype
