import Monotype.Tree.Printer

/-!
Printing with a level of indentation at hand. The level belongs to the state of the printer: it is
raised in front of a value or of cases and lowered behind them, and stays raised when printing fails
in between.
-/

namespace Monotype

abbrev Print := EStateM Misuse Int

namespace Print

variable {α : Type}

/-- Prints something that has no lines of its own. -/
def lift (x : Except Misuse α) : Print α := fun level =>
  match x with
  | .ok a => .ok a level
  | .error misuse => .error misuse level

def deeper (x : Print α) : Print α := do
  modify (· + 1)
  let a ← x
  modify (· - 1)
  return a

/-- The start of a new line at the level at hand. A level below 0 counts as 0. -/
def startLine : Print String := return newLine (← get).toNat

end Print

mutual

def Expr.print : Expr → Print String
  | .unit _ => return "()"
  | .int _ n => return toString n
  | .name _ x => return x
  | .tuple _ elements => return "(" ++ ", ".intercalate (← Expr.printAll elements) ++ ")"
  | .binop _ operator left right => do
    let l ← left.print
    let r ← right.print
    return "(" ++ l ++ " " ++ operator ++ " " ++ r ++ ")"
  | .apply _ func arg => do
    let f ← func.print
    let a ← arg.print
    return f ++ " (" ++ a ++ ")"
  | .constructor _ label arg => return label ++ " (" ++ (← arg.print) ++ ")"
  | .function _ param body => do
    let p ← param.print
    let b ← body.print
    return "\\" ++ p ++ " -> " ++ b
  | .cond _ pred cons alt => do
    let p ← pred.print
    let c ← cons.print
    let a ← alt.print
    return "if " ++ p ++ " then " ++ c ++ " else " ++ a
  | .letIn _ target value body => do
    let v ← Print.deeper value.print
    let b ← body.print
    let line ← Print.startLine
    let t ← target.print
    return "let " ++ t ++ " = " ++ v ++ " in" ++ line ++ b
  | .matchOn _ subject cases => do
    let cs ← Print.deeper do
      let line ← Print.startLine
      Expr.printCases line cases
    let s ← subject.print
    return "match " ++ s ++ " with" ++ cs
  | .pattern p => p.print

/-- Prints a pattern in its place, or an expression that stands there. -/
def Pattern.print : Pattern → Print String
  | .expr e => e.print
  | p => Print.lift p.text

def Expr.printAll : List Expr → Print (List String)
  | [] => return []
  | e :: es => do
    let first ← e.print
    return first :: (← Expr.printAll es)

def Expr.printCases (line : String) : List (Pattern × Expr) → Print String
  | [] => return ""
  | (binder, body) :: cases => do
    let p ← binder.print
    let b ← body.print
    return line ++ "| " ++ p ++ " -> " ++ b ++ (← Expr.printCases line cases)

end

end Monotype
