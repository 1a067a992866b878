import Monotype.Misuse
import Monotype.Ty.Names

/-!
Drafts of types, in which some places may be blank. Types that callers write down come in as drafts;
a draft without blanks is a type.
-/

namespace Monotype

inductive Draft where
  | blank
  | name (value : String)
  | var (id : Int)
  | fn (param result : Draft)
  | tuple (elements : List Draft)
  | sum (label : String) (payload : Draft)
deriving Repr, BEq, Inhabited

namespace Draft

mutual

def complete? : Draft → Option Ty
  | .blank => none
  | .name n => some (.name n)
  | .var v => some (.var v)
  | .fn p r => do return .fn (← p.complete?) (← r.complete?)
  | .tuple es => return .tuple (← completeAll? es)
  | .sum l p => return .sum l (← p.complete?)

def completeAll? : List Draft → Option (List Ty)
  | [] => some []
  | d :: ds => do return (← d.complete?) :: (← completeAll? ds)

end

mutual

/-- The variables left of the first blank, and whether there is a blank. -/
def leading : Draft → List Int × Bool
  | .blank => ([], true)
  | .name _ => ([], false)
  | .var v => ([v], false)
  | .fn p r =>
    let (vs, stop) := p.leading
    if stop then (vs, true) else
      let (ws, stop) := r.leading
      (vs ++ ws, stop)
  | .tuple es => leadingAll es
  | .sum _ p => p.leading

def leadingAll : List Draft → List Int × Bool
  | [] => ([], false)
  | d :: ds =>
    let (vs, stop) := d.leading
    if stop then (vs, true) else
      let (ws, stop) := leadingAll ds
      (vs ++ ws, stop)

end

/-- The text of a draft, which must have no blanks. Names given left of a blank stay given. -/
def showWith (bracket : Bool) (d : Draft) : StateM Names (Except Misuse String) := do
  match d.complete? with
  | some t => return .ok (← t.showWith bracket)
  | none =>
    for v in d.leading.1 do
      let _ ← Names.give v
    return .error .blankShown

mutual

/-- Whether a draft occurs in another one. Only variables occur anywhere, and the search ends with
the first blank it meets. -/
def occursIn (part : Draft) : Draft → Except Misuse Bool
  | .blank => .error .blankSearched
  | .name _ => .ok false
  | .var v => .ok (part == .var v)
  | .fn p r => do if ← occursIn part p then return true else occursIn part r
  | .tuple es => occursInAny part es
  | .sum _ p => occursIn part p

def occursInAny (part : Draft) : List Draft → Except Misuse Bool
  | [] => .ok false
  | d :: ds => do if ← occursIn part d then return true else occursInAny part ds

end

mutual

def debug : Draft → String
  | .blank => "None"
  | .name n => n
  | .var v => "@" ++ toString v
  | .fn p r => "(" ++ p.debug ++ " -> " ++ r.debug ++ ")"
  | .tuple es => "(" ++ ", ".intercalate (debugAll es) ++ ")"
  | .sum l p => l ++ "[" ++ p.debug ++ "]"

def debugAll : List Draft → List String
  | [] => []
  | d :: ds => d.debug :: debugAll ds

end

end Draft

end Monotype
