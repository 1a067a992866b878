import Monotype.Infer.Session
import Monotype.Tree

/-!
Types of patterns. Names and wildcards get fresh variables from left to right, and the names come
out as bindings in the same order.
-/

namespace Monotype

abbrev Bindings := List (String × Ty)

mutual

/-- The type of the values that a pattern matches, and what it binds. The names in `seen` are bound
further left in the same pattern. -/
def Pattern.inferFrom (seen : List String) : Pattern → Infer (Ty × Bindings)
  | .unit _ => return (.unit, [])
  | .int .. => return (.int, [])
  | .wildcard _ => return (← Infer.fresh, [])
  | .name span x => do
    if x ∈ seen then
      Infer.tell (.boundTwice x)
      throw (.duplicateBinding x span)
    let t ← Infer.fresh
    return (t, [(x, t)])
  | .constructor _ label arg => do
    let (t, bound) ← arg.inferFrom seen
    return (.sum label t, bound)
  | .tuple _ elements => do
    let (ts, bound) ← Pattern.inferAllFrom seen elements
    return (.tuple ts, bound)
  | .expr _ => throw .misplaced

def Pattern.inferAllFrom (seen : List String) : List Pattern → Infer (List Ty × Bindings)
  | [] => return ([], [])
  | p :: ps => do
    let (t, bound) ← p.inferFrom seen
    let (ts, rest) ← Pattern.inferAllFrom (seen ++ bound.map (·.1)) ps
    return (t :: ts, bound ++ rest)

end

def Pattern.infer (p : Pattern) : Infer (Ty × Bindings) := p.inferFrom []

end Monotype
