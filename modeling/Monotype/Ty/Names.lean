import Monotype.Ty

/-!
Types as users read them. Variables are named by letters in the order in which they are first met,
and a function is put in brackets on the left of an arrow.
-/

namespace Monotype

/-- The names given to variables so far, oldest first. -/
abbrev Names := List (Int × String)

/-- The alphabet, then the alphabet with a number after each letter. -/
def Names.nth (index : Nat) : String :=
  let letter := (Char.ofNat (97 + index % 26)).toString
  if index < 26 then letter else letter ++ toString (index / 26)

/-- The name of a variable. One without a name gets the next one. -/
def Names.give (v : Int) : StateM Names String := fun names =>
  match names.lookup v with
  | some name => (name, names)
  | none =>
    let name := Names.nth names.length
    (name, names ++ [(v, name)])

namespace Ty

/-- Texts of tuple elements in brackets. A single element is followed by a comma. -/
def showTuple : List String → String
  | [element] => "(" ++ element ++ ",)"
  | elements => "(" ++ ", ".intercalate elements ++ ")"

mutual

def showWith (bracket : Bool) : Ty → StateM Names String
  | .name n => return n
  | .var v => Names.give v
  | .fn p r => do
    let param ← p.showWith true
    let result ← r.showWith false
    let arrow := param ++ " -> " ++ result
    return if bracket then "(" ++ arrow ++ ")" else arrow
  | .tuple es => return showTuple (← showAll es)
  | .sum l p => return l ++ "[" ++ (← p.showWith false) ++ "]"

def showAll : List Ty → StateM Names (List String)
  | [] => return []
  | t :: ts => do
    let text ← t.showWith false
    return text :: (← showAll ts)

end

def text (t : Ty) : String := ((t.showWith false).run []).1

def kindName : Ty → String
  | .name _ => "TypeName"
  | .var _ => "TypeVar"
  | .fn .. => "FuncType"
  | .tuple _ => "TupleType"
  | .sum .. => "SumType"

end Ty

end Monotype
