import Monotype.Infer.Session
import Monotype.Misuse
import Monotype.Ty.Names

/-!
Failures: everything that a run reports to its user instead of a type.
-/

namespace Monotype

inductive FileProblem where
  | notFound
  | isFolder
  | denied
deriving Repr, DecidableEq, Inhabited

namespace FileProblem

def name : FileProblem → String
  | .notFound => "file_not_found"
  | .isFolder => "path_is_folder"
  | .denied => "no_permission"

def alert (path : String) : FileProblem → String
  | .notFound => "There is no file at \"" ++ path ++ "\"."
  | .isFolder => "\"" ++ path ++ "\" is a folder."
  | .denied => "Reading \"" ++ path ++ "\" is not allowed."

def hint : FileProblem → String
  | .notFound => "Check that the path is spelled correctly."
  | .isFolder => "Pass the JSON file inside it instead."
  | .denied => "Give the type checker read access to it."

end FileProblem

/-- Something that ends a run and is reported. -/
inductive Failure where
  | badEncoding (encoding : Option String)
  /-- A file named on the command line cannot be used. -/
  | unusableFile (problem : FileProblem)
  | malformed (path reason : String)
  | problem (problem : Problem)
  /-- A failure that says nothing about its cause. -/
  | causeless
  /-- The type checker itself is at fault. -/
  | unexpected (kind argument : String)
deriving Repr, DecidableEq, Inhabited

def ClashKind.name : ClashKind → String
  | .plain => "type_clash"
  | .mismatch => "type_mismatch"
  | .arity => "arity_mismatch"
  | .label => "label_mismatch"
  | .circular => "circular_type_error"

def Failure.name : Failure → String
  | .badEncoding _ => "unknown_encoding"
  | .unusableFile _ => "command_line_error"
  | .malformed .. => "malformed_ast"
  | .problem (.clash c _) => c.kind.name
  | .problem (.undefinedName ..) => "undefined_name"
  | .problem (.duplicateBinding ..) => "duplicate_binding"
  | .problem .emptyMatch | .problem .misplaced | .unexpected .. => "internal_error"
  | .causeless => "compiler_error"

namespace Clash

/-- Both types under one naming of their variables. -/
def texts (c : Clash) : String × String :=
  ((do
    let left ← c.left.showWith false
    let right ← c.right.showWith false
    return (left, right) : StateM Names (String × String)).run []).1

end Clash

def Ty.arity : Ty → Except Misuse Nat
  | .tuple es => .ok es.length
  | t => .error (.notATuple t.kindName)

def Ty.label : Ty → Except Misuse String
  | .sum l _ => .ok l
  | t => .error (.notAVariant t.kindName)

def Clash.explain (c : Clash) : Except Misuse String := do
  let (left, right) := c.texts
  match c.kind with
  | .plain => return "Cannot unify the types `" ++ left ++ "` and `" ++ right ++ "`."
  | .mismatch =>
    return "Unexpected type `" ++ left ++ "` where `" ++ right ++ "` was expected instead."
  | .arity =>
    let here ← c.left.arity
    let there ← c.right.arity
    return "The tuple type `" ++ left ++ "` has " ++ toString here
      ++ " elements but it is supposed to match `" ++ right ++ "` which has " ++ toString there
      ++ " elements."
  | .label =>
    let here ← c.left.label
    let there ← c.right.label
    return "The variant `" ++ here ++ "` (in `" ++ left
      ++ "`) cannot be used where the variant `" ++ there ++ "` (in `" ++ right ++ "`) is expected."
  | .circular =>
    return "Cannot unify the types `" ++ left ++ "` and `" ++ right
      ++ "` because the first one occurs inside the second one, so the result would be infinitely "
      ++ "recursive."

end Monotype
