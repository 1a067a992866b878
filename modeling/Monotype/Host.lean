import Monotype.Failure
import Monotype.Path

/-!
What the command needs from the system that it runs on.
-/

namespace Monotype

inductive FileError where
  | problem (problem : FileProblem)
  /-- A file stands in the path where a folder should be. -/
  | notAFolder
deriving Repr, DecidableEq, Inhabited

class Host (m : Type → Type) where
  isFolder : Path → m Bool
  read : Path → m (Except FileError (List UInt8))
  /-- Makes an empty file, unless there is something at the path, and tells where it is. -/
  create : Path → m (Except FileError Path)
  write : Path → String → m (Except FileError Unit)
  printOut : String → m Unit
  printErr : String → m Unit
  version : m (Option String)

end Monotype
