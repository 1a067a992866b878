import Monotype.Command

/-!
The command on the real system. The log goes to a file in the current folder.
-/

namespace Monotype

def FileError.ofSystem : IO.Error → Option FileError
  | .noFileOrDirectory .. => some (.problem .notFound)
  | .permissionDenied .. => some (.problem .denied)
  | .inappropriateType _ code _ => some (if code = 20 then .notAFolder else .problem .isFolder)
  | _ => none

/-- Runs an operation on a file. A refusal that has no name here ends the command. -/
def attemptFile {α : Type} (operation : IO α) : IO (Except FileError α) := do
  try
    return .ok (← operation)
  catch e =>
    match FileError.ofSystem e with
    | some error => return .error error
    | none => throw e

instance : Host IO where
  isFolder path := do
    try
      (← IO.FS.realPath path.text).isDir
    catch _ => return false
  read path := attemptFile do
    let file ← IO.FS.realPath path.text
    if ← file.isDir then
      throw (.inappropriateType none 21 path.text)
    return (← IO.FS.readBinFile file).toList
  create path := attemptFile do
    try
      let _ ← IO.FS.realPath path.text
    catch _ => IO.FS.writeFile path.text ""
    return path
  write path text := attemptFile (IO.FS.writeFile path.text text)
  printOut text := IO.print text
  printErr text := IO.eprint text
  version := return some "0.1.0"

def Escape.message : Escape → String
  | .failure f =>
    match Report.text .short f "" "" [] with
    | .ok report _ => report
    | .error .. => f.name
  | .file (.problem problem) => problem.name
  | .file .notAFolder => "not_a_folder"
  | .misuse m => m.message
  | .usage e => e.message

end Monotype

def main (words : List String) : IO UInt32 := do
  let command : Monotype.Command IO Nat := Monotype.Command.execute words
  let (result, log) ← (ExceptT.run command).run []
  if !log.isEmpty then
    try
      IO.FS.writeFile "typers.log" (String.join (log.map fun event => event.line ++ "\n"))
    catch _ => pure ()
  match result with
  | .ok code => return code.toUInt32
  | .error escape =>
    IO.eprintln escape.message
    return 1
