import Monotype.Check
import Monotype.Host
import Monotype.Options

/-!
The command: it reads its options, checks the file that they name, and ends with an exit code. A
program without a type still counts as success; only trouble with the file itself does not.
-/

namespace Monotype

inductive Output where
  | stdout
  | stderr
  | file (path : Path)
deriving Repr, DecidableEq, Inhabited

/-- What ends the command without an exit code. -/
inductive Escape where
  | failure (failure : Failure)
  | file (error : FileError)
  | misuse (misuse : Misuse)
  | usage (error : UsageError)
deriving Repr, DecidableEq, Inhabited

abbrev Command (m : Type → Type) := ExceptT Escape (StateT (List Event) m)

namespace Command

variable {m : Type → Type} [Monad m]

def tell (e : Event) : Command m Unit := modify (· ++ [e])

def host {α : Type} (operation : m α) : Command m α := ExceptT.lift (StateT.lift operation)

def logged {α : Type} (run : Logged α) : Command m α := do
  match run (← get) with
  | .ok a log =>
    set log
    return a
  | .error misuse log =>
    set log
    throw (.misuse misuse)

variable [Host m]

/-- The output with a name. A file is created at once. -/
def openOutput (target : String) : Command m Output := do
  if target = "stdout" then return .stdout
  if target = "stderr" then return .stderr
  match ← host (Host.create (Path.ofString target)) with
  | .ok path => return .file path
  | .error (.problem .notFound) =>
    tell (.outputMissing target)
    throw (.failure (.unusableFile .notFound))
  | .error (.problem .denied) =>
    tell (.outputDenied target)
    throw (.failure (.unusableFile .denied))
  | .error e => throw (.file e)

def tryPut (output : Output) (text : String) : Command m (Except FileError Unit) := do
  match output with
  | .stdout =>
    host (Host.printOut text)
    return .ok ()
  | .stderr =>
    host (Host.printErr text)
    return .ok ()
  | .file path => host (Host.write path text)

def put (output : Output) (text : String) : Command m Unit := do
  match ← tryPut output text with
  | .ok () => return ()
  | .error e => throw (.file e)

def configure (words : List String) : Command m (Config Output) := do
  match Options.parse words with
  | .error e => throw (.usage e)
  | .ok options => return options.toConfig (← openOutput options.out)

def refuseFile (config : Config Output) (problem : FileProblem) (code : Nat) : Command m Nat := do
  put config.output
    (← logged (Report.write config.format (.unusableFile problem) "" (Path.textOf config.file)))
  return code

def checkDocument (config : Config Output) (path : Path) : Command m (Except FileError Unit) := do
  match ← host (Host.read path) with
  | .error e => return .error e
  | .ok document =>
    let program ← config.sourceFile.mapM fun source => host (Host.read source)
    match program with
    | some (.error .notAFolder) => return .error .notAFolder
    | some (.error (.problem problem)) =>
      tryPut config.output (← logged (Check.run config (some (.error problem)) document))
    | some (.ok bytes) =>
      tryPut config.output (← logged (Check.run config (some (.ok bytes)) document))
    | none => tryPut config.output (← logged (Check.run config none document))

/-- Checks the file of a configuration. The result is the exit code. -/
def checkFile (config : Config Output) : Command m Nat := do
  match config.file with
  | none =>
    tell .noFile
    put config.output ("Expected a JSON syntax tree to check.\n\n" ++ Options.usage ++ "\n")
    return 64
  | some path =>
    if ← host (Host.isFolder path) then
      tell (.fileFolder path.text)
      refuseFile config .isFolder 65
    else
      match ← checkDocument config path with
      | .ok () => return 0
      | .error (.problem .notFound) =>
        tell (.fileMissing path.text)
        refuseFile config .notFound 66
      | .error (.problem .denied) =>
        tell (.fileDenied path.text)
        refuseFile config .denied 66
      | .error e => throw (.file e)

/-- Shows the version. It is an error not to know it. -/
def showVersion (config : Config Output) : Command m Nat := do
  let version ← host (m := m) Host.version
  if version.isNone then
    tell .versionUnknown
  let text := version.getD "unknown"
  tell (.showingVersion text)
  put config.output ("Typers Version " ++ text ++ "\n")
  return if version.isSome then 0 else 1

def perform (config : Config Output) : Command m Nat := do
  if config.showHelp then
    tell .showingHelp
    put config.output Options.help
    return 0
  if config.showVersion then showVersion config else checkFile config

/-- The whole command. A refused command line is explained on the error stream. -/
def execute (words : List String) : Command m Nat := do
  try
    perform (← configure words)
  catch
    | .usage e =>
      host (Host.printErr (Options.refusal e))
      return 2
    | other => throw other

end Command

end Monotype
