import Monotype.Config
import Monotype.Document
import Monotype.Encoding
import Monotype.Infer
import Monotype.Phase
import Monotype.Tree.Printer

/-!
Checking a document: its bytes are decoded, the tree in it is read, its type is inferred and shown.
Whatever goes wrong on the way is reported in the format that the configuration asks for.
-/

namespace Monotype

/-- Computations that can end with a failure. Their log stays in that case. -/
abbrev Stage := ExceptT Failure Logged

namespace Stage

def tell (e : Event) : Stage Unit := Logged.tell e

def ofExcept {α : Type} (result : Except Misuse α) : Stage α :=
  ExceptT.lift (Logged.ofExcept result)

end Stage

/-- How files are read: how bytes become text under the name of an encoding, and how text becomes a
JSON value. What is refused comes with the name of the encoding, or with a message. -/
structure Reader where
  decode : String → List UInt8 → Except String String := Encoding.decodeAs
  parse : String → Except String Json := Json.read

namespace Check

variable {ω : Type}

def decode (reader : Reader) (encoding : String) (bytes : List UInt8) : Stage String := do
  match reader.decode encoding bytes with
  | .ok text => return text
  | .error name =>
    Stage.tell (.undecodable name)
    throw (.badEncoding (some name))

/-- Reads a tree. The run ends here if the tree is to be shown. -/
def load (reader : Reader) (showTree : Bool) (text : String) : Stage (Phase Expr) := do
  match Document.load text reader.parse with
  | .error (failure, events) =>
    events.forM Stage.tell
    throw failure
  | .ok tree =>
    if showTree then return .stop ((← Stage.ofExcept tree.text) ++ "\n") else return .next tree

/-- Infers the type of a tree. Fresh variables are counted from `first`. -/
def inferType (first : Int) (tree : Expr) : Stage (Phase Ty) := do
  match tree.inferType [] { next := first } with
  | .ok type session =>
    session.log.forM Stage.tell
    Stage.tell (.inferred type)
    return .next type
  | .error problem session =>
    session.log.forM Stage.tell
    match problem with
    | .misplaced => Stage.ofExcept (.error .matchedExpression)
    | _ => throw (.problem problem)

def render (type : Ty) : Stage (Phase Unit) := return .stop (type.text ++ "\n")

def programTextEvent (path : String) : FileProblem → Event
  | .notFound => .programTextMissing path
  | .isFolder => .programTextFolder path
  | .denied => .programTextDenied path

/-- The program text, which is empty if there is none. -/
def programText (reader : Reader) (config : Config ω)
    (program : Option (Except FileProblem (List UInt8))) : Stage String := do
  match program with
  | none => return ""
  | some (.ok bytes) => decode reader config.encoding bytes
  | some (.error problem) =>
    Stage.tell (programTextEvent (Path.textOf config.sourceFile) problem)
    throw (.unusableFile problem)

def phases (reader : Reader) (config : Config ω) (document : List UInt8) (first : Int) :
    Stage (Phase Unit) := do
  let text ← decode reader config.encoding document
  let tree ← load reader config.showTree text
  let type ← tree.chain (inferType first)
  type.chain render

/-- Checks a document. `program` is what came of reading the program text, if there is one. -/
def run (config : Config ω) (program : Option (Except FileProblem (List UInt8)))
    (document : List UInt8) (first : Int := 1) (reader : Reader := {}) : Logged String := do
  match ← (programText reader config program).run with
  | .error failure =>
    Logged.tell (.reportingProgramText failure.name)
    Report.write config.format failure "" (Path.textOf config.sourceFile)
  | .ok source =>
    match ← (phases reader config document first).run with
    | .error failure =>
      Logged.tell (.reporting failure.name)
      Report.write config.format failure source (Path.textOf config.file)
    | .ok outcome => return outcome.message ""

end Check

end Monotype
