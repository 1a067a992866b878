import Monotype.Clash
import Monotype.Span
import Monotype.Subst
import Monotype.Text.Quoted

/-!
The log of a run: what happened, and the line that is written about it.
-/

namespace Monotype

inductive Level where
  | debug
  | info
  | error
  | critical
deriving Repr, DecidableEq, Inhabited

def Level.text : Level → String
  | .debug => "DEBUG"
  | .info => "INFO"
  | .error => "ERROR"
  | .critical => "CRITICAL"

inductive Event where
  | solved (left right : Ty)
  | clashed (clash : Clash)
  | boundTwice (name : String)
  | emptyMatch (span : Span)
  | solution (subst : Subst)
  | inferred (type : Ty)
  | missingField (key path : String)
  /-- A document is no JSON text. -/
  | invalidDocument
  | undecodable (encoding : String)
  /-- Something failed that is not reported as an error of the program checked. -/
  | unexpected (kind argument : String)
  | badOffset (offset length : Int)
  | reporting (name : String)
  | reportingProgramText (name : String)
  | programTextMissing (path : String)
  | programTextFolder (path : String)
  | programTextDenied (path : String)
  | outputMissing (target : String)
  | outputDenied (target : String)
  | noFile
  | fileFolder (path : String)
  | fileMissing (path : String)
  | fileDenied (path : String)
  | showingHelp
  | versionUnknown
  | showingVersion (version : String)
deriving Repr, DecidableEq, Inhabited

namespace Event

def equation (left right : Ty) : String := "(" ++ left.debug ++ ") ~ (" ++ right.debug ++ ")"

def clashText (c : Clash) : String :=
  (match c.kind with
    | .circular => "Circularity detected in "
    | .arity => "Tuple sizes differ in "
    | .label => "Variant labels differ in "
    | .mismatch | .plain => "Cannot unify: ") ++ equation c.left c.right

def level : Event → Level
  | .solved .. | .solution _ => .debug
  | .inferred _ | .reporting _ | .reportingProgramText _ | .showingHelp | .showingVersion _ => .info
  | .clashed _ | .boundTwice _ | .emptyMatch _ | .missingField .. | .badOffset .. | .fileFolder _ =>
    .critical
  | _ => .error

def text : Event → String
  | .solved l r => equation l r
  | .clashed c => clashText c
  | .boundTwice n => "The name " ++ n ++ " is bound twice in one pattern"
  | .emptyMatch s => "Reached a match expression with no cases at " ++ s.debug
  | .solution s => "substitution: " ++ s.debug
  | .inferred t => "Inferred the type: " ++ t.debug
  | .missingField k p => "Missing field " ++ Text.quoted k ++ " at " ++ p
  | .invalidDocument => "The input is not a valid JSON document."
  | .undecodable e => "Unable to decode the source using " ++ e ++ " encoding."
  | .unexpected k a => "Unexpected " ++ k ++ ": (" ++ Text.quoted a ++ ",)"
  | .badOffset o n =>
    "Offset " ++ toString o ++ " is outside a source of length " ++ toString n
  | .reporting n => "Reporting a " ++ n ++ " error."
  | .reportingProgramText n => "Reporting a " ++ n ++ " error for the program text."
  | .programTextMissing p => "Unable to find the program text " ++ p
  | .programTextFolder p => "The program text " ++ p ++ " is a folder"
  | .programTextDenied p => "Unable to read the program text " ++ p
  | .outputMissing t => "Unable to create the output file " ++ t
  | .outputDenied t => "Not allowed to write to the output file " ++ t
  | .noFile => "No syntax tree file was given."
  | .fileFolder p => "Expected a file but got the folder " ++ p
  | .fileMissing p => "Unable to find a file needed for " ++ p
  | .fileDenied p => "Unable to read a file needed for " ++ p
  | .showingHelp => "Showing the help text."
  | .versionUnknown => "Unable to find the installed version of typers."
  | .showingVersion v => "Showing the version (" ++ v ++ ")."

def line (e : Event) : String := "[" ++ e.level.text ++ "] " ++ e.text

end Event

end Monotype
