import Monotype.Failure
import Monotype.Json.Writer
import Monotype.Text.Fill
import Monotype.Text.Source

/-!
Reports on failures, in three formats: a JSON object, a single line, and a text with a banner around
it that quotes the program.
-/

namespace Monotype

inductive Format where
  | json
  | long
  | short
deriving Repr, DecidableEq, Inhabited

namespace Format

def name : Format → String
  | .json => "json"
  | .long => "long"
  | .short => "short"

/-- All formats, in the order in which they are offered. -/
def all : List Format := [.json, .long, .short]

def ofName? (s : String) : Option Format := all.find? (·.name == s)

end Format

namespace Report

def banner (message path : String) : String :=
  let title := " Type Error "
  let ruler := fun n => String.ofList (List.replicate n '=')
  let spare := Text.lineWidth - title.length
  "\n" ++ ruler (spare - spare / 2) ++ title ++ ruler (spare / 2) ++ "\nIn \"" ++ path ++ "\":\n\n"
    ++ message ++ "\n\n" ++ ruler Text.lineWidth ++ "\n"

def crashText (kind : String) : String :=
  "Internal Error: the type checker crashed with \"" ++ kind ++ "\"."

def ofOffset : Offset → Json
  | .int n => .int n
  | .bool b => .bool b

def spanFields (span : Span) : List (String × Json) :=
  [("start", ofOffset span.start), ("end", ofOffset span.stop)]

def toJson (path : String) (f : Failure) : Except Misuse Json :=
  let source : String × Json := ("source_path", .string path)
  let error : String × Json := ("error_name", .string f.name)
  match f with
  | .badEncoding encoding =>
    .ok (.object [error, source, ("encoding", encoding.elim .null .string)])
  | .unusableFile p => .ok (.object [error, source, ("specific_error", .string p.name)])
  | .malformed place reason =>
    .ok (.object [source, error, ("path", .string place), ("reason", .string reason)])
  | .problem (.clash c span) =>
    let (left, right) := c.texts
    .ok (.object ([source, error, ("left", .string left), ("right", .string right)]
      ++ span.elim [] spanFields))
  | .problem (.undefinedName x span) | .problem (.duplicateBinding x span) =>
    .ok (.object ([source, error] ++ spanFields span ++ [("value", .string x)]))
  | .problem .emptyMatch => .ok (.object [error, source])
  | .problem .misplaced => .error .matchedExpression
  | .causeless => .error .causeless
  | .unexpected kind _ => .ok (.object [source, error, ("actual_error", .string kind)])

/-- One line about a failure, with the position it is about. -/
def toAlert (path : String) : Failure → Except Misuse (String × Option Span)
  | .badEncoding _ => .ok ("Unable to decode \"" ++ path ++ "\".", none)
  | .unusableFile p => .ok (p.alert path, none)
  | .malformed place reason =>
    .ok ("Invalid syntax tree at `" ++ place ++ "`: " ++ reason, none)
  | .problem (.clash c span) => return (← c.explain, span)
  | .problem (.undefinedName x span) => .ok ("\"" ++ x ++ "\" is not defined.", some span)
  | .problem (.duplicateBinding x span) =>
    .ok ("The name \"" ++ x ++ "\" is bound more than once in this pattern.", some span)
  | .problem .emptyMatch => .ok ("A fatal error occurred in the type checker.", none)
  | .problem .misplaced => .error .matchedExpression
  | .causeless => .error .causeless
  | .unexpected kind _ => .ok (Text.fill (crashText kind), none)

def toLong (source path : String) : Failure → Logged String
  | .badEncoding encoding =>
    return Text.fill ("The contents of \"" ++ path ++ "\" could not be decoded"
      ++ encoding.elim "" (" as " ++ ·)
      ++ ". Pass the right encoding with `--encoding` or save the file as UTF-8.")
  | .unusableFile p => return Text.fill (p.alert path ++ " " ++ p.hint)
  | .malformed place reason =>
    return Text.fill ("The syntax tree in \"" ++ path
      ++ "\" could not be loaded because the node at `" ++ place ++ "` is invalid: " ++ reason)
  | .problem (.clash c span) => do
    let quotation ← Text.quoteSpan source.toList span
    let explanation := Text.fill (← Logged.ofExcept c.explain)
    return if quotation.isEmpty then explanation else quotation ++ "\n\n" ++ explanation
  | .problem (.undefinedName x span) => do
    let quotation ← Text.quoteSpan source.toList span
    return quotation ++ "\n\n"
      ++ Text.fill ("\"" ++ x ++ "\" is used here but nothing around it binds that name.")
  | .problem (.duplicateBinding x span) => do
    let quotation ← Text.quoteSpan source.toList span
    return quotation ++ "\n\n"
      ++ Text.fill ("The name \"" ++ x ++ "\" is bound several times in the same pattern. "
        ++ "Try renaming one of them or replacing it with `_`.")
  | .problem .emptyMatch =>
    return Text.fill ("The type checker has stopped because of an internal error. "
      ++ "The log file has more details.")
  | .problem .misplaced => throw .matchedExpression
  | .causeless => throw .causeless
  | .unexpected kind _ =>
    return Text.fill (crashText kind ++ " The log file has the full traceback.")

/-- The report on a failure. `source` is the program and `path` the file with its tree. -/
def text (format : Format) (f : Failure) (source path : String) : Logged String :=
  match format with
  | .json => return (← Logged.ofExcept (toJson path f)).text
  | .short => do
    let (message, span) ← Logged.ofExcept (toAlert path f)
    return span.elim message fun span => span.start.text ++ " | " ++ message
  | .long => return banner (← toLong source path f) path

/-- Writes the report on a failure. A fault of the type checker also goes to the log. -/
def write (format : Format) (f : Failure) (source path : String) : Logged String := do
  if let .unexpected kind argument := f then
    Logged.tell (.unexpected kind argument)
  text format f source path

end Report

end Monotype
