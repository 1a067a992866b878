import Monotype.Config
import Monotype.Text.Digit
import Monotype.Text.Quoted

/-!
The command line. Words are sorted first: everything after a double dash is a value, and so is a
word that does not look like an option. Short options can be written together, and an option can
have its value attached.
-/

namespace Monotype

inductive Switch where
  | help
  | version
  | out
  | format
  | encoding
  | source
  | showTree
deriving Repr, DecidableEq, Inhabited

namespace Switch

def all : List Switch := [.help, .version, .out, .format, .encoding, .source, .showTree]

def spellings : Switch → List String
  | .help => ["-?", "-h", "--help"]
  | .version => ["-v", "--version"]
  | .out => ["-o", "--out"]
  | .format => ["-r", "--report-fmt", "--report-format"]
  | .encoding => ["-e", "--encoding"]
  | .source => ["-s", "--source"]
  | .showTree => ["--show-ast", "--load-only"]

def takesValue : Switch → Bool
  | .out | .format | .encoding | .source => true
  | .help | .version | .showTree => false

def label (s : Switch) : String := "/".intercalate s.spellings

def ofSpelling? (s : String) : Option Switch := all.find? (s ∈ ·.spellings)

end Switch

structure Options where
  file : Option String := none
  showHelp : Bool := false
  showVersion : Bool := false
  out : String := "stdout"
  format : Format := .long
  encoding : String := "utf8"
  source : Option String := none
  showTree : Bool := false
deriving Repr, DecidableEq, Inhabited

inductive UsageError where
  | expectsValue (switch : Switch)
  | ignoredValue (switch : Switch) (value : String)
  | invalidChoice (switch : Switch) (value : String)
  | unrecognized (words : List String)
deriving Repr, DecidableEq, Inhabited

namespace UsageError

def message : UsageError → String
  | .expectsValue s => "argument " ++ s.label ++ ": expected one argument"
  | .ignoredValue s v =>
    "argument " ++ s.label ++ ": ignored explicit argument " ++ Text.quoted v
  | .invalidChoice s v =>
    "argument " ++ s.label ++ ": invalid choice: " ++ Text.quoted v ++ " (choose from "
      ++ ", ".intercalate (Format.all.map fun f => Text.quoted f.name) ++ ")"
  | .unrecognized words => "unrecognized arguments: " ++ " ".intercalate words

end UsageError

namespace Options

def usage : String :=
  "usage: typers [-?] [-v] [-o OUT] [-r \x7bjson,long,short\x7d] [-e ENCODING]\n"
    ++ "              [-s SOURCE] [--show-ast]\n"
    ++ "              [file]\n"

def help : String :=
  usage
    ++ "\npositional arguments:\n"
    ++ "  file                  The JSON file holding the syntax tree to type check.\n"
    ++ "\noptions:\n"
    ++ "  -?, -h, --help        Print this help text and exit.\n"
    ++ "  -v, --version         Print the version of typers and exit.\n"
    ++ "  -o OUT, --out OUT     Where to write the result: \"stdout\", \"stderr\" or a\n"
    ++ "                        file path.\n"
    ++ "  -r \x7bjson,long,short\x7d, --report-fmt \x7bjson,long,short\x7d, "
    ++ "--report-format \x7bjson,long,short\x7d\n"
    ++ "                        How to format error reports.\n"
    ++ "  -e ENCODING, --encoding ENCODING\n"
    ++ "                        The encoding of the input files.\n"
    ++ "  -s SOURCE, --source SOURCE\n"
    ++ "                        The program text that the syntax tree came from. It is\n"
    ++ "                        quoted in errors.\n"
    ++ "  --show-ast, --load-only\n"
    ++ "                        Print the loaded syntax tree instead of its type.\n"

def refusal (e : UsageError) : String := usage ++ "typers: error: " ++ e.message ++ "\n"

/-! ### Sorting the words -/

inductive Word where
  | value (text : String)
  /-- The double dash. -/
  | separator
  /-- An option, written long or short, with what is attached to it. -/
  | option (switch : Switch) (long : Bool) (attached : Option (List Char))
  /-- Something that looks like an option. -/
  | unknown (text : String)
deriving Repr, DecidableEq, Inhabited

/-- Negative numbers are values: digits, or a point with digits after it, and at most one line
break behind them. -/
def isNegativeNumber : List Char → Bool
  | '-' :: cs =>
    let digits := fun cs : List Char =>
      let rest := cs.dropWhile Text.isDigit
      rest.length < cs.length && (rest.isEmpty || rest == ['\n'])
    digits cs || match cs.dropWhile Text.isDigit with
      | '.' :: fraction => digits fraction
      | _ => false
  | _ => false

/-- Sorts a word that stands before the double dash. -/
def classify (word : String) : Word :=
  let cs := word.toList
  let (front, back) := (cs.takeWhile (· ≠ '='), cs.dropWhile (· ≠ '='))
  match cs with
  | [] | [_] => .value word
  | '-' :: second :: rest =>
    let long := second == '-'
    match Switch.ofSpelling? word with
    | some s => .option s long none
    | none =>
      match Switch.ofSpelling? (.ofList front), back with
      | some s, _ :: attached => .option s long (some attached)
      | _, _ =>
        match Switch.ofSpelling? (.ofList ['-', second]) with
        | some s => .option s false (some rest)
        | none => if isNegativeNumber cs || ' ' ∈ cs then .value word else .unknown word
  | _ => .value word

def sort : List String → List Word
  | [] => []
  | word :: words =>
    if word = "--" then .separator :: words.map .value else classify word :: sort words

/-! ### Reading the words -/

def turnOn (s : Switch) (o : Options) : Options :=
  match s with
  | .help => { o with showHelp := true }
  | .version => { o with showVersion := true }
  | .showTree => { o with showTree := true }
  | .out | .format | .encoding | .source => o

def assign (s : Switch) (value : String) (o : Options) : Except UsageError Options :=
  match s with
  | .out => .ok { o with out := value }
  | .encoding => .ok { o with encoding := value }
  | .source => .ok { o with source := some value }
  | .format =>
    match Format.ofName? value with
    | some f => .ok { o with format := f }
    | none => .error (.invalidChoice s value)
  | .help | .version | .showTree => .ok o

/-- Takes apart short options that are written together: the flags in front, the last option, and
the value attached to that one. -/
def unfold (s : Switch) (long : Bool) :
    List Char → Except UsageError (List Switch × Switch × Option String)
  | [] => if s.takesValue then .ok ([], s, some "") else .error (.ignoredValue s "")
  | c :: cs =>
    if s.takesValue then .ok ([], s, some (.ofList (c :: cs)))
    else if long then .error (.ignoredValue s (.ofList (c :: cs)))
    else
      match Switch.ofSpelling? (.ofList ['-', c]) with
      | none => .error (.ignoredValue s (.ofList (c :: cs)))
      | some next =>
        if cs.isEmpty then .ok ([s], next, none)
        else do
          let (flags, last, attached) ← unfold next false cs
          return (s :: flags, last, attached)

structure Progress where
  options : Options := {}
  /-- Whether a file may still be named. -/
  fileDue : Bool := true
  /-- Whether the last word named the file. -/
  fileLast : Bool := false
  /-- An option whose value comes next. -/
  waiting : Option Switch := none
  extras : List String := []
deriving Repr, DecidableEq, Inhabited

namespace Progress

def leaveOver (word : String) (p : Progress) : Progress := { p with extras := p.extras ++ [word] }

/-- A value that belongs to no option names the file, or is left over. -/
def value (word : String) (p : Progress) : Progress :=
  if p.fileDue then
    { p with options := { p.options with file := some word }, fileDue := false, fileLast := true }
  else p.leaveOver word

/-- A double dash says nothing in front of the file or right behind it. -/
def separator (p : Progress) : Progress :=
  if p.fileDue || p.fileLast then { p with fileLast := false } else p.leaveOver "--"

def option (s : Switch) (long : Bool) (attached : Option (List Char)) (p : Progress) :
    Except UsageError Progress := do
  let (flags, last, value) ← match attached with
    | none => .ok ([], s, none)
    | some cs => unfold s long cs
  let options := flags.foldl (fun o flag => turnOn flag o) p.options
  match value with
  | some v => return { p with options := ← assign last v options }
  | none =>
    if last.takesValue then return { p with options, waiting := some last }
    else return { p with options := turnOn last options }

def step (p : Progress) (word : Word) : Except UsageError Progress :=
  match p.waiting, word with
  | some s, .value v => do
    return { p with options := ← assign s v p.options, waiting := none }
  | some s, _ => .error (.expectsValue s)
  | none, .value a => .ok ({ p with fileLast := false }.value a)
  | none, .separator => .ok p.separator
  | none, .unknown a => .ok ({ p with fileLast := false }.leaveOver a)
  | none, .option s long attached => { p with fileLast := false }.option s long attached

end Progress

def parse (words : List String) : Except UsageError Options := do
  let p ← (sort words).foldlM Progress.step {}
  if let some s := p.waiting then
    throw (.expectsValue s)
  if p.extras.isEmpty then return p.options else throw (.unrecognized p.extras)

def toConfig {ω : Type} (o : Options) (output : ω) : Config ω where
  file := o.file.map Path.ofString
  sourceFile := o.source.map Path.ofString
  encoding := o.encoding
  showTree := o.showTree
  showHelp := o.showHelp
  showVersion := o.showVersion
  format := o.format
  output := output

end Options

end Monotype
