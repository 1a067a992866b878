/-!
Positions in a source text. An offset is a number or, when a document says so, a truth value that
counts as 0 or 1 wherever it is calculated with.
-/

namespace Monotype

/-- One end of a span, kept as it was written. -/
inductive Offset where
  | int (value : Int)
  | bool (value : Bool)
deriving Repr, DecidableEq, Inhabited

namespace Offset

def toInt : Offset → Int
  | .int n => n
  | .bool true => 1
  | .bool false => 0

def text : Offset → String
  | .int n => toString n
  | .bool true => "True"
  | .bool false => "False"

end Offset

structure Span where
  start : Offset
  stop : Offset
deriving Repr, DecidableEq, Inhabited

namespace Span

def ofInts (start stop : Int) : Span := ⟨.int start, .int stop⟩

/-- The span of a node that does not say where it came from. -/
def origin : Span := ofInts 0 0

def debug (s : Span) : String := "(" ++ s.start.text ++ ", " ++ s.stop.text ++ ")"

end Span

end Monotype
