import Monotype.Event
import Monotype.Misuse

/-!
Places in a source text. Offsets count characters from 0, and one below 0 counts from the end where
a part of the text is cut off by it. Columns start at 0 and lines at 1.
-/

namespace Monotype

abbrev Logged := EStateM Misuse (List Event)

def Logged.tell (e : Event) : Logged Unit := modify (· ++ [e])

def Logged.ofExcept {α : Type} : Except Misuse α → Logged α
  | .ok a => return a
  | .error misuse => throw misuse

namespace Text

/-- How many characters an offset cuts off. -/
def cutLength (source : List Char) (offset : Int) : Nat :=
  if 0 ≤ offset then min offset.toNat source.length else (source.length + offset).toNat

def front (source : List Char) (offset : Int) : List Char := source.take (cutLength source offset)

def back (source : List Char) (offset : Int) : List Char := source.drop (cutLength source offset)

/-- The number of characters before the last line of a text. -/
def lastLineStart (cs : List Char) : Nat := (cs.reverse.dropWhile (· ≠ '\n')).length

def lineStart (source : List Char) (offset : Int) : Nat := lastLineStart (front source offset)

def column (source : List Char) (offset : Int) : Int := offset - lineStart source offset

def lineNumber (source : List Char) (offset : Int) : Nat := (front source offset).count '\n' + 1

def lineEnd (source : List Char) (offset : Int) : Nat :=
  cutLength source offset + ((back source offset).takeWhile (· ≠ '\n')).length

/-- The line on which a span starts, with carets below the part of the span on that line. There is
at least one caret. -/
def pointer (source : List Char) (start stop : Int) : String :=
  let first := lineStart source start
  let last := lineEnd source start
  let gutter := toString (lineNumber source start) ++ " "
  let line := (source.take last).drop first
  let indent := (column source start).toNat
  let carets := (max 1 (min stop last - start)).toNat
  gutter ++ "|" ++ String.ofList line ++ "\n"
    ++ String.ofList (List.replicate gutter.length ' ') ++ "|"
    ++ String.ofList (List.replicate indent ' ') ++ String.ofList (List.replicate carets '^')

def checkOffset (source : List Char) (offset : Offset) : Logged Unit := do
  if source.length ≤ offset.toInt then
    Logged.tell (.badOffset offset.toInt source.length)
    throw (.badOffset offset)

def locate (source : List Char) (offset : Offset) : Logged (Int × Nat) := do
  checkOffset source offset
  return (column source offset.toInt, lineNumber source offset.toInt)

def pointTo (source : List Char) (span : Span) : Logged String := do
  checkOffset source span.start
  return pointer source span.start.toInt span.stop.toInt

/-- A pointer to a span, or its position in words if the text does not contain its start. -/
def quoteSpan (source : List Char) : Option Span → Logged String
  | none => return ""
  | some span =>
    if 0 ≤ span.start.toInt ∧ span.start.toInt < source.length then pointTo source span
    else return "At position " ++ span.start.text ++ " to " ++ span.stop.text ++ ":"

end Text

end Monotype
