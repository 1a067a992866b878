import Monotype.Text.Word

/-!
Filling lines. A text is cut into chunks (words, parts of hyphenated words, dashes and blanks), and
each line takes as many chunks as fit. No blank is dropped, so the lines put together are the text
with its tabs expanded.
-/

namespace Monotype.Text

def lineWidth : Nat := 87

def tabWidth : Nat := 4

def isBlank (c : Char) : Bool := c ∈ ['\t', '\n', '\x0b', '\x0c', '\r', ' ']

/-- Replaces each tab by blanks up to the next tab stop. -/
def expandTabs (column : Nat) : List Char → List Char
  | [] => []
  | c :: cs =>
    if c = '\t' then
      let gap := tabWidth - column % tabWidth
      List.replicate gap ' ' ++ expandTabs (column + gap) cs
    else c :: expandTabs (if c = '\n' ∨ c = '\r' then 0 else column + 1) cs

/-! ### Chunks -/

/-- Whether a dash may follow a character closely. -/
def isWordEnd (c : Char) : Bool := isWord c || c ∈ ['!', '"', '\'', '&', '.', ',', '?']

/-- Whether a text starts with two or more hyphens that a word follows closely. -/
def startsDash (cs : List Char) : Bool :=
  let hyphens := (cs.takeWhile (· = '-')).length
  2 ≤ hyphens && (cs.drop hyphens).head?.any isWord

/-- Whether a dash stands between words here. The text before is given in reverse. -/
def isDash (before cs : List Char) : Bool := before.head?.any isWordEnd && startsDash cs

/-- Whether a word can be broken behind a hyphen: two letters come before it and two come after it,
and on either side another hyphen may stand between the two. The text before is given in reverse. -/
def isHyphenation (before after : List Char) : Bool :=
  (match before with
    | a :: '-' :: b :: _ => isLetter a && isLetter b
    | a :: b :: _ => isLetter a && isLetter b
    | _ => false) &&
  (match after with
    | a :: '-' :: b :: _ => isLetter a && isLetter b
    | a :: b :: _ => isLetter a && isLetter b
    | _ => false)

inductive Chunk where
  | complete
  | blank
  | dash
  | word
deriving Repr, DecidableEq

def Chunk.endsAt (before : List Char) (c : Char) (after : List Char) : Chunk → Bool
  | .complete => true
  | .blank => !isBlank c
  | .dash => c ≠ '-'
  | .word => isBlank c || isDash before (c :: after)

def Chunk.startingWith (before : List Char) (c : Char) (after : List Char) : Chunk :=
  if isBlank c then .blank else if isDash before (c :: after) then .dash else .word

/-- The rest of the chunk at hand and the chunks behind it. -/
def chunksFrom (chunk : Chunk) (before : List Char) : List Char → List Char × List (List Char)
  | [] => ([], [])
  | c :: after =>
    if chunk.endsAt before c after then
      let (first, rest) := chunksFrom (.startingWith before c after) (c :: before) after
      ([], (c :: first) :: rest)
    else
      let closed := chunk = .word ∧ c = '-' ∧ isHyphenation before after
      let (first, rest) := chunksFrom (if closed then .complete else chunk) (c :: before) after
      (c :: first, rest)

def chunks (cs : List Char) : List (List Char) := (chunksFrom .complete [] cs).2

/-! ### Lines -/

/-- Where a chunk that is too long for any line is cut when this much room is left: behind its last
hyphen that fits and follows something else than hyphens, else where the room ends. -/
def cutAt (chunk : List Char) (room : Nat) : Nat :=
  match ((chunk.take room).reverse.dropWhile (· ≠ '-')) with
  | [] => room
  | _ :: before => if before.any (· ≠ '-') then before.length + 1 else room

theorem cutAt_pos (chunk : List Char) {room : Nat} (h : 0 < room) : 0 < cutAt chunk room := by
  unfold cutAt
  split
  · exact h
  · split <;> omega

/-- The work in chunks that wait for a line: their characters, and one more for each. -/
def waiting : List (List Char) → Nat
  | [] => 0
  | chunk :: rest => chunk.length + 1 + waiting rest

/-- Puts chunks on lines. `line` is what stands on the line at hand. -/
def linesFrom (line : List Char) : List (List Char) → List (List Char)
  | [] => if line.isEmpty then [] else [line]
  | chunk :: rest =>
    if line.length + chunk.length ≤ lineWidth then linesFrom (line ++ chunk) rest
    else if lineWidth < chunk.length then
      let cut := cutAt chunk (lineWidth - line.length)
      (line ++ chunk.take cut) :: linesFrom [] (chunk.drop cut :: rest)
    else line :: linesFrom [] (chunk :: rest)
termination_by chunks => (waiting chunks, line.length)
decreasing_by
  · simp only [waiting]
    exact Prod.Lex.left _ _ (by omega)
  · simp only [waiting, List.length_drop, lineWidth] at *
    by_cases full : line.length < 87
    · have := cutAt_pos chunk (show 0 < 87 - line.length by omega)
      exact Prod.Lex.left _ _ (by omega)
    · have none : cutAt chunk (87 - line.length) = 0 := by
        rw [show 87 - line.length = 0 by omega]
        rfl
      rw [none]
      exact Prod.Lex.right _ (by simp; omega)
  · simp only [lineWidth] at *
    exact Prod.Lex.right _ (by simp; omega)

def fill (text : String) : String :=
  "\n".intercalate ((linesFrom [] (chunks (expandTabs 0 text.toList))).map String.ofList)

end Monotype.Text
