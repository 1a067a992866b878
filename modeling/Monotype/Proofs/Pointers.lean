import Monotype.Proofs.Words
import Monotype.Text.Source

/-!
# Pointers into a text

A position inside a text has one line and one column (`Text.Position.unique`), and these are where it is
located. A pointer quotes that line and has carets below what the span covers of it. All of this is
read off the text as it is cut at the position: lines that are over, the line at hand in two parts,
and the rest (`Text.Cut`). Main theorem: `Text.pointTo_exact`.
-/

namespace Monotype.Text

/-! ### Lines -/

/-- The lines of a text, without the characters that end them. -/
def lines (source : List Char) : List (List Char) := source.splitOn '\n'

/-- The line of this number, counted from 1. -/
def row (source : List Char) (line : Nat) : List Char := (lines source).getD (line - 1) []

/-- Lines, each with the character that ends it. -/
def ended : List (List Char) → List Char
  | [] => []
  | l :: ls => l ++ '\n' :: ended ls

theorem length_ended (ls : List (List Char)) :
    (ended ls).length = (ls.map (·.length + 1)).sum := by
  induction ls with
  | nil => rfl
  | cons l ls ih =>
    simp only [ended, List.length_append, List.length_cons, List.map_cons, List.sum_cons, ih]
    omega

theorem ended_concat (ls : List (List Char)) (l : List Char) :
    ended (ls ++ [l]) = ended ls ++ l ++ ['\n'] := by
  induction ls with
  | nil => simp [ended]
  | cons k ls ih => simp [ended, ih]

theorem count_ended {ls : List (List Char)} (unbroken : ∀ l ∈ ls, '\n' ∉ l) :
    (ended ls).count '\n' = ls.length := by
  induction ls with
  | nil => rfl
  | cons l ls ih =>
    rw [List.forall_mem_cons] at unbroken
    rw [ended, List.count_append, List.count_cons_self, ih unbroken.2,
      List.count_eq_zero_of_not_mem unbroken.1, List.length_cons]
    omega

theorem lines_ended_append {ls : List (List Char)} (unbroken : ∀ l ∈ ls, '\n' ∉ l)
    (cs : List Char) : lines (ended ls ++ cs) = ls ++ lines cs := by
  induction ls with
  | nil => rfl
  | cons l ls ih =>
    rw [List.forall_mem_cons] at unbroken
    rw [ended, List.append_assoc, List.cons_append, lines,
      List.splitOn_append_cons_self_of_not_mem unbroken.1, ← lines, ih unbroken.2, List.cons_append]

theorem exists_ended (cs : List Char) : ∃ ls last,
    cs = ended ls ++ last ∧ (∀ l ∈ ls, '\n' ∉ l) ∧ '\n' ∉ last := by
  induction cs with
  | nil => exact ⟨[], [], rfl, by simp, by simp⟩
  | cons c cs ih =>
    obtain ⟨ls, last, rfl, unbroken, last_open⟩ := ih
    by_cases ending : c = '\n'
    · subst ending
      refine ⟨[] :: ls, last, rfl, ?_, last_open⟩
      rw [List.forall_mem_cons]
      exact ⟨by simp, unbroken⟩
    · cases ls with
      | nil => exact ⟨[], c :: last, rfl, by simp, by simp [Ne.symm ending, last_open]⟩
      | cons l ls =>
        rw [List.forall_mem_cons] at unbroken
        refine ⟨(c :: l) :: ls, last, rfl, ?_, last_open⟩
        rw [List.forall_mem_cons]
        exact ⟨by simp [Ne.symm ending, unbroken.1], unbroken.2⟩

/-- The last line starts behind the last one that has ended. -/
theorem lastLineStart_ended_append (ls : List (List Char)) {last : List Char}
    (last_open : '\n' ∉ last) : lastLineStart (ended ls ++ last) = (ended ls).length := by
  have skipped : ∀ c ∈ last.reverse, decide (c ≠ '\n') = true := by
    intro c member
    have different : c ≠ '\n' := by
      rintro rfl
      exact last_open (List.mem_reverse.mp member)
    exact decide_eq_true different
  rw [lastLineStart, List.reverse_append, List.dropWhile_append_of_pos skipped]
  rcases List.eq_nil_or_concat ls with rfl | ⟨front, l, rfl⟩
  · rfl
  · rw [List.concat_eq_append, ended_concat, List.reverse_append, List.reverse_singleton, List.singleton_append,
      List.dropWhile_cons_of_neg (by simp)]
    simp only [List.length_cons, List.length_reverse, List.length_append, List.length_nil]

/-! ### The place of a position -/

/-- The position is the one of a column on a line: so many characters are before it on its line, and
the lines before are over, with their ends. -/
structure Position (source : List Char) (start column line : Nat) : Prop where
  one_le : 1 ≤ line
  le_length : line ≤ (lines source).length
  column_le : column ≤ (row source line).length
  start_eq : start = column + (((lines source).take (line - 1)).map (·.length + 1)).sum

theorem sum_take_le (ls : List (List Char)) {m n : Nat} (le : m ≤ n) :
    ((ls.take m).map (·.length + 1)).sum ≤ ((ls.take n).map (·.length + 1)).sum := by
  obtain ⟨d, rfl⟩ := Nat.exists_eq_add_of_le le
  rw [List.take_add, List.map_append, List.sum_append]
  omega

/-- What starts on a line comes before what starts on a later one. -/
theorem Position.not_lt {source : List Char} {start column line column' line' : Nat}
    (position : Position source start column line) (position' : Position source start column' line') :
    ¬ line < line' := by
  intro before
  have first := position.one_le
  have bound : line - 1 < (lines source).length := by
    have last := position.le_length
    omega
  have upto : (((lines source).take (line - 1 + 1)).map (·.length + 1)).sum =
      (((lines source).take (line - 1)).map (·.length + 1)).sum + ((row source line).length + 1) := by
    rw [List.take_add_one, List.getElem?_eq_getElem bound, List.map_append, List.sum_append]
    simp [row, bound]
  have later := sum_take_le (lines source) (show line - 1 + 1 ≤ line' - 1 by omega)
  have start_eq := position.start_eq
  have start_eq' := position'.start_eq
  have column_le := position.column_le
  omega

theorem Position.unique {source : List Char} {start column line column' line' : Nat}
    (position : Position source start column line) (position' : Position source start column' line') :
    column = column' ∧ line = line' := by
  have same : line = line' :=
    Nat.le_antisymm (Nat.le_of_not_lt (position'.not_lt position)) (Nat.le_of_not_lt (position.not_lt position'))
  subst same
  have start_eq := position.start_eq
  have start_eq' := position'.start_eq
  exact ⟨by omega, rfl⟩

/-! ### Texts that are cut at a position -/

/-- A text cut at a position: the lines before, the line at hand in front of and behind the position,
and the rest of the text from the end of this line. -/
structure Cut (source : List Char) (start : Nat) (earlier : List (List Char))
    (left right rest : List Char) : Prop where
  source_eq : source = ended earlier ++ (left ++ (right ++ rest))
  start_eq : start = (ended earlier ++ left).length
  unbroken : ∀ l ∈ earlier, '\n' ∉ l
  left_open : '\n' ∉ left
  right_open : '\n' ∉ right
  rest_ends : rest = [] ∨ ∃ later, rest = '\n' :: later

theorem exists_cut {source : List Char} {start : Nat} (inside : start ≤ source.length) :
    ∃ earlier left right rest, Cut source start earlier left right rest := by
  obtain ⟨earlier, left, split, unbroken, left_open⟩ := exists_ended (source.take start)
  let behind := source.drop start
  refine ⟨earlier, left, behind.takeWhile (· ≠ '\n'), behind.dropWhile (· ≠ '\n'), ?_, ?_, unbroken,
    left_open, ?_, ?_⟩
  · rw [List.takeWhile_append_dropWhile, ← List.append_assoc, ← split, List.take_append_drop]
  · rw [← split, List.length_take, Nat.min_eq_left inside]
  · intro member
    simpa using List.mem_takeWhile_imp member
  · cases remaining : behind.dropWhile (· ≠ '\n') with
    | nil => exact .inl rfl
    | cons c later =>
      have stopped := List.head?_dropWhile_not (· ≠ '\n') behind
      rw [remaining] at stopped
      simp only [List.head?_cons] at stopped
      exact .inr ⟨later, by simpa using stopped⟩

namespace Cut

variable {source : List Char} {start : Nat} {earlier : List (List Char)}
  {left right rest : List Char}

theorem start_le (cut : Cut source start earlier left right rest) : start ≤ source.length := by
  have start_eq := cut.start_eq
  rw [cut.source_eq]
  simp only [List.length_append] at start_eq ⊢
  omega

theorem cutLength_eq (cut : Cut source start earlier left right rest) :
    cutLength source start = start := by
  have inside := cut.start_le
  rw [cutLength, if_pos (Int.natCast_nonneg start), Int.toNat_natCast]
  omega

theorem source_split (cut : Cut source start earlier left right rest) :
    source = (ended earlier ++ left) ++ (right ++ rest) := by
  rw [cut.source_eq, List.append_assoc]

theorem front_eq (cut : Cut source start earlier left right rest) :
    front source start = ended earlier ++ left := by
  rw [front, cut.cutLength_eq, cut.source_split, cut.start_eq, List.take_left]

theorem drop_eq (cut : Cut source start earlier left right rest) :
    source.drop start = right ++ rest := by
  rw [cut.source_split, cut.start_eq, List.drop_left]

theorem lineStart_eq (cut : Cut source start earlier left right rest) :
    lineStart source start = (ended earlier).length := by
  rw [lineStart, cut.front_eq, lastLineStart_ended_append earlier cut.left_open]

theorem column_eq (cut : Cut source start earlier left right rest) :
    column source start = left.length := by
  have start_eq := cut.start_eq
  rw [List.length_append] at start_eq
  rw [column, cut.lineStart_eq]
  omega

theorem lineNumber_eq (cut : Cut source start earlier left right rest) :
    lineNumber source start = earlier.length + 1 := by
  rw [lineNumber, cut.front_eq, List.count_append, count_ended cut.unbroken,
    List.count_eq_zero_of_not_mem cut.left_open, Nat.add_zero]

/-- The line ends where its second part does. -/
theorem lineEnd_eq (cut : Cut source start earlier left right rest) :
    lineEnd source start = start + right.length := by
  have inside : ∀ c ∈ right, decide (c ≠ '\n') = true := by
    intro c member
    have different : c ≠ '\n' := by
      rintro rfl
      exact cut.right_open member
    exact decide_eq_true different
  rw [lineEnd, back, cut.cutLength_eq, cut.drop_eq, List.takeWhile_append_of_pos inside]
  rcases cut.rest_ends with rfl | ⟨later, rfl⟩
  · simp
  · rw [List.takeWhile_cons_of_neg (by simp), List.append_nil]

theorem lines_eq (cut : Cut source start earlier left right rest) :
    ∃ later, lines source = earlier ++ (left ++ right) :: later := by
  have whole : '\n' ∉ left ++ right := by
    rw [List.mem_append, not_or]
    exact ⟨cut.left_open, cut.right_open⟩
  rw [cut.source_eq, lines_ended_append cut.unbroken, ← List.append_assoc]
  rcases cut.rest_ends with rfl | ⟨later, rfl⟩
  · exact ⟨[], by rw [List.append_nil, lines, List.splitOn_eq_singleton whole]⟩
  · exact ⟨lines later, by rw [lines, List.splitOn_append_cons_self_of_not_mem whole, ← lines]⟩

theorem row_eq (cut : Cut source start earlier left right rest) :
    row source (earlier.length + 1) = left ++ right := by
  obtain ⟨later, split⟩ := cut.lines_eq
  simp [row, split]

theorem position (cut : Cut source start earlier left right rest) :
    Position source start left.length (earlier.length + 1) := by
  obtain ⟨later, split⟩ := cut.lines_eq
  refine ⟨by omega, ?_, ?_, ?_⟩
  · rw [split, List.length_append, List.length_cons]
    omega
  · rw [cut.row_eq, List.length_append]
    omega
  · rw [split, Nat.add_sub_cancel, List.take_left, ← length_ended, cut.start_eq, List.length_append]
    omega

/-- The characters between the start and the end of the line. -/
theorem slice_eq (cut : Cut source start earlier left right rest) :
    (source.take (lineEnd source start)).drop (lineStart source start) = left ++ right := by
  have start_eq := cut.start_eq
  rw [cut.lineEnd_eq, cut.lineStart_eq, cut.source_eq, ← List.append_assoc left,
    ← List.append_assoc, start_eq]
  rw [List.take_left' (by simp only [List.length_append]; omega), List.drop_left]

end Cut

/-! ### Pointers -/

/-- The two rows of a pointer: the line with its number, and below it the carets. The bar is in the
same place on both. -/
def pointerRows (source : List Char) (column line carets : Nat) : List (List Char) :=
  let gutter := (toString line).toList ++ [' ']
  [gutter ++ '|' :: row source line,
    List.replicate gutter.length ' ' ++
      '|' :: (List.replicate column ' ' ++ List.replicate carets '^')]

theorem pointerRows_unbroken {source : List Char} {line : Nat} (unbroken : '\n' ∉ row source line)
    (column carets : Nat) : ∀ r ∈ pointerRows source column line carets, '\n' ∉ r := by
  have number : '\n' ∉ (toString line).toList := not_mem_toString (by decide) line
  intro r member
  simp only [pointerRows, List.mem_cons, List.not_mem_nil, or_false] at member
  rcases member with rfl | rfl
  · simp only [List.mem_append, List.mem_cons, List.not_mem_nil, number, unbroken]
    decide
  · simp

theorem toList_pointer (source : List Char) (start stop : Int) :
    (pointer source start stop).toList =
      let gutter := (toString (lineNumber source start)).toList ++ [' ']
      gutter ++ '|' :: (source.take (lineEnd source start)).drop (lineStart source start) ++
        '\n' :: (List.replicate gutter.length ' ' ++
          '|' :: (List.replicate (column source start).toNat ' ' ++
            List.replicate (max 1 (min stop (lineEnd source start) - start)).toNat '^')) := by
  have blank : " ".toList = [' '] := rfl
  have bar : "|".toList = ['|'] := rfl
  have ending : "\n".toList = ['\n'] := rfl
  unfold pointer
  dsimp only
  rw [← String.length_toList]
  simp only [String.toList_append, String.toList_ofList, blank, bar, ending]
  simp only [List.append_assoc, List.cons_append, List.nil_append]

theorem Cut.lines_pointer {source : List Char} {start : Nat} {earlier : List (List Char)}
    {left right rest : List Char} (cut : Cut source start earlier left right rest) (stop : Int) :
    lines (pointer source start stop).toList =
      pointerRows source left.length (earlier.length + 1)
        (max 1 (min (stop - start) right.length)).toNat := by
  have carets : max 1 (min stop ((start + right.length : Nat) : Int) - start) =
      max 1 (min (stop - start) right.length) := by omega
  have unbroken : '\n' ∉ row source (earlier.length + 1) := by
    rw [cut.row_eq, List.mem_append, not_or]
    exact ⟨cut.left_open, cut.right_open⟩
  have rows := pointerRows_unbroken unbroken left.length
    (max 1 (min (stop - start) right.length)).toNat
  rw [toList_pointer, cut.slice_eq, cut.column_eq, cut.lineNumber_eq, cut.lineEnd_eq, carets,
    Int.toNat_natCast]
  rw [pointerRows, List.forall_mem_cons, List.forall_mem_cons] at rows
  rw [cut.row_eq] at rows
  dsimp only at rows ⊢
  rw [lines, List.splitOn_append_cons_self_of_not_mem rows.1, List.splitOn_eq_singleton rows.2.1,
    pointerRows, cut.row_eq]

/-- What is behind a position on its line is what is behind it in the text. One character more is
taken only where the line has ended, and it is the end of the line. -/
theorem Cut.take_behind {source : List Char} {start : Nat} {earlier : List (List Char)}
    {left right rest : List Char} (cut : Cut source start earlier left right rest)
    (inside : start < source.length) {n : Nat} (few : n ≤ max 1 right.length) :
    (((left ++ right) ++ ['\n']).drop left.length).take n = (source.drop start).take n ∧
      (n ≤ right.length ∨ n = 1 ∧ right = [] ∧ source[start]? = some '\n') := by
  by_cases fits : n ≤ right.length
  · refine ⟨?_, .inl fits⟩
    rw [List.append_assoc, List.drop_left, cut.drop_eq, List.take_append_of_le_length fits,
      List.take_append_of_le_length fits]
  · obtain rfl : right = [] := List.eq_nil_of_length_eq_zero (by omega)
    obtain rfl : n = 1 := by
      rw [List.length_nil] at few fits
      omega
    have behind := cut.drop_eq
    rcases cut.rest_ends with rfl | ⟨later, rfl⟩
    · have past := List.drop_eq_nil_iff.mp behind
      omega
    · refine ⟨?_, .inr ⟨rfl, rfl, ?_⟩⟩
      · rw [behind]
        simp
      · rw [← List.head?_drop, behind]
        rfl

/-- A position inside the text is located at its place, and no other place is the one of this
position. The pointer to a span that starts there has exactly two rows, the line as a whole and the
carets below it. The carets are below the part of the span on this line, and there is at least one;
they end with the line, unless the position itself is the end of the line. -/
theorem pointTo_exact {source : List Char} {span : Span} {start : Nat}
    (starts : span.start.toInt = start) (inside : start < source.length) (log : List Event) :
    ∃ column line carets : Nat,
      locate source span.start log = .ok ((column : Int), line) log ∧
      (∀ column' line', Position source start column' line' ↔ column' = column ∧ line' = line) ∧
      (∃ text, pointTo source span log = .ok text log ∧
        lines text.toList = pointerRows source column line carets) ∧
      (carets : Int) = max 1 (min (span.stop.toInt - start) ((row source line).length - column)) ∧
      ((row source line ++ ['\n']).drop column).take carets = (source.drop start).take carets ∧
      (column + carets ≤ (row source line).length ∨
        carets = 1 ∧ column = (row source line).length ∧ source[start]? = some '\n') := by
  obtain ⟨earlier, left, right, rest, cut⟩ := exists_cut (Nat.le_of_lt inside)
  let carets := (max 1 (min (span.stop.toInt - start) right.length)).toNat
  have few : carets ≤ max 1 right.length := by omega
  have notPast : ¬ (source.length : Int) ≤ start := by omega
  obtain ⟨behind, fits⟩ := cut.take_behind inside few
  refine ⟨left.length, earlier.length + 1, carets, ?_, ?_, ⟨_, ?_, cut.lines_pointer _⟩, ?_, ?_, ?_⟩
  · unfold locate checkOffset
    rw [starts, if_neg notPast, cut.column_eq, cut.lineNumber_eq]
    rfl
  · intro column' line'
    constructor
    · exact fun place => place.unique cut.position
    · rintro ⟨rfl, rfl⟩
      exact cut.position
  · unfold pointTo checkOffset
    rw [starts, if_neg notPast]
    rfl
  · rw [cut.row_eq, List.length_append]
    omega
  · rw [cut.row_eq]
    exact behind
  · rw [cut.row_eq, List.length_append]
    rcases fits with fits | ⟨one, rfl, ending⟩
    · exact .inl (by omega)
    · exact .inr ⟨one, rfl, ending⟩

/-- A span over several lines that starts on the end of one. -/
theorem pointTo_exact_newline :
    let source := "ab\ncd ef\ng".toList
    let span := Span.ofInts 8 40
    source[8]? = some '\n' ∧ locate source span.start [] = .ok (5, 2) [] ∧
      ∃ text, pointTo source span [] = .ok text [] ∧
        lines text.toList = ["2 |cd ef".toList, "  |     ^".toList] := by
  intro source span
  have starts : span.start.toInt = (8 : Nat) := rfl
  have inside : 8 < source.length := by decide
  obtain ⟨column, line, carets, located, places, ⟨text, pointed, rows⟩, number, -⟩ :=
    pointTo_exact starts inside []
  obtain ⟨rfl, rfl⟩ := (places 5 2).mp ⟨by decide, by decide, by decide, by decide⟩
  have one : carets = 1 := by
    have width : (row source 2).length = 5 := by decide
    rw [width] at number
    omega
  subst one
  exact ⟨rfl, located, text, pointed, rows⟩

end Monotype.Text
