import Monotype.Proofs.Letters
import Monotype.Proofs.Spans

/-!
# Texts of patterns can be read

A pattern whose words are kept apart can be read off its text, spans left aside. A word stands alone
or, with a blank behind it, is the label of a constructor; what is in brackets is a tuple if a comma
follows the first pattern, and otherwise a constructor inside another one. Main theorem:
`Pattern.text_eq_iff_same`.
-/

namespace Monotype.Pattern

open Text (Halts)

/-! ### Texts -/

/-- Whether a character can stand in a word. -/
def wordChar (c : Char) : Bool := c ∉ [' ', ',', '(', ')']

def isWord (x : String) : Bool := x ≠ "" && x.toList.all wordChar

def isDigits (cs : List Char) : Bool := !cs.isEmpty && cs.all Char.isDigit

/-- Whether a text is a decimal number, with or without a minus sign. -/
def isNumeral (x : String) : Bool :=
  isDigits x.toList || (x.toList.head? == some '-' && isDigits x.toList.tail)

mutual

/-- Whether names and labels are words, no name can be taken for something else, and tuples have two
elements or more. -/
def legible : Pattern → Bool
  | .unit _ | .int .. | .wildcard _ => true
  | .name _ x => isWord x && x ≠ "_" && !isNumeral x
  | .constructor _ label arg => isWord label && arg.legible
  | .tuple _ ps => 2 ≤ ps.length && legibleAll ps
  | .expr _ => false

def legibleAll : List Pattern → Bool
  | [] => true
  | p :: ps => p.legible && legibleAll ps

end

/-- The text of an argument: a constructor is put in brackets. -/
def operand : Pattern → List Char → List Char
  | .constructor .., cs => '(' :: (cs ++ [')'])
  | _, cs => cs

/-- What follows the opening bracket of a tuple. -/
def closing : List (List Char) → List Char
  | [] => [')']
  | e :: es => e ++ Ty.moreElements es

mutual

def chars : Pattern → List Char
  | .unit _ => ['(', ')']
  | .int _ n => (toString n).toList
  | .wildcard _ => ['_']
  | .name _ x => x.toList
  | .constructor _ label arg => label.toList ++ ' ' :: operand arg arg.chars
  | .tuple _ ps => '(' :: closing (charsAll ps)
  | .expr _ => []

def charsAll : List Pattern → List (List Char)
  | [] => []
  | p :: ps => p.chars :: charsAll ps

end

theorem name_legible {span : Span} {x : String} (legible : (Pattern.name span x).legible = true) :
    isWord x = true ∧ x ≠ "_" ∧ isNumeral x = false := by
  simpa [Pattern.legible, and_assoc] using legible

theorem constructor_legible {span : Span} {label : String} {arg : Pattern}
    (legible : (Pattern.constructor span label arg).legible = true) :
    isWord label = true ∧ arg.legible = true := by
  simpa [Pattern.legible] using legible

theorem tuple_legible {span : Span} {ps : List Pattern}
    (legible : (Pattern.tuple span ps).legible = true) :
    ∃ p q rest, ps = p :: q :: rest ∧ legibleAll ps = true := by
  simp only [Pattern.legible, Bool.and_eq_true, decide_eq_true_eq] at legible
  match ps, legible with
  | p :: q :: rest, legible => exact ⟨p, q, rest, rfl, legible.2⟩

theorem cons_legible {p : Pattern} {ps : List Pattern} (legible : legibleAll (p :: ps) = true) :
    p.legible = true ∧ legibleAll ps = true := by
  simpa [legibleAll] using legible

/-! ### Where a pattern ends -/

/-- Whether a character behind a pattern would be part of it. -/
def goesOn (c : Char) : Bool := c ∉ [',', ')']

theorem halts_word {rest : List Char} (halts : Halts goesOn rest) : Halts wordChar rest := by
  intro c member
  have closed := halts c member
  simp only [goesOn, decide_eq_false_iff_not, not_not, List.mem_cons, List.not_mem_nil,
    or_false] at closed
  rcases closed with rfl | rfl <;> rfl

theorem not_halts_blank (rest : List Char) : ¬ Halts goesOn (' ' :: rest) := by
  intro halts
  cases halts ' ' rfl

theorem halts_moreElements (es : List (List Char)) (rest : List Char) :
    Halts goesOn (Ty.moreElements es ++ rest) := by
  cases es with
  | nil => exact Text.halts_cons rfl
  | cons e es => exact Text.halts_cons rfl

/-! ### How a pattern starts -/

theorem isWord_iff {x : String} :
    isWord x = true ↔ x.toList ≠ [] ∧ ∀ c ∈ x.toList, wordChar c = true := by
  simp [isWord]

/-- A text that starts with a word starts with no other character. -/
theorem word_ne_cons {x : String} (word : isWord x = true) {d : Char} (outside : wordChar d = false)
    (rest body : List Char) : x.toList ++ rest ≠ d :: body := by
  obtain ⟨nonempty, inside⟩ := isWord_iff.mp word
  obtain ⟨c, cs, start⟩ := List.exists_cons_of_ne_nil nonempty
  intro same
  rw [start, List.cons_append] at same
  rw [← (List.cons.inj same).1, inside c (by rw [start]; exact List.mem_cons_self)] at outside
  cases outside

theorem wordChar_of_isDigit {c : Char} (digit : c.isDigit = true) : wordChar c = true := by
  rw [wordChar, decide_eq_true_eq]
  intro member
  simp only [List.mem_cons, List.not_mem_nil, or_false] at member
  rcases member with rfl | rfl | rfl | rfl <;> cases digit

theorem isDigits_toString (n : Nat) : isDigits (toString n).toList = true := by
  have nonempty : (toString n).toList ≠ [] := by
    rw [Nat.toString_eq_ofList_toDigits, String.toList_ofList]
    exact Nat.toDigits_ne_nil
  rw [isDigits, Bool.and_eq_true, Bool.not_eq_true', List.isEmpty_eq_false_iff, List.all_eq_true]
  exact ⟨nonempty, fun c => Text.isDigit_of_mem_toString⟩

theorem isNumeral_toString (n : Int) : isNumeral (toString n) = true := by
  cases n with
  | ofNat m => exact Bool.or_eq_true_iff.mpr (.inl (isDigits_toString m))
  | negSucc m =>
    rw [isNumeral, Text.toList_negSucc, List.tail_cons, isDigits_toString]
    simp

theorem isWord_toString (n : Int) : isWord (toString n) = true := by
  have digits (m : Nat) : ∀ c ∈ (toString m).toList, wordChar c = true := fun c member =>
    wordChar_of_isDigit (Text.isDigit_of_mem_toString member)
  rw [isWord_iff]
  cases n with
  | ofNat m =>
    have number := isDigits_toString m
    refine ⟨?_, digits m⟩
    intro empty
    have same : (toString m).toList = [] := empty
    rw [same] at number
    cases number
  | negSucc m =>
    rw [Text.toList_negSucc, List.forall_mem_cons]
    exact ⟨List.cons_ne_nil _ _, rfl, digits (m + 1)⟩

/-! ### Patterns of one word -/

/-- The word that the pattern is. -/
def word? : Pattern → Option String
  | .int _ n => some (toString n)
  | .wildcard _ => some "_"
  | .name _ x => some x
  | _ => none

theorem chars_of_word {p : Pattern} {w : String} (single : p.word? = some w) :
    p.chars = w.toList := by
  cases p with
  | int _ n | name _ x | wildcard _ =>
    cases single
    rfl
  | _ => cases single

theorem isWord_of_word {p : Pattern} {w : String} (legible : p.legible = true)
    (single : p.word? = some w) : isWord w = true := by
  cases p with
  | int _ n =>
    cases single
    exact isWord_toString n
  | wildcard _ =>
    cases single
    decide
  | name _ x =>
    cases single
    exact (name_legible legible).1
  | _ => cases single

/-- The pattern that a word is. -/
def ofWord (w : String) : Pattern :=
  if w = "_" then .wildcard .origin
  else if isNumeral w then .int .origin (w.toInt?.getD 0)
  else .name .origin w

theorem bare_of_word {p : Pattern} {w : String} (legible : p.legible = true)
    (single : p.word? = some w) : p.bare = ofWord w := by
  cases p with
  | int _ n =>
    cases single
    have number := isNumeral_toString n
    have notWildcard : toString n ≠ "_" := by
      intro same
      rw [same] at number
      cases number
    rw [ofWord, if_neg notWildcard, if_pos number, Int.toString_eq_repr, Int.toInt?_repr]
    rfl
  | wildcard _ =>
    cases single
    rfl
  | name _ x =>
    cases single
    obtain ⟨-, notWildcard, notNumeral⟩ := name_legible legible
    rw [ofWord, if_neg notWildcard, notNumeral]
    rfl
  | _ => cases single

/-! ### Reading -/

/-- The pattern can be read off the front of a text, if it is known where a pattern ends. -/
def Reads (p : Pattern) : Prop :=
  ∀ (q : Pattern) (rest rest' : List Char), q.legible = true → Halts goesOn rest →
    Halts goesOn rest' → p.chars ++ rest = q.chars ++ rest' → p.bare = q.bare ∧ rest = rest'

theorem Reads.symm {p q : Pattern} (reads : Reads q) (legible : p.legible = true)
    {rest rest' : List Char} (halts : Halts goesOn rest) (halts' : Halts goesOn rest')
    (same : p.chars ++ rest = q.chars ++ rest') : p.bare = q.bare ∧ rest = rest' := by
  obtain ⟨equal, tail⟩ := reads p rest' rest legible halts' halts same.symm
  exact ⟨equal.symm, tail.symm⟩

theorem chars_constructor_append (span : Span) (label : String) (arg : Pattern) (rest : List Char) :
    (Pattern.constructor span label arg).chars ++ rest =
      label.toList ++ ' ' :: (operand arg arg.chars ++ rest) := by
  simp [chars]

theorem chars_tuple_append (span : Span) (p : Pattern) (ps : List Pattern) (rest : List Char) :
    (Pattern.tuple span (p :: ps)).chars ++ rest =
      '(' :: (p.chars ++ (Ty.moreElements (charsAll ps) ++ rest)) := by
  simp [chars, charsAll, closing]

theorem word_chars_ne_cons {p : Pattern} {w : String} (legible : p.legible = true)
    (single : p.word? = some w) {d : Char} (outside : wordChar d = false) (rest body : List Char) :
    p.chars ++ rest ≠ d :: body := by
  rw [chars_of_word single]
  exact word_ne_cons (isWord_of_word legible single) outside rest body

theorem constructor_chars_ne_cons {span : Span} {label : String} {arg : Pattern}
    (legible : (Pattern.constructor span label arg).legible = true) {d : Char}
    (outside : wordChar d = false) (rest body : List Char) :
    (Pattern.constructor span label arg).chars ++ rest ≠ d :: body := by
  rw [chars_constructor_append]
  exact word_ne_cons (constructor_legible legible).1 outside _ body

/-- No pattern starts with what closes a bracket. -/
theorem chars_ne_closed {p : Pattern} (legible : p.legible = true) (rest body : List Char) :
    p.chars ++ rest ≠ ')' :: body := by
  cases p with
  | unit _ =>
    intro closed
    cases (List.cons.inj closed).1
  | constructor span label arg => exact constructor_chars_ne_cons legible rfl _ _
  | tuple span ps =>
    intro closed
    cases (List.cons.inj closed).1
  | expr e => cases legible
  | int _ n | wildcard _ | name _ x => exact word_chars_ne_cons legible rfl rfl _ _

theorem reads_word {p : Pattern} {w : String} (legible : p.legible = true)
    (single : p.word? = some w) : Reads p := by
  have word := isWord_of_word legible single
  intro q rest rest' legible' halts halts' same
  cases q with
  | unit _ => exact absurd same (word_chars_ne_cons legible single rfl _ _)
  | constructor span label arg =>
    -- The blank behind the label would have to be what follows `p`.
    rw [chars_of_word single, chars_constructor_append] at same
    obtain ⟨-, rfl⟩ := Text.word_unique (isWord_iff.mp word).2
      (isWord_iff.mp (constructor_legible legible').1).2 (halts_word halts) (Text.halts_cons rfl) same
    exact absurd halts (not_halts_blank _)
  | tuple span ps => exact absurd same (word_chars_ne_cons legible single rfl _ _)
  | expr e => cases legible'
  | int _ n | wildcard _ | name _ x =>
    rw [chars_of_word single, chars_of_word rfl] at same
    obtain ⟨words, tail⟩ := Text.word_unique (isWord_iff.mp word).2
      (isWord_iff.mp (isWord_of_word legible' rfl)).2 (halts_word halts) (halts_word halts') same
    have words := String.toList_inj.mp words
    refine ⟨?_, tail⟩
    rw [bare_of_word legible single, bare_of_word legible' rfl, words]

theorem reads_unit (span : Span) : Reads (.unit span) := by
  intro q rest rest' legible' halts halts' same
  have same : '(' :: ')' :: rest = q.chars ++ rest' := same
  cases q with
  | unit _ => exact ⟨rfl, (List.cons.inj (List.cons.inj same).2).2⟩
  | constructor span label arg =>
    exact absurd same.symm (constructor_chars_ne_cons legible' rfl _ _)
  | tuple span ps =>
    obtain ⟨p, q, others, rfl, elements⟩ := tuple_legible legible'
    rw [chars_tuple_append] at same
    exact absurd (List.cons.inj same).2.symm (chars_ne_closed (cons_legible elements).1 _ _)
  | expr e => cases legible'
  | int _ n | wildcard _ | name _ x =>
    exact (reads_word legible' rfl).symm rfl halts halts' same

/-! ### Tuples -/

theorem moreElements_reads {ps : List Pattern} (reads : ∀ p ∈ ps, Reads p) {qs : List Pattern}
    {rest rest' : List Char} (legible : legibleAll qs = true)
    (same : Ty.moreElements (charsAll ps) ++ rest = Ty.moreElements (charsAll qs) ++ rest') :
    bareAll ps = bareAll qs ∧ rest = rest' := by
  induction ps generalizing qs with
  | nil =>
    cases qs with
    | nil => exact ⟨rfl, (List.cons.inj same).2⟩
    | cons q qs => cases (List.cons.inj same).1
  | cons p ps ih =>
    cases qs with
    | nil => cases (List.cons.inj same).1
    | cons q qs =>
      rw [List.forall_mem_cons] at reads
      simp only [charsAll, Ty.moreElements, List.cons_append, List.cons.injEq, true_and,
        List.append_assoc] at same
      obtain ⟨first, more⟩ := reads.1 q _ _ (cons_legible legible).1 (halts_moreElements _ _)
        (halts_moreElements _ _) same
      obtain ⟨others, tail⟩ := ih reads.2 (cons_legible legible).2 more
      exact ⟨by rw [bareAll, bareAll, first, others], tail⟩

theorem reads_tuple {span : Span} {ps : List Pattern}
    (legible : (Pattern.tuple span ps).legible = true) (reads : ∀ p ∈ ps, Reads p) :
    Reads (.tuple span ps) := by
  obtain ⟨p, p₂, others, rfl, elements⟩ := tuple_legible legible
  rw [List.forall_mem_cons] at reads
  intro q rest rest' legible' halts halts' same
  cases q with
  | unit span' => exact (reads_unit span').symm legible halts halts' same
  | constructor span label arg =>
    exact absurd same.symm (constructor_chars_ne_cons legible' rfl _ _)
  | tuple span qs =>
    obtain ⟨q, q₂, others', rfl, elements'⟩ := tuple_legible legible'
    rw [chars_tuple_append, chars_tuple_append] at same
    obtain ⟨first, more⟩ := reads.1 q _ _ (cons_legible elements').1 (halts_moreElements _ _)
      (halts_moreElements _ _) (List.cons.inj same).2
    obtain ⟨later, tail⟩ := moreElements_reads reads.2 (cons_legible elements').2 more
    exact ⟨congrArg (Pattern.tuple .origin) (congrArg₂ List.cons first later), tail⟩
  | expr e => cases legible'
  | int _ n | wildcard _ | name _ x =>
    exact (reads_word legible' rfl).symm legible halts halts' same

/-! ### Constructors -/

/-- The argument can be read off the front of a text, where it is in brackets if it has to be. -/
def ReadsOperand (p : Pattern) : Prop :=
  ∀ (q : Pattern) (rest rest' : List Char), q.legible = true → Halts goesOn rest →
    Halts goesOn rest' → operand p p.chars ++ rest = operand q q.chars ++ rest' →
      p.bare = q.bare ∧ rest = rest'

theorem operand_constructor_append (span : Span) (label : String) (arg : Pattern)
    (cs rest : List Char) :
    operand (.constructor span label arg) cs ++ rest = '(' :: (cs ++ ')' :: rest) := by
  simp [operand]

/-- A pattern in brackets is no tuple, as it is followed by a bracket and no comma. -/
theorem bracketed_ne_tuple {p e : Pattern} (ending : ∀ rest rest', Halts goesOn rest →
      Halts goesOn rest' → p.chars ++ rest = e.chars ++ rest' → rest = rest')
    (span : Span) (e₂ : Pattern) (es : List Pattern) (rest rest' : List Char) :
    '(' :: (p.chars ++ ')' :: rest) ≠ (Pattern.tuple span (e :: e₂ :: es)).chars ++ rest' := by
  intro same
  rw [chars_tuple_append] at same
  have after := ending _ _ (Text.halts_cons rfl) (halts_moreElements _ _) (List.cons.inj same).2
  cases (List.cons.inj after).1

theorem reads_constructor {span : Span} {label : String} {arg : Pattern}
    (legible : (Pattern.constructor span label arg).legible = true) (operand : ReadsOperand arg) :
    Reads (.constructor span label arg) := by
  have word := (isWord_iff.mp (constructor_legible legible).1).2
  intro q rest rest' legible' halts halts' same
  cases q with
  | unit _ => exact absurd same (constructor_chars_ne_cons legible rfl _ _)
  | constructor span' label' arg' =>
    rw [chars_constructor_append, chars_constructor_append] at same
    obtain ⟨labels, args⟩ := Text.word_unique word
      (isWord_iff.mp (constructor_legible legible').1).2 (Text.halts_cons rfl) (Text.halts_cons rfl)
      same
    obtain ⟨equal, tail⟩ := operand arg' _ _ (constructor_legible legible').2 halts halts'
      (List.cons.inj args).2
    have labels := String.toList_inj.mp labels
    exact ⟨congrArg₂ (Pattern.constructor .origin) labels equal, tail⟩
  | tuple span' qs => exact absurd same (constructor_chars_ne_cons legible rfl _ _)
  | expr e => cases legible'
  | int _ n | wildcard _ | name _ x =>
    exact (reads_word legible' rfl).symm legible halts halts' same

theorem readsOperand_constructor {span : Span} {label : String} {arg : Pattern}
    (legible : (Pattern.constructor span label arg).legible = true)
    (reads : Reads (.constructor span label arg)) :
    ReadsOperand (.constructor span label arg) := by
  intro q rest rest' legible' halts halts' same
  rw [operand_constructor_append] at same
  cases q with
  | unit _ => exact absurd (List.cons.inj same).2 (chars_ne_closed legible _ _)
  | constructor span' label' arg' =>
    rw [operand_constructor_append] at same
    obtain ⟨equal, closed⟩ := reads _ _ _ legible' (Text.halts_cons rfl) (Text.halts_cons rfl)
      (List.cons.inj same).2
    exact ⟨equal, (List.cons.inj closed).2⟩
  | tuple span' qs =>
    obtain ⟨q, q₂, others, rfl, elements⟩ := tuple_legible legible'
    refine absurd same (bracketed_ne_tuple ?_ span' q₂ others rest rest')
    intro rest rest' halts halts' same
    exact (reads q _ _ (cons_legible elements).1 halts halts' same).2
  | expr e => cases legible'
  | int _ n | wildcard _ | name _ x =>
    exact absurd same.symm (word_chars_ne_cons legible' rfl rfl _ _)

/-- An argument without brackets is read as it is, if it is no constructor in brackets. -/
theorem readsOperand_of_reads {p : Pattern} (plain : operand p p.chars = p.chars) (reads : Reads p)
    (unbracketed : ∀ q : Pattern, q.legible = true → ∀ rest rest',
      p.chars ++ rest ≠ '(' :: (q.chars ++ ')' :: rest')) : ReadsOperand p := by
  intro q rest rest' legible' halts halts' same
  rw [plain] at same
  cases q with
  | constructor span label arg =>
    rw [operand_constructor_append] at same
    exact absurd same (unbracketed _ legible' _ _)
  | unit _ | tuple _ qs | int _ n | wildcard _ | name _ x =>
    exact reads _ _ _ legible' halts halts' same
  | expr e => cases legible'

theorem readsOperand_word {p : Pattern} {w : String} (legible : p.legible = true)
    (single : p.word? = some w) (plain : operand p p.chars = p.chars) : ReadsOperand p :=
  readsOperand_of_reads plain (reads_word legible single) fun _ _ _ _ =>
    word_chars_ne_cons legible single rfl _ _

theorem readsOperand_tuple {span : Span} {ps : List Pattern}
    (legible : (Pattern.tuple span ps).legible = true) (reads : ∀ p ∈ ps, Reads p) :
    ReadsOperand (.tuple span ps) := by
  refine readsOperand_of_reads rfl (reads_tuple legible reads) fun q legible' rest rest' same => ?_
  obtain ⟨p, p₂, others, rfl, -⟩ := tuple_legible legible
  refine bracketed_ne_tuple ?_ span p₂ others rest' rest same.symm
  intro rest rest' halts halts' same
  exact ((reads p List.mem_cons_self).symm legible' halts halts' same).2

/-! ### All patterns -/

mutual

/-- Every pattern is read off the front of a text in one way only, also as an argument, by induction on
the pattern. -/
theorem reads : ∀ p : Pattern, p.legible = true → Reads p ∧ ReadsOperand p
  | .unit span, _ => ⟨reads_unit span, readsOperand_of_reads rfl (reads_unit span)
      fun q legible' _ _ same => chars_ne_closed legible' _ _ (List.cons.inj same).2.symm⟩
  | .int .., legible => ⟨reads_word legible rfl, readsOperand_word legible rfl rfl⟩
  | .wildcard _, legible => ⟨reads_word legible rfl, readsOperand_word legible rfl rfl⟩
  | .name .., legible => ⟨reads_word legible rfl, readsOperand_word legible rfl rfl⟩
  | .constructor _ _ arg, legible => by
    have constructor := reads_constructor legible (reads arg (constructor_legible legible).2).2
    exact ⟨constructor, readsOperand_constructor legible constructor⟩
  | .tuple _ ps, legible => by
    obtain ⟨-, -, -, -, elements⟩ := tuple_legible legible
    exact ⟨reads_tuple legible (readsAll ps elements),
      readsOperand_tuple legible (readsAll ps elements)⟩
  | .expr _, legible => by cases legible

theorem readsAll : ∀ ps : List Pattern, legibleAll ps = true → ∀ p ∈ ps, Reads p
  | [], _ => fun _ member => absurd member List.not_mem_nil
  | p :: ps, legible => List.forall_mem_cons.mpr
      ⟨(reads p (cons_legible legible).1).1, readsAll ps (cons_legible legible).2⟩

end

theorem chars_injective {p q : Pattern} (legible : p.legible = true) (legible' : q.legible = true)
    (same : p.chars = q.chars) : p.bare = q.bare := by
  refine ((reads p legible).1 q [] [] legible' (Text.halts_nil _) (Text.halts_nil _) ?_).1
  rw [same]

/-! ### The texts that are shown -/

theorem toList_tuple (text : String) (texts : List String) :
    ("(" ++ ", ".intercalate (text :: texts) ++ ")").toList =
      '(' :: closing ((text :: texts).map String.toList) := by
  have elements := Ty.intercalate_elements text.toList (texts.map String.toList)
  rw [String.toList_append, String.toList_append, String.toList_intercalate]
  exact congrArg ('(' :: ·) elements

mutual

theorem text_chars : ∀ p : Pattern, p.legible = true →
    ∃ text, p.text = .ok text ∧ text.toList = p.chars
  | .unit _, _ => ⟨_, rfl, rfl⟩
  | .int .., _ => ⟨_, rfl, rfl⟩
  | .wildcard _, _ => ⟨_, rfl, rfl⟩
  | .name .., _ => ⟨_, rfl, rfl⟩
  | .constructor _ label arg, legible => by
    obtain ⟨inner, printed, same⟩ := text_chars arg (constructor_legible legible).2
    rw [Pattern.text, printed]
    refine ⟨_, rfl, ?_⟩
    rw [chars, ← same]
    cases arg with
    | constructor _ _ _ => simp [operand]
    | _ => simp [operand]
  | .tuple _ ps, legible => by
    obtain ⟨p, q, others, rfl, elements⟩ := tuple_legible legible
    obtain ⟨texts, printed, same⟩ := textAll_chars _ elements
    rw [Pattern.text, printed]
    refine ⟨_, rfl, ?_⟩
    cases texts with
    | nil => cases same
    | cons text texts => rw [toList_tuple, same, chars]
  | .expr _, legible => by cases legible

theorem textAll_chars : ∀ ps : List Pattern, legibleAll ps = true →
    ∃ texts, textAll ps = .ok texts ∧ texts.map String.toList = charsAll ps
  | [], _ => ⟨_, rfl, rfl⟩
  | p :: ps, legible => by
    obtain ⟨first, printed, same⟩ := text_chars p (cons_legible legible).1
    obtain ⟨others, printedAll, sameAll⟩ := textAll_chars ps (cons_legible legible).2
    rw [Pattern.textAll, printed, printedAll]
    exact ⟨_, rfl, by rw [List.map_cons, same, sameAll, charsAll]⟩

end

/-- The text of a pattern whose words are kept apart says which pattern it is, spans left aside. -/
theorem text_eq_iff_same {p q : Pattern} (legible : p.legible = true) (legible' : q.legible = true) :
    ∃ text text', p.text = .ok text ∧ q.text = .ok text' ∧ (text = text' ↔ p.same q = true) := by
  obtain ⟨text, printed, chars⟩ := text_chars p legible
  obtain ⟨text', printed', chars'⟩ := text_chars q legible'
  refine ⟨text, text', printed, printed', fun same => ?_, fun same => ?_⟩
  · rw [same_iff]
    apply chars_injective legible legible'
    rw [← chars, ← chars', same]
  · have trees := (same_iff p q).mp same
    have texts : p.text = q.text := by rw [← text_bare, trees, text_bare]
    rw [printed, printed'] at texts
    exact Except.ok.inj texts

/-- Constructors as an argument of a constructor, inside a tuple and alone, at two places. -/
theorem text_eq_iff_same_nested :
    let pattern (span : Span) := Pattern.constructor span "Cons" (.tuple span
      [.constructor span "Some" (.constructor span "5" (.name span "x-1")), .int span (-12), .unit span])
    (pattern .origin).legible = true ∧ (pattern .origin).same (pattern (.ofInts 3 9)) = true ∧
      ∃ text, (pattern .origin).text = .ok text ∧ (pattern (.ofInts 3 9)).text = .ok text := by
  intro pattern
  have legible (span : Span) : (pattern span).legible = true := by
    rfl
  have same : (pattern .origin).same (pattern (.ofInts 3 9)) = true := by decide
  obtain ⟨text, text', printed, printed', equal⟩ :=
    text_eq_iff_same (legible .origin) (legible (.ofInts 3 9))
  rw [← equal.mpr same] at printed'
  exact ⟨legible .origin, same, text, printed, printed'⟩

end Monotype.Pattern
