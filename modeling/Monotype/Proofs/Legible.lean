import Monotype.Proofs.Words
import Monotype.Ty.Names

/-!
# Texts of types can be read

A type without variables whose words are kept apart can be read off its text: `Ty.chars_injective`.
The text of a type is taken up to where it ends, so that the types it is made of are read one after
the other (`Ty.Reads`).
-/

namespace Monotype.Ty

/-! ### Texts -/

/-- Whether a character can stand in a word. The others are what the text of a type is built with. -/
def wordChar (c : Char) : Bool := c ∉ ['(', ')', '[', ']', ',', ' ']

/-- What follows an element of a tuple, up to the bracket, when there is more than one. -/
def moreElements : List (List Char) → List Char
  | [] => [')']
  | e :: es => ',' :: ' ' :: (e ++ moreElements es)

/-- What follows the first element of a tuple, up to the bracket. -/
def afterFirst : List (List Char) → List Char
  | [] => [',', ')']
  | e :: es => moreElements (e :: es)

/-- What follows the opening bracket of a tuple. -/
def closeTuple : List (List Char) → List Char
  | [] => [')']
  | e :: es => e ++ afterFirst es

mutual

/-- The text of a type without variables. -/
def chars : Bool → Ty → List Char
  | _, .name n => n.toList
  | _, .var _ => []
  | false, .fn p r => p.chars true ++ ' ' :: '-' :: '>' :: ' ' :: r.chars false
  | true, .fn p r => '(' :: (p.chars true ++ ' ' :: '-' :: '>' :: ' ' :: r.chars false) ++ [')']
  | _, .tuple es => '(' :: closeTuple (charsAll es)
  | _, .sum l p => l.toList ++ '[' :: (p.chars false ++ [']'])

def charsAll : List Ty → List (List Char)
  | [] => []
  | t :: ts => t.chars false :: charsAll ts

end

mutual

/-- Whether there are no variables, and nothing but words for names and labels. -/
def legible : Ty → Bool
  | .name n => n ≠ "" && n.toList.all wordChar
  | .var _ => false
  | .fn p r => p.legible && r.legible
  | .tuple es => legibleAll es
  | .sum l p => l.toList.all wordChar && p.legible

def legibleAll : List Ty → Bool
  | [] => true
  | t :: ts => t.legible && legibleAll ts

end

theorem chars_name (bracket : Bool) (n : String) : (Ty.name n).chars bracket = n.toList := by
  rw [chars]

theorem chars_sum_append (bracket : Bool) (l : String) (p : Ty) (rest : List Char) :
    (Ty.sum l p).chars bracket ++ rest = l.toList ++ '[' :: (p.chars false ++ ']' :: rest) := by
  simp [chars]

theorem chars_tuple_append (bracket : Bool) (es : List Ty) (rest : List Char) :
    (Ty.tuple es).chars bracket ++ rest = '(' :: (closeTuple (charsAll es) ++ rest) := by
  rw [chars, List.cons_append]

theorem chars_arrow_append (p r : Ty) (rest : List Char) :
    (Ty.fn p r).chars false ++ rest =
      p.chars true ++ ' ' :: '-' :: '>' :: ' ' :: (r.chars false ++ rest) := by
  simp [chars]

theorem chars_fn_append (p r : Ty) (rest : List Char) :
    (Ty.fn p r).chars true ++ rest = '(' :: ((Ty.fn p r).chars false ++ ')' :: rest) := by
  simp [chars]

/-! ### Where a text ends -/

/-- What may follow the text of a type: the end of an element, of a bracket or of a payload, and an
arrow if the text is in brackets where it has to be. -/
def Ends (bracket : Bool) (rest : List Char) : Prop :=
  ∀ c ∈ rest.head?, c ∈ [',', ')', ']'] ∨ bracket = true ∧ c = ' '

theorem ends_nil (bracket : Bool) : Ends bracket [] := by
  intro c member
  cases member

theorem ends_cons {bracket : Bool} {c : Char} {rest : List Char} (closing : c ∈ [',', ')', ']']) :
    Ends bracket (c :: rest) := by
  intro d member
  cases member
  exact .inl closing

theorem ends_arrow (rest : List Char) : Ends true (' ' :: rest) := by
  intro c member
  cases member
  exact .inr ⟨rfl, rfl⟩

theorem not_ends_arrow (rest : List Char) : ¬ Ends false (' ' :: rest) := by
  intro ends
  simpa using ends ' ' rfl

theorem not_ends_bracket (bracket : Bool) (rest : List Char) : ¬ Ends bracket ('[' :: rest) := by
  intro ends
  simpa using ends '[' rfl

theorem Ends.operand {rest : List Char} (ends : Ends false rest) : Ends true rest := by
  intro c member
  rcases ends c member with closing | ⟨impossible, -⟩
  · exact .inl closing
  · cases impossible

theorem Ends.halts {bracket : Bool} {rest : List Char} (ends : Ends bracket rest) :
    Text.Halts wordChar rest := by
  intro c member
  rcases ends c member with closing | ⟨-, rfl⟩
  · simp only [List.mem_cons, List.not_mem_nil, or_false] at closing
    rcases closing with rfl | rfl | rfl <;> rfl
  · rfl

theorem ends_moreElements (bracket : Bool) (es : List (List Char)) (rest : List Char) :
    Ends bracket (moreElements es ++ rest) := by
  cases es with
  | nil => exact ends_cons (by decide)
  | cons e es => exact ends_cons (by decide)

theorem afterFirst_eq (es : List (List Char)) : ∃ cs, afterFirst es = ',' :: cs := by
  cases es with
  | nil => exact ⟨_, rfl⟩
  | cons e es => exact ⟨_, rfl⟩

/-! ### How a text starts -/

/-- A text that starts with a word, or with the empty word and no opening bracket. -/
theorem word_ne_bracket {word rest body : List Char} (inside : ∀ c ∈ word, wordChar c = true)
    (halts : Text.Halts wordChar rest) (start : word ≠ [] ∨ rest.head? ≠ some '(') :
    word ++ rest ≠ '(' :: body := by
  intro same
  have none : ∀ c ∈ ([] : List Char), wordChar c = true := fun c member => by cases member
  have same : word ++ rest = [] ++ '(' :: body := same
  obtain ⟨rfl, rfl⟩ := Text.word_unique inside none halts (Text.halts_cons rfl) same
  rcases start with nonempty | other
  · exact nonempty rfl
  · exact other rfl

theorem name_legible {n : String} (legible : (Ty.name n).legible = true) :
    n.toList ≠ [] ∧ ∀ c ∈ n.toList, wordChar c = true := by
  simpa [Ty.legible] using legible

theorem sum_legible {l : String} {p : Ty} (legible : (Ty.sum l p).legible = true) :
    (∀ c ∈ l.toList, wordChar c = true) ∧ p.legible = true := by
  simpa [Ty.legible] using legible

theorem fn_legible {p r : Ty} (legible : (Ty.fn p r).legible = true) :
    p.legible = true ∧ r.legible = true := by
  simpa [Ty.legible] using legible

/-- No text starts with what closes a bracket. -/
theorem chars_start : ∀ (t : Ty) (bracket : Bool), t.legible = true →
    ∃ c cs, t.chars bracket = c :: cs ∧ c ≠ ')'
  | .name n, bracket, legible => by
    obtain ⟨nonempty, inside⟩ := name_legible legible
    obtain ⟨c, cs, same⟩ := List.exists_cons_of_ne_nil nonempty
    refine ⟨c, cs, by rw [chars, same], ?_⟩
    rintro rfl
    have impossible := inside ')' (by rw [same]; exact List.mem_cons_self)
    cases impossible
  | .var v, bracket, legible => by cases legible
  | .fn p r, true, legible => ⟨'(', _, rfl, by decide⟩
  | .fn p r, false, legible => by
    obtain ⟨c, cs, same, different⟩ := chars_start p true (fn_legible legible).1
    exact ⟨c, _, by rw [chars, same, List.cons_append], different⟩
  | .tuple es, bracket, legible => by
    rw [chars]
    exact ⟨'(', _, rfl, by decide⟩
  | .sum l p, bracket, legible => by
    rw [chars]
    cases label : l.toList with
    | nil => exact ⟨'[', _, rfl, by decide⟩
    | cons c cs =>
      refine ⟨c, _, rfl, ?_⟩
      rintro rfl
      have impossible := (sum_legible legible).1 ')' (by rw [label]; exact List.mem_cons_self)
      cases impossible

/-! ### Reading -/

/-- The type can be read off the front of a text, if it is known where a type ends. -/
def Reads (bracket : Bool) (t : Ty) : Prop :=
  ∀ u rest rest', u.legible = true → Ends bracket rest → Ends bracket rest' →
    t.chars bracket ++ rest = u.chars bracket ++ rest' → t = u ∧ rest = rest'

theorem reads_name {n : String} (legible : (Ty.name n).legible = true) : Reads true (.name n) := by
  obtain ⟨nonempty, inside⟩ := name_legible legible
  intro u rest rest' legible' ends ends' same
  rw [chars_name] at same
  cases u with
  | name m =>
    rw [chars_name] at same
    obtain ⟨word, tail⟩ := Text.word_unique inside (name_legible legible').2 ends.halts ends'.halts same
    exact ⟨by rw [String.toList_inj.mp word], tail⟩
  | var v => cases legible'
  | fn q s =>
    rw [chars_fn_append] at same
    exact absurd same (word_ne_bracket inside ends.halts (.inl nonempty))
  | tuple fs =>
    rw [chars_tuple_append] at same
    exact absurd same (word_ne_bracket inside ends.halts (.inl nonempty))
  | sum l q =>
    rw [chars_sum_append] at same
    obtain ⟨-, rfl⟩ := Text.word_unique inside (sum_legible legible').1 ends.halts
      (Text.halts_cons rfl) same
    exact absurd ends (not_ends_bracket true _)

theorem reads_sum {l : String} {p : Ty} (legible : (Ty.sum l p).legible = true)
    (payload : Reads false p) : Reads true (.sum l p) := by
  have inside := (sum_legible legible).1
  intro u rest rest' legible' ends ends' same
  rw [chars_sum_append] at same
  cases u with
  | name m =>
    rw [chars_name] at same
    obtain ⟨-, rfl⟩ := Text.word_unique inside (name_legible legible').2 (Text.halts_cons rfl)
      ends'.halts same
    exact absurd ends' (not_ends_bracket true _)
  | var v => cases legible'
  | fn q s =>
    rw [chars_fn_append] at same
    exact absurd same (word_ne_bracket inside (Text.halts_cons rfl) (.inr (by simp)))
  | tuple fs =>
    rw [chars_tuple_append] at same
    exact absurd same (word_ne_bracket inside (Text.halts_cons rfl) (.inr (by simp)))
  | sum k q =>
    rw [chars_sum_append] at same
    obtain ⟨label, inner⟩ := Text.word_unique inside (sum_legible legible').1 (Text.halts_cons rfl)
      (Text.halts_cons rfl) same
    obtain ⟨rfl, closing⟩ := payload q _ _ (sum_legible legible').2 (ends_cons (by decide))
      (ends_cons (by decide)) (List.cons.inj inner).2
    exact ⟨by rw [String.toList_inj.mp label], (List.cons.inj closing).2⟩

/-- What is no function is read in the same way whether or not functions are in brackets. -/
theorem Reads.unbracketed {t : Ty} (operand : Reads true t) (same : t.chars false = t.chars true) :
    Reads false t := by
  intro u rest rest' legible ends ends' equal
  rw [same] at equal
  cases u with
  | fn q s =>
    -- The arrow would have to be what follows `t`.
    rw [chars_arrow_append] at equal
    obtain ⟨-, rfl⟩ := operand q _ _ (fn_legible legible).1 ends.operand (ends_arrow _) equal
    exact absurd ends (not_ends_arrow _)
  | name m => exact operand _ _ _ legible ends.operand ends'.operand (by rwa [chars] at equal ⊢)
  | var v => cases legible
  | tuple fs => exact operand _ _ _ legible ends.operand ends'.operand (by rwa [chars] at equal ⊢)
  | sum k q => exact operand _ _ _ legible ends.operand ends'.operand (by rwa [chars] at equal ⊢)

theorem reads_arrow {p r : Ty} (param : Reads true p) (result : Reads false r) :
    Reads false (.fn p r) := by
  intro u rest rest' legible ends ends' same
  rw [chars_arrow_append] at same
  have atom (operand : u.chars false = u.chars true) : Ty.fn p r = u ∧ rest = rest' := by
    rw [operand] at same
    obtain ⟨-, rfl⟩ := param u _ _ legible (ends_arrow _) ends'.operand same
    exact absurd ends' (not_ends_arrow _)
  cases u with
  | fn q s =>
    rw [chars_arrow_append] at same
    obtain ⟨rfl, arrow⟩ := param q _ _ (fn_legible legible).1 (ends_arrow _) (ends_arrow _) same
    simp only [List.cons.injEq, true_and] at arrow
    obtain ⟨rfl, tail⟩ := result s _ _ (fn_legible legible).2 ends ends' arrow
    exact ⟨rfl, tail⟩
  | name m => exact atom (by rw [chars, chars])
  | var v => cases legible
  | tuple fs => exact atom (by rw [chars, chars])
  | sum k q => exact atom (by rw [chars, chars])

/-! ### Tuples -/

theorem cons_legible {t : Ty} {ts : List Ty} (legible : legibleAll (t :: ts) = true) :
    t.legible = true ∧ legibleAll ts = true := by
  simpa [legibleAll] using legible

theorem legible_of_mem {ts : List Ty} (legible : legibleAll ts = true) {t : Ty} (member : t ∈ ts) :
    t.legible = true := by
  induction ts with
  | nil => cases member
  | cons u ts ih =>
    rcases List.mem_cons.mp member with rfl | later
    · exact (cons_legible legible).1
    · exact ih (cons_legible legible).2 later

theorem moreElements_reads {es : List Ty} (reads : ∀ e ∈ es, Reads false e) {fs : List Ty}
    {rest rest' : List Char} (legible : legibleAll fs = true)
    (same : moreElements (charsAll es) ++ rest = moreElements (charsAll fs) ++ rest') :
    es = fs ∧ rest = rest' := by
  induction es generalizing fs with
  | nil =>
    cases fs with
    | nil => exact ⟨rfl, (List.cons.inj same).2⟩
    | cons f fs => cases (List.cons.inj same).1
  | cons e es ih =>
    cases fs with
    | nil => cases (List.cons.inj same).1
    | cons f fs =>
      rw [List.forall_mem_cons] at reads
      simp only [charsAll, moreElements, List.cons_append, List.cons.injEq, true_and,
        List.append_assoc] at same
      obtain ⟨rfl, more⟩ := reads.1 f _ _ (cons_legible legible).1 (ends_moreElements false _ _)
        (ends_moreElements false _ _) same
      obtain ⟨rfl, tail⟩ := ih reads.2 (cons_legible legible).2 more
      exact ⟨rfl, tail⟩

theorem afterFirst_reads {es : List Ty} (reads : ∀ e ∈ es, Reads false e) {fs : List Ty}
    {rest rest' : List Char} (legible : legibleAll fs = true)
    (same : afterFirst (charsAll es) ++ rest = afterFirst (charsAll fs) ++ rest') :
    es = fs ∧ rest = rest' := by
  cases es with
  | nil =>
    cases fs with
    | nil =>
      simp only [charsAll, afterFirst, List.cons_append, List.nil_append, List.cons.injEq,
        true_and] at same
      exact ⟨rfl, same⟩
    -- A single element is followed by a comma and a bracket, and no blank.
    | cons f fs => cases (List.cons.inj (List.cons.inj same).2).1
  | cons e es =>
    cases fs with
    | nil => cases (List.cons.inj (List.cons.inj same).2).1
    | cons f fs => exact moreElements_reads reads legible same

theorem ends_afterFirst (es : List (List Char)) (rest : List Char) :
    Ends false (afterFirst es ++ rest) := by
  obtain ⟨cs, same⟩ := afterFirst_eq es
  rw [same]
  exact ends_cons (by decide)

theorem closeTuple_reads {es : List Ty} (reads : ∀ e ∈ es, Reads false e)
    (legible : legibleAll es = true) {fs : List Ty} {rest rest' : List Char}
    (legible' : legibleAll fs = true)
    (same : closeTuple (charsAll es) ++ rest = closeTuple (charsAll fs) ++ rest') :
    es = fs ∧ rest = rest' := by
  cases es with
  | nil =>
    cases fs with
    | nil => exact ⟨rfl, (List.cons.inj same).2⟩
    | cons f fs =>
      obtain ⟨c, cs, start, different⟩ := chars_start f false (cons_legible legible').1
      rw [charsAll, charsAll, closeTuple, closeTuple, start] at same
      exact absurd (List.cons.inj same).1.symm different
  | cons e es =>
    cases fs with
    | nil =>
      obtain ⟨c, cs, start, different⟩ := chars_start e false (cons_legible legible).1
      rw [charsAll, charsAll, closeTuple, closeTuple, start] at same
      exact absurd (List.cons.inj same).1 different
    | cons f fs =>
      rw [List.forall_mem_cons] at reads
      rw [charsAll, charsAll, closeTuple, closeTuple, List.append_assoc, List.append_assoc] at same
      obtain ⟨rfl, after⟩ := reads.1 f _ _ (cons_legible legible').1 (ends_afterFirst _ _)
        (ends_afterFirst _ _) same
      obtain ⟨rfl, tail⟩ := afterFirst_reads reads.2 (cons_legible legible').2 after
      exact ⟨rfl, tail⟩

/-- A type in brackets is no tuple, as it is followed by a bracket and no comma. -/
theorem bracketed_ne_tuple {t : Ty} (legible : t.legible = true) {fs : List Ty}
    (ending : ∀ f ∈ fs, ∀ rest rest', Ends false rest → Ends false rest' →
      t.chars false ++ rest = f.chars false ++ rest' → rest = rest') (rest rest' : List Char) :
    t.chars false ++ ')' :: rest ≠ closeTuple (charsAll fs) ++ rest' := by
  intro same
  cases fs with
  | nil =>
    obtain ⟨c, cs, start, different⟩ := chars_start t false legible
    rw [charsAll, closeTuple, start] at same
    exact absurd (List.cons.inj same).1 different
  | cons f fs =>
    rw [charsAll, closeTuple, List.append_assoc] at same
    have after := ending f List.mem_cons_self _ _ (ends_cons (by decide)) (ends_afterFirst _ _) same
    obtain ⟨cs, comma⟩ := afterFirst_eq (charsAll fs)
    rw [comma] at after
    cases (List.cons.inj after).1

theorem reads_tuple {es : List Ty} (legible : legibleAll es = true)
    (reads : ∀ e ∈ es, Reads false e) : Reads true (.tuple es) := by
  intro u rest rest' legible' ends ends' same
  rw [chars_tuple_append] at same
  cases u with
  | name m =>
    obtain ⟨nonempty, inside⟩ := name_legible legible'
    rw [chars_name] at same
    exact absurd same.symm (word_ne_bracket inside ends'.halts (.inl nonempty))
  | var v => cases legible'
  | fn q s =>
    rw [chars_fn_append] at same
    refine absurd (List.cons.inj same).2.symm (bracketed_ne_tuple legible' ?_ _ _)
    intro e member rest rest' ends ends' same
    exact (reads e member _ _ _ legible' ends' ends same.symm).2.symm
  | tuple fs =>
    rw [chars_tuple_append] at same
    obtain ⟨rfl, tail⟩ := closeTuple_reads reads legible legible' (List.cons.inj same).2
    exact ⟨rfl, tail⟩
  | sum k q =>
    rw [chars_sum_append] at same
    exact absurd same.symm (word_ne_bracket (sum_legible legible').1 (Text.halts_cons rfl)
      (.inr (by simp)))

theorem reads_fn {p r : Ty} (legible : (Ty.fn p r).legible = true) (arrow : Reads false (.fn p r)) :
    Reads true (.fn p r) := by
  intro u rest rest' legible' ends ends' same
  rw [chars_fn_append] at same
  cases u with
  | name m =>
    obtain ⟨nonempty, inside⟩ := name_legible legible'
    rw [chars_name] at same
    exact absurd same.symm (word_ne_bracket inside ends'.halts (.inl nonempty))
  | var v => cases legible'
  | fn q s =>
    rw [chars_fn_append] at same
    obtain ⟨equal, closing⟩ := arrow _ _ _ legible' (ends_cons (by decide)) (ends_cons (by decide))
      (List.cons.inj same).2
    exact ⟨equal, (List.cons.inj closing).2⟩
  | tuple fs =>
    rw [chars_tuple_append] at same
    refine absurd (List.cons.inj same).2 (bracketed_ne_tuple legible ?_ _ _)
    intro f member rest rest' ends ends' same
    exact (arrow f _ _ (legible_of_mem legible' member) ends ends' same).2
  | sum k q =>
    rw [chars_sum_append] at same
    exact absurd same.symm (word_ne_bracket (sum_legible legible').1 (Text.halts_cons rfl)
      (.inr (by simp)))

/-! ### All types -/

mutual

/-- Every type is read off the front of a text in one way only, by induction on the type. -/
theorem reads : ∀ (t : Ty) (bracket : Bool), t.legible = true → Reads bracket t
  | .name _, true, legible => reads_name legible
  | .name _, false, legible => (reads_name legible).unbracketed (by rw [chars, chars])
  | .var _, _, legible => by cases legible
  | .fn p r, false, legible =>
    reads_arrow (reads p true (fn_legible legible).1) (reads r false (fn_legible legible).2)
  | .fn p r, true, legible =>
    reads_fn legible
      (reads_arrow (reads p true (fn_legible legible).1) (reads r false (fn_legible legible).2))
  | .tuple es, true, legible => reads_tuple legible (readsAll es legible)
  | .tuple es, false, legible =>
    (reads_tuple legible (readsAll es legible)).unbracketed (by rw [chars, chars])
  | .sum _ p, true, legible => reads_sum legible (reads p false (sum_legible legible).2)
  | .sum _ p, false, legible =>
    (reads_sum legible (reads p false (sum_legible legible).2)).unbracketed (by rw [chars, chars])

theorem readsAll : ∀ ts : List Ty, legibleAll ts = true → ∀ t ∈ ts, Reads false t
  | [], _ => fun _ member => absurd member List.not_mem_nil
  | t :: ts, legible => List.forall_mem_cons.mpr
      ⟨reads t false (cons_legible legible).1, readsAll ts (cons_legible legible).2⟩

end

/-- The text of a type without variables says which type it is. -/
theorem chars_injective {t u : Ty} (legible : t.legible = true) (legible' : u.legible = true)
    {bracket : Bool} (same : t.chars bracket = u.chars bracket) : t = u := by
  refine (reads t bracket legible u [] [] legible' (ends_nil _) (ends_nil _) ?_).1
  rw [same]

end Monotype.Ty
