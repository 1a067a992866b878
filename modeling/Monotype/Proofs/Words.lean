import Mathlib

/-!
# Words in texts

A text that starts with a word, and goes on with something that is no part of a word, starts with only
one such word (`Text.word_unique`). So texts can be read back whose words are kept apart. Numbers are
words of digits.
-/

namespace Monotype.Text

/-- The text does not go on with a character of the class. -/
def Halts (P : Char → Bool) (rest : List Char) : Prop := ∀ c ∈ rest.head?, P c = false

theorem halts_nil (P : Char → Bool) : Halts P [] := by
  intro c member
  cases member

theorem halts_cons {P : Char → Bool} {c : Char} {rest : List Char} (outside : P c = false) :
    Halts P (c :: rest) := by
  intro d member
  cases member
  exact outside

theorem word_unique {P : Char → Bool} {word other rest rest' : List Char}
    (inside : ∀ c ∈ word, P c = true) (inside' : ∀ c ∈ other, P c = true) (halts : Halts P rest)
    (halts' : Halts P rest') (same : word ++ rest = other ++ rest') : word = other ∧ rest = rest' := by
  induction word generalizing other with
  | nil =>
    cases other with
    | nil => exact ⟨rfl, same⟩
    | cons c other =>
      have outside := halts c (by rw [List.nil_append] at same; simp [same])
      rw [inside' c List.mem_cons_self] at outside
      cases outside
  | cons c word ih =>
    cases other with
    | nil =>
      have outside := halts' c (by rw [List.nil_append] at same; simp [← same])
      rw [inside c List.mem_cons_self] at outside
      cases outside
    | cons d other =>
      rw [List.cons_append, List.cons_append, List.cons.injEq] at same
      rw [List.forall_mem_cons] at inside inside'
      obtain ⟨rfl, rfl⟩ := ih inside.2 inside'.2 same.2
      exact ⟨by rw [same.1], rfl⟩

/-! ### Numbers -/

theorem isDigit_of_mem_toString {n : Nat} {c : Char} (member : c ∈ (toString n).toList) :
    c.isDigit = true := by
  rw [Nat.toString_eq_ofList_toDigits, String.toList_ofList] at member
  exact Nat.isDigit_of_mem_toDigits (by decide) (by decide) member

theorem not_mem_toString {c : Char} (other : c.isDigit = false) (n : Nat) : c ∉ (toString n).toList := by
  intro member
  rw [isDigit_of_mem_toString member] at other
  cases other

theorem toList_negSucc (n : Nat) :
    (toString (Int.negSucc n)).toList = '-' :: (toString (n + 1)).toList := String.toList_append

theorem toString_toList_injective {m n : Nat} (same : (toString m).toList = (toString n).toList) :
    m = n :=
  Nat.repr_injective (String.toList_inj.mp same)

end Monotype.Text
