/-!
Counting the distinct members of a list, as needed to see that solving equations ends.
-/

namespace Monotype

def distinct : List Int → Nat
  | [] => 0
  | x :: xs => if x ∈ xs then distinct xs else distinct xs + 1

theorem distinct_filter_of_not_mem {a : Int} {xs : List Int} (h : a ∉ xs) :
    distinct (xs.filter (· ≠ a)) = distinct xs := by
  congr 1
  grind [List.filter_eq_self]

/-- Taking all occurrences of a member away makes one distinct member fewer. -/
theorem distinct_filter_of_mem {a : Int} {xs : List Int} (h : a ∈ xs) :
    distinct (xs.filter (· ≠ a)) + 1 = distinct xs := by
  induction xs with
  | nil => simp at h
  | cons x xs ih =>
    by_cases hx : x = a
    · subst hx
      by_cases hm : x ∈ xs
      · simpa [distinct, hm] using ih hm
      · simpa [distinct, hm] using distinct_filter_of_not_mem hm
    · have ha : a ∈ xs := by grind
      have := ih ha
      by_cases hm : x ∈ xs <;> simp_all [distinct]

theorem distinct_le_of_subset {xs ys : List Int} (h : ys ⊆ xs) : distinct ys ≤ distinct xs := by
  induction ys generalizing xs with
  | nil => simp [distinct]
  | cons y ys ih =>
    have hy : y ∈ xs := h (by simp)
    by_cases hm : y ∈ ys
    · simpa [distinct, hm] using ih (fun z hz => h (by simp [hz]))
    · have hsub : ys ⊆ xs.filter (· ≠ y) := by
        intro z hz
        have : z ∈ xs := h (by simp [hz])
        grind
      have := ih hsub
      have := distinct_filter_of_mem hy
      simp [distinct, hm]
      omega

/-- A list with fewer members, one of them gone for good, has fewer distinct members. -/
theorem distinct_lt_of_subset {a : Int} {xs ys : List Int} (h : ys ⊆ xs) (ha : a ∈ xs)
    (hn : a ∉ ys) : distinct ys < distinct xs := by
  have hsub : ys ⊆ xs.filter (· ≠ a) := by
    intro z hz
    have : z ∈ xs := h hz
    grind
  have := distinct_le_of_subset hsub
  have := distinct_filter_of_mem ha
  omega

end Monotype
