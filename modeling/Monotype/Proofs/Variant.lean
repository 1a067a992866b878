import Monotype.Proofs.Reachable
import Monotype.Proofs.Renaming

/-!
# Types up to the ids of their variables

Types that are instances of each other differ in the ids of variables only (`Ty.variant_of_inst`),
and substitutions with the same solutions differ in the choice of ids only
(`Subst.Ordered.exists_rename`).
-/

namespace Monotype

/-- A bijection of ids makes the one type into the other. -/
def Ty.Variant (t u : Ty) : Prop := ∃ ρ : Int → Int, Function.Bijective ρ ∧ t.rename ρ = u

/-- An exchange of finitely many ids is part of a permutation of all ids, which moves the old ids
and the new ones, and no others. -/
theorem exists_perm_extending {vs : List Int} {f : Int → Int}
    (injective : ∀ v ∈ vs, ∀ w ∈ vs, f v = f w → v = w) :
    ∃ ρ : Equiv.Perm Int, (∀ v ∈ vs, ρ v = f v) ∧ ∀ v, v ∉ vs → v ∉ vs.map f → ρ v = v := by
  let moved : Finset Int := vs.toFinset ∪ vs.toFinset.image f
  have old : ∀ v ∈ vs, v ∈ moved := by
    intro v member
    simp [moved, member]
  have mapsTo : Set.MapsTo (fun v : moved => f v) {v | v.1 ∈ vs} moved := by
    intro v member
    have image : f v ∈ vs.toFinset.image f := by
      simpa using ⟨v.1, member, rfl⟩
    exact Finset.mem_union_right _ image
  have injOn : Set.InjOn (fun v : moved => f v) {v | v.1 ∈ vs} := by
    intro v left w right same
    exact Subtype.ext (injective v left w right same)
  obtain ⟨g, extended⟩ := mapsTo.exists_equiv_extend_of_card_eq (by simp) injOn
  refine ⟨Equiv.Perm.ofSubtype g, fun v member => ?_, fun v before after => ?_⟩
  · rw [Equiv.Perm.ofSubtype_apply_of_mem g (old v member)]
    exact extended ⟨v, old v member⟩ member
  · refine Equiv.Perm.ofSubtype_apply_of_not_mem g ?_
    simpa [moved] using ⟨before, fun w member same => after (List.mem_map.mpr ⟨w, member, same⟩)⟩

theorem Ty.eq_var_of_inst {t : Ty} {θ : Int → Ty} {v : Int} (same : t.inst θ = .var v) :
    ∃ w, t = .var w ∧ θ w = .var v := by
  cases t with
  | var w => exact ⟨w, rfl, same⟩
  | _ => cases same

/-- Variables that can be brought back are only moved to other ids. -/
theorem exists_perm_of_inst {vs : List Int} {η ζ : Int → Ty}
    (back : ∀ v ∈ vs, (η v).inst ζ = .var v) :
    ∃ ρ : Equiv.Perm Int, (∀ v ∈ vs, η v = .var (ρ v)) ∧
      ∀ v, v ∉ vs → (∀ w ∈ vs, η w ≠ .var v) → ρ v = v := by
  -- What comes back as a variable was one.
  have moved : ∀ v ∈ vs, ∃ w, η v = .var w ∧ ζ w = .var v :=
    fun v member => Ty.eq_var_of_inst (back v member)
  choose! f image preimage using moved
  have injective : ∀ v ∈ vs, ∀ w ∈ vs, f v = f w → v = w := by
    intro v left w right same
    have equal : Ty.var v = .var w := by
      rw [← preimage v left, same, preimage w right]
    exact Ty.var.inj equal
  obtain ⟨ρ, extended, others⟩ := exists_perm_extending injective
  refine ⟨ρ, fun v member => ?_, fun v before after => others v before fun mem => ?_⟩
  · rw [extended v member, image v member]
  · obtain ⟨w, member, rfl⟩ := List.mem_map.mp mem
    exact after w member (image w member)

theorem Ty.variant_of_inst {t u : Ty} {η ζ : Int → Ty} (there : t.inst η = u)
    (back : u.inst ζ = t) : t.Variant u := by
  have fixed : ∀ v ∈ t.vars, (η v).inst ζ = .var v := by
    apply eq_of_inst_eq
    rw [← inst_inst, there, back, inst_var]
  obtain ⟨ρ, moved, -⟩ := exists_perm_of_inst fixed
  refine ⟨ρ, ρ.bijective, ?_⟩
  rw [← there]
  exact inst_congr fun v inside => (moved v inside).symm

/-! ### Substitutions with the same solutions -/

namespace Subst

variable {s s' : Subst}

/-- Substitutions with the same solutions resolve all types alike, up to one renaming: a variable
that the one leaves open is at most given another id by the other. -/
theorem Ordered.exists_rename (ordered : s.Ordered) (ordered' : s'.Ordered)
    (same : ∀ θ, s.SolvedBy θ ↔ s'.SolvedBy θ) :
    ∃ ρ : Int → Int, Function.Bijective ρ ∧ ∀ t, s'.resolve t = (s.resolve t).rename ρ := by
  have there := ((same _).mpr ordered'.solvedBy_closure).inst_resolve
  have back := ((same _).mp ordered.solvedBy_closure).inst_resolve
  have returns : ∀ v ∈ (s.vars ++ s'.vars).filter (· ∉ s.keys),
      (s'.closure v).inst s.closure = .var v := by
    intro v member
    have opened : v ∉ s.keys := by simpa using (List.mem_filter.mp member).2
    exact (back (.var v)).trans (closure_of_not_mem_keys opened)
  obtain ⟨ρ, moved, others⟩ := exists_perm_of_inst returns
  have opened : ∀ v, v ∉ s.keys → s'.closure v = .var (ρ v) := by
    intro v opened
    by_cases known : v ∈ s.vars ++ s'.vars
    · exact moved v (List.mem_filter.mpr ⟨known, by simpa using opened⟩)
    -- Neither substitution knows of the variable, so nothing is moved to it.
    · have unmoved : ρ v = v := by
        refine others v (fun member => known (List.mem_filter.mp member).1) fun w member image => ?_
        have reached : v ∈ (s'.closure w).vars := by simp [image, Ty.vars]
        rcases mem_vars_follow reached with rfl | inside
        · exact known (List.mem_filter.mp member).1
        · exact known (List.mem_append_right _ inside)
      rw [unmoved]
      refine closure_of_not_mem_keys fun key => known ?_
      exact List.mem_append_right _ (keys_subset_vars s' key)
  refine ⟨ρ, ρ.bijective, fun t => ?_⟩
  change t.inst s'.closure = _
  rw [← there t]
  exact Ty.inst_congr fun v inside => opened v (ordered.not_mem_keys_of_mem_resolve inside)

end Subst

end Monotype
