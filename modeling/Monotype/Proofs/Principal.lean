import Monotype.Proofs.Completeness
import Monotype.Proofs.Variant

/-!
# Principal types

Under an environment without variables, the types of an expression are the instances of the one that
is inferred (`Expr.hasType_iff_instance`). So expressions that have the same types are given the
same type up to ids, or none is given to either (`Expr.typedAlike_of_hasType`).
-/

namespace Monotype

/-! ### The types of an expression -/

namespace Expr

variable {e e' : Expr} {env : Bindings} {first : Int}

/-- Inference succeeds wherever there is a type. -/
theorem inferType_isOk {σ : Ty} (closed : env.vars = []) (typed : HasType env e σ) (first : Int) :
    ∃ t final η, e.inferType env { next := first } = .ok t final ∧ t.inst η = σ := by
  have below : ∀ v ∈ env.vars, v < first := by simp [closed]
  rw [← env.inst_var] at typed
  obtain ⟨t, s, η, run, same, -, -⟩ := Expr.infer_complete e typed (Session.fits_start below .var)
  exact ⟨t, _, η, Expr.inferType_ok.mpr ⟨s, run, rfl⟩, same⟩

/-- The types of an expression are the instances of the inferred one. -/
theorem hasType_iff_instance (proper : e.proper = true) (closed : env.vars = []) {t : Ty}
    {final : Session} (run : e.inferType env { next := first } = .ok t final) {σ : Ty} :
    HasType env e σ ↔ ∃ η, t.inst η = σ := by
  constructor
  · intro typed
    obtain ⟨_, _, η, again, same⟩ := inferType_isOk closed typed first
    rw [run] at again
    cases again
    exact ⟨η, same⟩
  · rintro ⟨η, rfl⟩
    obtain ⟨s, inferred, rfl⟩ := Expr.inferType_ok.mp run
    have ordered : s.subst.Ordered := ((infer_extends inferred).reachable .empty).ordered
    have resolved : s.subst.resolve t = t := Expr.infer_resolving _ e proper _ _ _ inferred ordered
    -- What is known is solved by following the replacements and choosing the rest by `η`.
    have typed := Expr.infer_sound e proper inferred _ (ordered.solvedBy_closure.inst η)
    have chosen : t.inst (fun v => (s.subst.closure v).inst η) = t.inst η := by
      rw [← Ty.inst_inst]
      exact congrArg (Ty.inst η) resolved
    rw [chosen] at typed
    change HasType (env.inst _) e _ at typed
    rwa [Bindings.inst_eq_self closed] at typed

theorem inferType_isOk_iff (proper : e.proper = true) (closed : env.vars = []) :
    (∃ t s, e.inferType env { next := first } = .ok t s) ↔ ∃ σ, HasType env e σ := by
  constructor
  · rintro ⟨t, s, run⟩
    exact ⟨t, (hasType_iff_instance proper closed run).mpr ⟨.var, t.inst_var⟩⟩
  · rintro ⟨σ, typed⟩
    obtain ⟨t, s, -, run, -⟩ := inferType_isOk closed typed first
    exact ⟨t, s, run⟩

/-- Both expressions are given a type or neither is, wherever ids are counted from, and the two
types are variants of each other. -/
def TypedAlike (env : Bindings) (e e' : Expr) : Prop :=
  ∀ n m, ((∃ t s, e.inferType env { next := n } = .ok t s) ↔
      ∃ t s, e'.inferType env { next := m } = .ok t s) ∧
    ∀ t t' s s', e.inferType env { next := n } = .ok t s →
      e'.inferType env { next := m } = .ok t' s' → t.Variant t'

theorem typedAlike_of_hasType (closed : env.vars = []) (proper : e.proper = true)
    (proper' : e'.proper = true) (same : ∀ σ, HasType env e σ ↔ HasType env e' σ) :
    TypedAlike env e e' := by
  intro n m
  constructor
  · rw [inferType_isOk_iff proper closed, inferType_isOk_iff proper' closed]
    exact exists_congr same
  · intro t t' s s' run run'
    have instances : ∀ {σ}, (∃ η, t.inst η = σ) ↔ ∃ η, t'.inst η = σ := by
      intro σ
      rw [← hasType_iff_instance proper closed run, same, hasType_iff_instance proper' closed run']
    obtain ⟨η, there⟩ := instances.mpr ⟨.var, rfl⟩
    obtain ⟨ζ, back⟩ := instances.mp ⟨.var, rfl⟩
    rw [Ty.inst_var] at there back
    exact Ty.variant_of_inst there back

end Expr

end Monotype
