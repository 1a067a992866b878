import Monotype.Proofs.Principal

/-!
# The cases of a match

A match has a type when every single case fits the subject and that type (`casesHaveType_iff`).
Inference compares all cases with the first one, and it goes through each of them with what was found
in those before. Still, a match is given the same type in whatever order its cases stand, up to the
ids of variables (`Expr.typedAlike_of_cases_perm`).
-/

namespace Monotype

variable {cases cases' : List (Pattern × Expr)}

theorem casesHaveType_iff {Γ : Bindings} {t u : Ty} :
    CasesHaveType Γ cases t u ↔
      ∀ case ∈ cases, ∃ Δ, case.1.Binds t Δ ∧ HasType (Δ ++ Γ) case.2 u := by
  induction cases with
  | nil => exact iff_of_true .nil (by simp)
  | cons case cases ih =>
    rw [List.forall_mem_cons, ← ih]
    constructor
    · intro typed
      cases typed with
      | cons binds body rest => exact ⟨⟨_, binds, body⟩, rest⟩
    · rintro ⟨⟨Δ, binds, body⟩, rest⟩
      exact .cons binds body rest

theorem HasType.matchOn_perm {Γ : Bindings} {span : Span} {subject : Expr} {u : Ty}
    (typed : HasType Γ (.matchOn span subject cases) u) (permuted : cases.Perm cases') :
    HasType Γ (.matchOn span subject cases') u := by
  cases typed with
  | matchOn subject nonempty typed =>
    refine .matchOn subject ?_ (casesHaveType_iff.mpr fun case member => ?_)
    · rintro rfl
      exact nonempty permuted.eq_nil
    · exact casesHaveType_iff.mp typed case (permuted.mem_iff.mpr member)

theorem Expr.properCases_iff :
    Expr.properCases cases = true ↔ ∀ case ∈ cases, case.2.proper = true := by
  induction cases with
  | nil => simp [Expr.properCases]
  | cons case cases ih =>
    rw [Expr.properCases, Bool.and_eq_true, ih, List.forall_mem_cons]

/-- The cases of a match can be put in any order: the match is given a type in one order if and only
if it is in the other, and the two types differ in the ids of variables only. -/
theorem Expr.typedAlike_of_cases_perm {span : Span} {subject : Expr} {env : Bindings}
    (proper : subject.proper = true) (bodies : ∀ case ∈ cases, case.2.proper = true)
    (permuted : cases.Perm cases') (closed : env.vars = []) :
    TypedAlike env (.matchOn span subject cases) (.matchOn span subject cases') := by
  have bodies' : ∀ case ∈ cases', case.2.proper = true :=
    fun case member => bodies case (permuted.mem_iff.mpr member)
  apply typedAlike_of_hasType closed
  · rw [Expr.proper, proper, properCases_iff.mpr bodies, Bool.and_self]
  · rw [Expr.proper, proper, properCases_iff.mpr bodies', Bool.and_self]
  · intro σ
    exact ⟨fun typed => typed.matchOn_perm permuted, fun typed => typed.matchOn_perm permuted.symm⟩

/-- Two cases that give back an identity function, one of them by applying it to another one. The
last case says which id is left. -/
theorem Expr.typedAlike_of_cases_perm_identity :
    let plain : Pattern × Expr := (.name .origin "x",
      .function .origin (.name .origin "y") (.name .origin "y"))
    let applied : Pattern × Expr := (.int .origin 0,
      .apply .origin (.function .origin (.name .origin "z") (.name .origin "z"))
        (.function .origin (.name .origin "w") (.name .origin "w")))
    let one := Expr.matchOn .origin (.name .origin "k") [plain, applied]
    let other := Expr.matchOn .origin (.name .origin "k") [applied, plain]
    (∃ s, one.inferType [("k", .int)] { next := 0 } = .ok (.fn (.var 2) (.var 2)) s) ∧
      (∃ s, other.inferType [("k", .int)] { next := 0 } = .ok (.fn (.var 4) (.var 4)) s) ∧
      TypedAlike [("k", .int)] one other := by
  refine ⟨⟨?_, ?one⟩, ⟨?_, ?other⟩, ?alike⟩
  case one =>
    cbv
    rfl
  case other =>
    cbv
    rfl
  case alike => exact typedAlike_of_cases_perm rfl (by decide) (.swap _ _ []) rfl

end Monotype
