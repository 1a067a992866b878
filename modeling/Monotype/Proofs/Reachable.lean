import Mathlib
import Monotype.Proofs.Solving

/-!
# Substitutions that come about

A substitution starts empty and is only ever extended by solving equations, with or without a clash.
All such substitutions are ordered, and two things follow for them: chains of replacements end
(`Reachable.chains_end`), and solving equations leaves the solutions as they are
(`Reachable.unify_exact`).
-/

namespace Monotype.Subst

/-- The substitutions that come from solving lists of equations one after the other. What a list
that ends in a clash leaves behind counts too. -/
inductive Reachable : Subst → Prop where
  | empty : Reachable []
  | unify {s : Subst} (es : List Equation) : Reachable s → Reachable (s.unify es).subst

theorem Reachable.ordered {s : Subst} (reachable : s.Reachable) : s.Ordered := by
  induction reachable with
  | empty => trivial
  | unify es _ ih => exact ordered_unify es ih

/-- No variable leads back to itself, so replacing variables for as long as possible ends, with the
resolved type and nothing else. No variable in it is replaced, and resolving it again changes
nothing. -/
theorem Reachable.chains_end {s : Subst} (reachable : s.Reachable) :
    s.Acyclic ∧ ∀ t : Ty, (∀ u, s.Resolves t u ↔ u = s.resolve t) ∧
      (∀ v ∈ (s.resolve t).vars, v ∉ s.keys) ∧ s.resolve (s.resolve t) = s.resolve t := by
  have ordered := reachable.ordered
  refine ⟨ordered.acyclic, fun t => ⟨fun u => ordered.resolves_iff, ?_, ordered.resolve_resolve t⟩⟩
  intro v inside
  exact ordered.not_mem_keys_of_mem_resolve inside

/-- What two equations leave behind when a third one clashes. -/
theorem chains_end_after_clash :
    let s := unify [] [⟨.var 1, .fn (.var 2) (.var 3)⟩, ⟨.var 3, .tuple [.var 2]⟩, ⟨.var 2, .var 1⟩]
    s.clash ≠ none ∧ s.subst.Acyclic ∧
      s.subst.Resolves (.var 1) (.fn (.var 2) (.tuple [.var 2])) := by
  have ⟨acyclic, ends⟩ := Reachable.chains_end (.unify
    [⟨.var 1, .fn (.var 2) (.var 3)⟩, ⟨.var 3, .tuple [.var 2]⟩, ⟨.var 2, .var 1⟩] .empty)
  refine ⟨by decide_cbv, acyclic, ((ends _).1 _).mpr ?_⟩
  cbv

/-- Solving succeeds with a substitution under which the sides of every equation are the same type,
and which has the solutions that the old one and the equations have in common. It clashes only if
they have none in common. -/
theorem Reachable.unify_exact {s : Subst} (reachable : s.Reachable) (es : List Equation) :
    ((s.unify es).clash = none →
      (∀ e ∈ es, (s.unify es).subst.resolve e.left = (s.unify es).subst.resolve e.right) ∧
      ∀ θ, (s.unify es).subst.SolvedBy θ ↔ s.SolvedBy θ ∧ ∀ e ∈ es, e.Holds θ) ∧
    ∀ c, (s.unify es).clash = some c → ∀ θ, ¬ (s.SolvedBy θ ∧ ∀ e ∈ es, e.Holds θ) := by
  constructor
  · intro success
    refine ⟨fun e member => resolve_unify reachable.ordered success member, fun θ => ?_⟩
    rw [unify_solutions s es]
    exact (and_iff_right success).symm
  · intro c clash θ solved
    have success := ((unify_solutions s es).mp solved).1
    rw [clash] at success
    cases success

/-- A function whose parameter turns out to be a tuple, and one that would be its own parameter. -/
theorem unify_exact_of_function :
    let s := (unify [] [⟨.var 1, .fn (.var 2) .int⟩]).subst
    (s.unify [⟨.fn (.tuple [.var 3]) (.var 4), .var 1⟩]).clash = none ∧
    (∀ θ, (s.unify [⟨.fn (.tuple [.var 3]) (.var 4), .var 1⟩]).subst.SolvedBy θ ↔
      s.SolvedBy θ ∧ ∀ e ∈ [(⟨.fn (.tuple [.var 3]) (.var 4), .var 1⟩ : Equation)], e.Holds θ) ∧
    ∀ θ, ¬ (s.SolvedBy θ ∧ ∀ e ∈ [(⟨.var 2, .var 1⟩ : Equation)], e.Holds θ) := by
  have spec := Reachable.unify_exact (.unify [⟨.var 1, .fn (.var 2) .int⟩] .empty)
  have success : ((unify [] [⟨.var 1, .fn (.var 2) .int⟩]).subst.unify
      [⟨.fn (.tuple [.var 3]) (.var 4), .var 1⟩]).clash = none := by cbv
  refine ⟨success, ((spec _).1 success).2, ?_⟩
  exact (spec _).2 ⟨.circular, .var 2, .fn (.var 2) .int⟩ (by cbv)

end Monotype.Subst
