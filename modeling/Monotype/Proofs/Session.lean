import Monotype.Infer
import Monotype.Proofs.Reachable

/-!
# Runs of inference

What a run that succeeds is made of (`bind_ok` and the like), and what every run does to its session,
also one that fails: ids are only used up and replacements only added (`Expr.infer_extending`).
-/

namespace Monotype.Infer

variable {α β : Type} {s s' : Session}

theorem run_bind {ε σ : Type} (x : EStateM ε σ α) (f : α → EStateM ε σ β) (s : σ) :
    (x >>= f) s = match x s with
      | .ok a s₁ => f a s₁
      | .error e s₁ => .error e s₁ := by
  change EStateM.bind x f s = _
  unfold EStateM.bind
  cases x s <;> rfl

/-! ### Runs that succeed -/

theorem bind_ok {x : Infer α} {f : α → Infer β} {b : β} :
    (x >>= f) s = .ok b s' ↔ ∃ a s₁, x s = .ok a s₁ ∧ f a s₁ = .ok b s' := by
  change EStateM.bind x f s = _ ↔ _
  unfold EStateM.bind
  cases x s with
  | ok a s₁ => simp
  | error e s₁ => simp

theorem pure_ok {a b : α} : (pure a : Infer α) s = .ok b s' ↔ b = a ∧ s' = s := by
  change EStateM.Result.ok a s = _ ↔ _
  simp [eq_comm]

theorem fresh_ok {t : Ty} :
    fresh s = .ok t s' ↔ t = .var s.next ∧ s' = { s with next := s.next + 1 } := by
  change EStateM.Result.ok (Ty.var s.next) { s with next := s.next + 1 } = _ ↔ _
  simp [eq_comm]

theorem resolve_ok {t u : Ty} : resolve t s = .ok u s' ↔ u = s.subst.resolve t ∧ s' = s := by
  change EStateM.Result.ok (s.subst.resolve t) s = _ ↔ _
  simp [eq_comm]

theorem unify_ok {span : Option Span} {es : List Equation} {a : Unit} :
    unify span es s = .ok a s' ↔ (s.subst.unify es).clash = none ∧
      s' = { s with subst := (s.subst.unify es).subst, log := s.log ++ (s.subst.unify es).log } := by
  unfold unify
  cases clash : (s.subst.unify es).clash with
  | none => simp [clash, eq_comm]
  | some c => simp [clash]

theorem unify_error {span : Option Span} {es : List Equation} {problem : Problem} :
    unify span es s = .error problem s' ↔
      ∃ c, (s.subst.unify es).clash = some c ∧ problem = .clash c span ∧
        s' = { s with
          subst := (s.subst.unify es).subst
          log := s.log ++ (s.subst.unify es).log } := by
  unfold unify
  cases clash : (s.subst.unify es).clash with
  | none => simp [clash]
  | some c => simp [clash, eq_comm]

theorem throw_ok {p : Problem} {a : α} : (throw p : Infer α) s = .ok a s' ↔ False := by
  change EStateM.Result.error p s = _ ↔ _
  simp

end Monotype.Infer

namespace Monotype

/-! ### What a run does to its session -/

/-- How a session may go on: ids are used up and replacements are added by solving. -/
structure Session.Extends (s s' : Session) : Prop where
  next_le : s.next ≤ s'.next
  subst_prefix : s.subst <+: s'.subst
  reachable : s.subst.Reachable → s'.subst.Reachable

namespace Session.Extends

variable {s s₁ s' : Session}

theorem refl (s : Session) : s.Extends s := ⟨Int.le_refl _, List.prefix_refl _, id⟩

theorem trans (first : s.Extends s₁) (second : s₁.Extends s') : s.Extends s' :=
  ⟨Int.le_trans first.next_le second.next_le, first.subst_prefix.trans second.subst_prefix,
    second.reachable ∘ first.reachable⟩

theorem solvedBy (extended : s.Extends s') {θ : Int → Ty} (solved : s'.subst.SolvedBy θ) :
    s.subst.SolvedBy θ := by
  obtain ⟨added, same⟩ := extended.subst_prefix
  rw [← same, Subst.solvedBy_append] at solved
  exact solved.1

end Session.Extends

namespace Infer

variable {α β : Type}

/-- The session that a run leaves behind, whether it succeeds or not. -/
def after (x : Infer α) (s : Session) : Session :=
  match x s with
  | .ok _ s' => s'
  | .error _ s' => s'

/-- A computation that extends every session. -/
def Extending (x : Infer α) : Prop := ∀ s : Session, s.Extends (x.after s)

theorem Extending.of_ok {x : Infer α} (extending : x.Extending) {s s' : Session} {a : α}
    (run : x s = .ok a s') : s.Extends s' := by
  have extended := extending s
  rwa [after, run] at extended

theorem Extending.bind {x : Infer α} {f : α → Infer β} (first : x.Extending)
    (second : ∀ a, (f a).Extending) : (x >>= f).Extending := by
  intro s
  have extended := first s
  change s.Extends (match EStateM.bind x f s with | .ok _ s' => s' | .error _ s' => s')
  unfold EStateM.bind
  unfold after at extended
  cases run : x s with
  | ok a s₁ =>
    rw [run] at extended
    exact extended.trans (second a s₁)
  | error p s₁ =>
    rw [run] at extended
    exact extended

theorem extending_pure (a : α) : (pure a : Infer α).Extending := fun s => .refl s

theorem extending_throw (p : Problem) : (throw p : Infer α).Extending := fun s => .refl s

theorem extending_fresh : fresh.Extending := fun _ =>
  ⟨Int.le_add_one (Int.le_refl _), List.prefix_refl _, id⟩

theorem extending_tell (e : Event) : (tell e).Extending := fun _ =>
  ⟨Int.le_refl _, List.prefix_refl _, id⟩

theorem extending_resolve (t : Ty) : (resolve t).Extending := fun s => .refl s

theorem extending_unify (span : Option Span) (es : List Equation) : (unify span es).Extending := by
  intro s
  have extended : s.Extends
      { s with subst := (s.subst.unify es).subst, log := s.log ++ (s.subst.unify es).log } :=
    ⟨Int.le_refl _, Subst.prefix_unify _ _, .unify es⟩
  unfold after unify
  cases clash : (s.subst.unify es).clash with
  | none => simpa [clash] using extended
  | some c => simpa [clash] using extended

end Infer

open Infer

mutual

theorem Pattern.inferFrom_extending : ∀ (seen : List String) (p : Pattern),
    (p.inferFrom seen).Extending
  | _, .unit _ => extending_pure _
  | _, .int .. => extending_pure _
  | _, .wildcard _ => extending_fresh.bind fun _ => extending_pure _
  | seen, .name span x => by
    unfold Pattern.inferFrom
    split
    · exact (extending_tell _).bind fun _ => (extending_throw _).bind fun _ =>
        extending_fresh.bind fun _ => extending_pure _
    · exact extending_fresh.bind fun _ => extending_pure _
  | seen, .constructor _ _ arg => (inferFrom_extending seen arg).bind fun _ => extending_pure _
  | seen, .tuple _ ps => (inferAllFrom_extending seen ps).bind fun _ => extending_pure _
  | _, .expr _ => extending_throw _

theorem Pattern.inferAllFrom_extending : ∀ (seen : List String) (ps : List Pattern),
    (Pattern.inferAllFrom seen ps).Extending
  | _, [] => extending_pure _
  | seen, p :: ps => (inferFrom_extending seen p).bind fun _ =>
      (inferAllFrom_extending _ ps).bind fun _ => extending_pure _

end

theorem Pattern.infer_extending (p : Pattern) : p.infer.Extending := inferFrom_extending [] p

mutual

/-- Inference extends its session, also where it fails. -/
theorem Expr.infer_extending : ∀ (scope : Scope Ty) (e : Expr), (e.infer scope).Extending
  | _, .unit _ => extending_pure _
  | _, .int .. => extending_pure _
  | scope, .name span x => by
    unfold Expr.infer
    split
    · exact extending_resolve _
    · exact extending_throw _
  | scope, .tuple _ es => (inferAll_extending scope es).bind fun _ => extending_resolve _
  | scope, .binop _ _ l r => (infer_extending scope l).bind fun _ =>
      (infer_extending scope r).bind fun _ => (extending_unify _ _).bind fun _ => extending_pure _
  | scope, .apply _ f a => (infer_extending scope a).bind fun _ =>
      (infer_extending scope f).bind fun _ => extending_fresh.bind fun _ =>
        (extending_unify _ _).bind fun _ => extending_resolve _
  | scope, .constructor _ _ a => (infer_extending scope a).bind fun _ => extending_resolve _
  | scope, .function _ p b => p.infer_extending.bind fun _ =>
      (infer_extending _ b).bind fun _ => extending_resolve _
  | scope, .cond _ p c a => (infer_extending scope p).bind fun _ =>
      (infer_extending scope c).bind fun _ => (infer_extending scope a).bind fun _ =>
        (extending_unify _ _).bind fun _ => extending_resolve _
  | scope, .letIn _ p v b => p.infer_extending.bind fun _ =>
      (infer_extending _ v).bind fun _ => (extending_unify _ _).bind fun _ =>
        (infer_extending _ b).bind fun _ => extending_resolve _
  | _, .matchOn _ _ [] => (extending_tell _).bind fun _ => extending_throw _
  | scope, .matchOn _ e ((p, b) :: rest) => (infer_extending scope e).bind fun _ =>
      p.infer_extending.bind fun _ => (infer_extending _ b).bind fun _ =>
        (inferCases_extending scope rest).bind fun _ => (extending_unify _ _).bind fun _ =>
          extending_resolve _
  | _, .pattern p => p.infer_extending.bind fun _ => extending_pure _

theorem Expr.inferAll_extending : ∀ (scope : Scope Ty) (es : List Expr),
    (Expr.inferAll scope es).Extending
  | _, [] => extending_pure _
  | scope, e :: es => (infer_extending scope e).bind fun _ =>
      (inferAll_extending scope es).bind fun _ => extending_pure _

theorem Expr.inferCases_extending : ∀ (scope : Scope Ty) (cases : List (Pattern × Expr)),
    (Expr.inferCases scope cases).Extending
  | _, [] => extending_pure _
  | scope, (p, b) :: cases => p.infer_extending.bind fun _ => (infer_extending _ b).bind fun _ =>
      (inferCases_extending scope cases).bind fun _ => extending_pure _

end

theorem Expr.infer_extends {scope : Scope Ty} {e : Expr} {s s' : Session} {t : Ty}
    (run : e.infer scope s = .ok t s') : s.Extends s' :=
  (Expr.infer_extending scope e).of_ok run

/-- After a unification that succeeds, a solution solves what was known before and the equations. -/
theorem Infer.unify_solved {span : Option Span} {es : List Equation} {s s' : Session} {a : Unit}
    (run : Infer.unify span es s = .ok a s') {θ : Int → Ty} (solved : s'.subst.SolvedBy θ) :
    s.subst.SolvedBy θ ∧ ∀ e ∈ es, e.Holds θ := by
  obtain ⟨success, rfl⟩ := unify_ok.mp run
  exact (Subst.unify_solutions _ _).mpr ⟨success, solved⟩

/-- An assignment that solves what is known and the equations still solves what is known after
them. -/
theorem Infer.unify_complete (span : Option Span) (es : List Equation) {s : Session} {θ : Int → Ty}
    (solved : s.subst.SolvedBy θ) (equal : ∀ e ∈ es, e.Holds θ) :
    ∃ s', Infer.unify span es s = .ok () s' ∧ s'.subst.SolvedBy θ := by
  have ⟨success, solved⟩ := (Subst.unify_solutions s.subst es).mp ⟨solved, equal⟩
  exact ⟨_, unify_ok.mpr ⟨success, rfl⟩, solved⟩

theorem Infer.unify_next {span : Option Span} {es : List Equation} {s s' : Session} {a : Unit}
    (run : Infer.unify span es s = .ok a s') : s'.next = s.next := by
  obtain ⟨-, rfl⟩ := unify_ok.mp run
  rfl

theorem Expr.infer_name_ok {scope : Scope Ty} {span : Span} {x : String} {s s' : Session} {t : Ty} :
    (Expr.name span x).infer scope s = .ok t s' ↔
      ∃ u, scope.get? x = some u ∧ t = s.subst.resolve u ∧ s' = s := by
  unfold Expr.infer
  cases found : scope.get? x with
  | none => simpa using throw_ok
  | some u => simpa using resolve_ok

/-- The equations of a match hold when all cases are like the first one. -/
theorem holds_caseEquations {θ : Int → Ty} {p b subject : Ty} {rest : List (Ty × Ty)} :
    (∀ e ∈ caseEquations (p, b) rest subject, e.Holds θ) ↔
      (∀ case ∈ rest, case.1.inst θ = p.inst θ ∧ case.2.inst θ = b.inst θ) ∧
        subject.inst θ = p.inst θ := by
  rw [caseEquations, List.forall_mem_append, List.forall_mem_singleton, List.forall_mem_flatMap]
  refine and_congr (forall₂_congr fun case _ => ?_) eq_comm
  simp only [List.forall_mem_cons, Equation.Holds, List.not_mem_nil, false_implies, implies_true,
    and_true]
  exact and_congr eq_comm eq_comm

end Monotype
