import Monotype.Proofs.Pattern

/-!
# Inferred types are types

A run of inference that succeeds leaves a substitution behind. Under each of its solutions the
inferred type is a type of the expression (`Expr.infer_sound`). What is known later only has fewer
solutions, so what was found about a part stays true while the rest of the expression is inferred.
Main theorem: `Expr.inferType_sound`.
-/

namespace Monotype

open Infer

mutual

theorem Expr.infer_sound : ∀ (e : Expr) {scope : Scope Ty} {s s' : Session} {t : Ty},
    e.proper = true → e.infer scope s = .ok t s' → ∀ θ, s'.subst.SolvedBy θ →
    HasType (scope.bindings.inst θ) e (t.inst θ)
  | .unit span, scope, s, s', t, _, run, θ, _ => by
    simp only [Expr.infer, pure_ok] at run
    obtain ⟨rfl, rfl⟩ := run
    exact .unit span
  | .int span n, scope, s, s', t, _, run, θ, _ => by
    simp only [Expr.infer, pure_ok] at run
    obtain ⟨rfl, rfl⟩ := run
    exact .int span n
  | .name span x, scope, s, s', t, _, run, θ, solved => by
    obtain ⟨u, found, rfl, rfl⟩ := Expr.infer_name_ok.mp run
    apply HasType.name
    rw [Bindings.lookup_inst, ← Scope.get?_eq_lookup, found, solved.inst_resolve]
    rfl
  | .tuple span es, scope, s, s', t, proper, run, θ, solved => by
    simp only [Expr.infer, bind_ok, resolve_ok] at run
    obtain ⟨ts, s₁, elements, rfl, rfl⟩ := run
    rw [solved.inst_resolve]
    exact .tuple (inferAll_sound es proper elements θ solved)
  | .binop span op l r, scope, s, s', t, proper, run, θ, solved => by
    simp only [Expr.proper, Bool.and_eq_true] at proper
    simp only [Expr.infer, bind_ok, pure_ok] at run
    obtain ⟨lt, s₁, left, rt, s₂, right, _, s₃, unified, rfl, rfl⟩ := run
    have ⟨known, equal⟩ := unify_solved unified solved
    have leftTyped := infer_sound l proper.1 left θ ((infer_extends right).solvedBy known)
    have rightTyped := infer_sound r proper.2 right θ known
    rw [equal ⟨lt, .int⟩ (by simp)] at leftTyped
    rw [equal ⟨rt, .int⟩ (by simp)] at rightTyped
    exact .binop leftTyped rightTyped
  | .apply span f a, scope, s, s', t, proper, run, θ, solved => by
    simp only [Expr.proper, Bool.and_eq_true] at proper
    simp only [Expr.infer, bind_ok, fresh_ok, resolve_ok] at run
    obtain ⟨argTy, s₁, argRun, funcTy, s₂, funcRun, _, _, ⟨rfl, rfl⟩, _, s₃, unified, rfl, rfl⟩ := run
    have ⟨known, equal⟩ := unify_solved unified solved
    have argTyped := infer_sound a proper.2 argRun θ ((infer_extends funcRun).solvedBy known)
    have funcTyped := infer_sound f proper.1 funcRun θ known
    rw [← equal ⟨.fn argTy (.var s₂.next), funcTy⟩ (by simp)] at funcTyped
    rw [solved.inst_resolve]
    exact .apply funcTyped argTyped
  | .constructor span label a, scope, s, s', t, proper, run, θ, solved => by
    simp only [Expr.infer, bind_ok, resolve_ok] at run
    obtain ⟨u, s₁, run, rfl, rfl⟩ := run
    rw [solved.inst_resolve]
    exact .constructor (infer_sound a proper run θ solved)
  | .function span p b, scope, s, s', t, proper, run, θ, solved => by
    simp only [Expr.infer, bind_ok, resolve_ok, Prod.exists] at run
    obtain ⟨paramTy, Δ, s₁, paramRun, bodyTy, s₂, bodyRun, rfl, rfl⟩ := run
    have bodyTyped := infer_sound b proper bodyRun θ solved
    rw [Scope.bindings_down, Bindings.inst_append] at bodyTyped
    rw [solved.inst_resolve]
    exact .function (Pattern.infer_binds paramRun θ) bodyTyped
  | .cond span p c a, scope, s, s', t, proper, run, θ, solved => by
    simp only [Expr.proper, Bool.and_eq_true] at proper
    simp only [Expr.infer, bind_ok, resolve_ok] at run
    obtain ⟨predTy, s₁, predRun, consTy, s₂, consRun, altTy, s₃, altRun, _, s₄, unified, rfl, rfl⟩ :=
      run
    have ⟨known, equal⟩ := unify_solved unified solved
    have known₂ := (infer_extends altRun).solvedBy known
    have predTyped := infer_sound p proper.1.1 predRun θ ((infer_extends consRun).solvedBy known₂)
    have consTyped := infer_sound c proper.1.2 consRun θ known₂
    have altTyped := infer_sound a proper.2 altRun θ known
    rw [equal ⟨predTy, .int⟩ (by simp)] at predTyped
    rw [← equal ⟨consTy, altTy⟩ (by simp)] at altTyped
    rw [solved.inst_resolve]
    exact .cond predTyped consTyped altTyped
  | .letIn span p v b, scope, s, s', t, proper, run, θ, solved => by
    simp only [Expr.proper, Bool.and_eq_true] at proper
    simp only [Expr.infer, bind_ok, resolve_ok, Prod.exists] at run
    obtain ⟨targetTy, Δ, s₁, targetRun, valueTy, s₂, valueRun, _, s₃, unified, bodyTy, s₄, bodyRun,
      rfl, rfl⟩ := run
    have ⟨known, equal⟩ := unify_solved unified ((infer_extends bodyRun).solvedBy solved)
    have valueTyped := infer_sound v proper.1 valueRun θ known
    have bodyTyped := infer_sound b proper.2 bodyRun θ solved
    rw [← equal ⟨targetTy, valueTy⟩ (by simp)] at valueTyped
    rw [Scope.bindings_down, Bindings.inst_append] at valueTyped bodyTyped
    rw [solved.inst_resolve]
    exact .letIn (Pattern.infer_binds targetRun θ) valueTyped bodyTyped
  | .matchOn span e [], scope, s, s', t, proper, run, θ, solved => by
    simp [Expr.infer, bind_ok, throw_ok] at run
  | .matchOn span e ((p, b) :: rest), scope, s, s', t, proper, run, θ, solved => by
    simp only [Expr.proper, Expr.properCases, Bool.and_eq_true] at proper
    simp only [Expr.infer, bind_ok, resolve_ok, Prod.exists] at run
    obtain ⟨subjectTy, s₁, subjectRun, patTy, Δ, s₂, patRun, bodyTy, s₃, bodyRun, others, s₄, restRun,
      _, s₅, unified, rfl, rfl⟩ := run
    have ⟨known, equal⟩ := unify_solved unified solved
    have ⟨alike, subjectEqual⟩ := holds_caseEquations.mp equal
    have known₃ := ((Expr.inferCases_extending scope rest).of_ok restRun).solvedBy known
    have known₁ := (p.infer_extending.of_ok patRun).solvedBy ((infer_extends bodyRun).solvedBy known₃)
    have subjectTyped := infer_sound e proper.1 subjectRun θ known₁
    have bodyTyped := infer_sound b proper.2.1 bodyRun θ known₃
    have restTyped := inferCases_sound rest proper.2.2 restRun θ known _ _ alike
    rw [subjectEqual] at subjectTyped
    rw [Scope.bindings_down, Bindings.inst_append] at bodyTyped
    rw [solved.inst_resolve]
    exact .matchOn subjectTyped (List.cons_ne_nil _ _)
      (.cons (Pattern.infer_binds patRun θ) bodyTyped restTyped)
  | .pattern p, scope, s, s', t, proper, run, θ, solved => by
    simp [Expr.proper] at proper

theorem Expr.inferAll_sound : ∀ (es : List Expr) {scope : Scope Ty} {s s' : Session} {ts : List Ty},
    Expr.properAll es = true → Expr.inferAll scope es s = .ok ts s' → ∀ θ, s'.subst.SolvedBy θ →
    HaveTypes (scope.bindings.inst θ) es (Ty.instAll θ ts)
  | [], scope, s, s', ts, _, run, θ, _ => by
    simp only [Expr.inferAll, pure_ok] at run
    obtain ⟨rfl, rfl⟩ := run
    exact .nil
  | e :: es, scope, s, s', ts, proper, run, θ, solved => by
    simp only [Expr.properAll, Bool.and_eq_true] at proper
    simp only [Expr.inferAll, bind_ok, pure_ok] at run
    obtain ⟨t, s₁, headRun, ts, s₂, tailRun, rfl, rfl⟩ := run
    have known := ((Expr.inferAll_extending scope es).of_ok tailRun).solvedBy solved
    exact .cons (infer_sound e proper.1 headRun θ known) (inferAll_sound es proper.2 tailRun θ solved)

theorem Expr.inferCases_sound : ∀ (cases : List (Pattern × Expr)) {scope : Scope Ty}
    {s s' : Session} {types : List (Ty × Ty)}, Expr.properCases cases = true →
    Expr.inferCases scope cases s = .ok types s' → ∀ θ, s'.subst.SolvedBy θ →
    ∀ t u, (∀ case ∈ types, case.1.inst θ = t ∧ case.2.inst θ = u) →
    CasesHaveType (scope.bindings.inst θ) cases t u
  | [], scope, s, s', types, _, run, θ, _, _, _, _ => .nil
  | (p, b) :: cases, scope, s, s', types, proper, run, θ, solved, t, u, equal => by
    simp only [Expr.properCases, Bool.and_eq_true] at proper
    simp only [Expr.inferCases, bind_ok, pure_ok, Prod.exists] at run
    obtain ⟨patTy, Δ, s₁, patRun, bodyTy, s₂, bodyRun, others, s₃, restRun, rfl, rfl⟩ := run
    rw [List.forall_mem_cons] at equal
    obtain ⟨⟨rfl, rfl⟩, alike⟩ := equal
    have known := ((Expr.inferCases_extending scope cases).of_ok restRun).solvedBy solved
    have bodyTyped := infer_sound b proper.1 bodyRun θ known
    rw [Scope.bindings_down, Bindings.inst_append] at bodyTyped
    exact .cons (Pattern.infer_binds patRun θ) bodyTyped
      (inferCases_sound cases proper.2 restRun θ solved _ _ alike)

end

/-! ### Inferred types are resolved -/

/-- A computation whose result is resolved by what is known at its end. -/
def Infer.Resolving (x : Infer Ty) : Prop :=
  ∀ s s' t, x s = .ok t s' → s'.subst.Ordered → s'.subst.resolve t = t

namespace Infer.Resolving

theorem bind {α : Type} {x : Infer α} {f : α → Infer Ty} (last : ∀ a, Resolving (f a)) :
    Resolving (x >>= f) := by
  intro s s' t run ordered
  obtain ⟨a, s₁, -, run⟩ := bind_ok.mp run
  exact last a s₁ s' t run ordered

theorem resolve (t : Ty) : Resolving (Infer.resolve t) := by
  intro s s' u run ordered
  obtain ⟨rfl, rfl⟩ := resolve_ok.mp run
  exact ordered.resolve_resolve t

theorem pure_name (n : String) : Resolving (pure (.name n)) := by
  intro s s' t run _
  obtain ⟨rfl, rfl⟩ := pure_ok.mp run
  rfl

end Infer.Resolving

open Infer.Resolving in
theorem Expr.infer_resolves (scope : Scope Ty) : ∀ e : Expr, (∀ p, e ≠ .pattern p) →
    Infer.Resolving (e.infer scope)
  | .unit _, _ => pure_name _
  | .int .., _ => pure_name _
  | .name span x, _ => by
    intro s s' t run ordered
    obtain ⟨u, -, rfl, rfl⟩ := Expr.infer_name_ok.mp run
    exact ordered.resolve_resolve u
  | .tuple .., _ => bind fun _ => resolve _
  | .binop .., _ => bind fun _ => bind fun _ => bind fun _ => pure_name _
  | .apply .., _ => bind fun _ => bind fun _ => bind fun _ => bind fun _ => resolve _
  | .constructor .., _ => bind fun _ => resolve _
  | .function .., _ => bind fun _ => bind fun _ => resolve _
  | .cond .., _ => bind fun _ => bind fun _ => bind fun _ => bind fun _ => resolve _
  | .letIn .., _ => bind fun _ => bind fun _ => bind fun _ => bind fun _ => resolve _
  | .matchOn _ _ [], _ => bind fun _ _ _ _ run => (throw_ok.mp run).elim
  | .matchOn _ _ ((_, _) :: _), _ =>
    bind fun _ => bind fun _ => bind fun _ => bind fun _ => bind fun _ => resolve _
  | .pattern p, other => (other p rfl).elim

theorem Expr.infer_resolving (scope : Scope Ty) (e : Expr) (proper : e.proper = true) :
    Infer.Resolving (e.infer scope) := by
  refine infer_resolves scope e ?_
  rintro p rfl
  simp [Expr.proper] at proper

/-! ### Whole expressions -/

theorem Expr.inferType_ok {e : Expr} {env : Bindings} {s s' : Session} {t : Ty} :
    e.inferType env s = .ok t s' ↔ ∃ s₁, e.infer (.top env) s = .ok t s₁ ∧
      s' = { s₁ with log := s₁.log ++ [.solution s₁.subst] } := by
  unfold Expr.inferType
  rw [bind_ok]
  constructor
  · rintro ⟨u, s₁, run, rest⟩
    obtain ⟨rfl, rfl⟩ : t = u ∧ s' = { s₁ with log := s₁.log ++ [.solution s₁.subst] } := by
      change EStateM.Result.ok u { s₁ with log := s₁.log ++ [.solution s₁.subst] } = .ok t s' at rest
      simpa [eq_comm] using rest
    exact ⟨s₁, run, rfl⟩
  · rintro ⟨s₁, run, rfl⟩
    exact ⟨t, s₁, run, rfl⟩

/-- An expression has the type that is inferred for it, under the environment with every type
resolved by the final substitution, and the type is resolved. -/
theorem Expr.inferType_sound {e : Expr} (proper : e.proper = true) {env : Bindings} {first : Int}
    {t : Ty} {final : Session} (run : e.inferType env { next := first } = .ok t final) :
    HasType (env.resolve final.subst) e t ∧ final.subst.resolve t = t := by
  obtain ⟨s₁, inferred, rfl⟩ := Expr.inferType_ok.mp run
  have ordered : s₁.subst.Ordered := ((infer_extends inferred).reachable .empty).ordered
  have resolved : s₁.subst.resolve t = t := Expr.infer_resolving _ e proper _ _ _ inferred ordered
  have typed := Expr.infer_sound e proper inferred s₁.subst.closure ordered.solvedBy_closure
  change HasType (env.resolve s₁.subst) e (s₁.subst.resolve t) at typed
  rw [resolved] at typed
  exact ⟨typed, resolved⟩

/-- A function that passes its parameter on to a name of unknown type. -/
theorem Expr.inferType_sound_eta :
    let e := Expr.function .origin (.name .origin "x")
      (.apply .origin (.name .origin "y") (.name .origin "x"))
    ∃ final, e.inferType [("y", .var 0)] { next := 1 } = .ok (.fn (.var 1) (.var 2)) final ∧
      HasType [("y", .fn (.var 1) (.var 2))] e (.fn (.var 1) (.var 2)) := by
  have run : Expr.inferType [("y", .var 0)] (.function .origin (.name .origin "x")
      (.apply .origin (.name .origin "y") (.name .origin "x"))) { next := 1 } =
      .ok (.fn (.var 1) (.var 2)) { next := 3, subst := [(0, .fn (.var 1) (.var 2))], log :=
        [.solved (.fn (.var 1) (.var 2)) (.var 0), .solution [(0, .fn (.var 1) (.var 2))]] } := by
    cbv
  exact ⟨_, run, (Expr.inferType_sound rfl run).1⟩

end Monotype
