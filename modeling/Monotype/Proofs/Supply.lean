import Monotype.Proofs.Pattern

/-!
# Variables that come up

Inference brings up the variables of the scope, those that were known before and those that it gives
out itself, and no others (`Expr.infer_within`). So a session that only mentions ids below the next
one stays that way (`Expr.infer_settled`).
-/

namespace Monotype

open Infer

/-! ### Allowed variables -/

/-- The replacements of a session, and the ids that it has left to give out below a limit, are
allowed. -/
structure Session.Within (A : Int → Prop) (limit : Int) (s : Session) : Prop where
  known : ∀ v ∈ s.subst.vars, A v
  fresh : ∀ v, s.next ≤ v → v < limit → A v

namespace Session.Within

variable {A : Int → Prop} {limit : Int} {s s' : Session}

theorem resolve (within : s.Within A limit) {t : Ty} (allowed : ∀ v ∈ t.vars, A v) :
    ∀ v ∈ (s.subst.resolve t).vars, A v := by
  intro v inside
  rcases Subst.mem_vars_resolve inside with inside | known
  · exact allowed v inside
  · exact within.known v known

theorem unify (within : s.Within A limit) {span : Option Span} {es : List Equation} {a : Unit}
    (allowed : ∀ e ∈ es, ∀ v ∈ e.vars, A v) (run : Infer.unify span es s = .ok a s') :
    s'.Within A limit := by
  obtain ⟨-, rfl⟩ := unify_ok.mp run
  refine ⟨fun v mem => ?_, within.fresh⟩
  rcases Subst.vars_unify mem with known | ⟨e, member, inside⟩
  · exact within.known v known
  · exact allowed e member v inside

theorem pattern (within : s.Within A limit) {p : Pattern} {t : Ty} {Δ : Bindings}
    (run : p.infer s = .ok (t, Δ) s') (le : s'.next ≤ limit) :
    (∀ v ∈ t.vars, A v) ∧ (∀ v ∈ Δ.vars, A v) ∧ s'.Within A limit := by
  have inferred := (p.inferFrom_sound run).1
  have later := (p.infer_extending.of_ok run).next_le
  have allowed : ∀ v ∈ t.vars ++ Δ.vars, A v := by
    intro v mem
    have ⟨low, high⟩ := inferred.fresh v mem
    exact within.fresh v low (by omega)
  refine ⟨fun v mem => allowed v (List.mem_append_left _ mem),
    fun v mem => allowed v (List.mem_append_right _ mem), ?_, fun v low => within.fresh v (by omega)⟩
  rw [inferred.subst_eq]
  exact within.known

end Session.Within

theorem Scope.allowed_down {A : Int → Prop} {scope : Scope Ty} {Δ : Bindings}
    (outer : ∀ v ∈ scope.bindings.vars, A v) (bound : ∀ v ∈ Δ.vars, A v) :
    ∀ v ∈ (scope.down Δ).bindings.vars, A v := by
  intro v mem
  rw [Scope.bindings_down, Bindings.vars, List.flatMap_append] at mem
  rcases List.mem_append.mp mem with mem | mem
  · exact bound v mem
  · exact outer v mem

theorem mem_vars_caseEquations {p b subject : Ty} {rest : List (Ty × Ty)} {e : Equation} {v : Int}
    (member : e ∈ caseEquations (p, b) rest subject) (inside : v ∈ e.vars) :
    v ∈ p.vars ∨ v ∈ b.vars ∨ v ∈ subject.vars ∨ ∃ case ∈ rest, v ∈ case.1.vars ++ case.2.vars := by
  simp only [caseEquations, List.mem_append, List.mem_flatMap, List.mem_cons, List.not_mem_nil,
    or_false] at member
  rcases member with ⟨case, known, rfl | rfl⟩ | rfl
  all_goals simp only [Equation.vars, List.mem_append] at inside
  · rcases inside with inside | inside
    · exact .inl inside
    · exact .inr (.inr (.inr ⟨case, known, by simp [inside]⟩))
  · rcases inside with inside | inside
    · exact .inr (.inl inside)
    · exact .inr (.inr (.inr ⟨case, known, by simp [inside]⟩))
  · rcases inside with inside | inside
    · exact .inl inside
    · exact .inr (.inr (.inl inside))

theorem Equation.forall_mem_vars {A : Int → Prop} {l r : Ty} :
    (∀ v ∈ (⟨l, r⟩ : Equation).vars, A v) ↔ (∀ v ∈ l.vars, A v) ∧ ∀ v ∈ r.vars, A v :=
  List.forall_mem_append

theorem Ty.forall_mem_vars_fn {A : Int → Prop} {p r : Ty} :
    (∀ v ∈ (Ty.fn p r).vars, A v) ↔ (∀ v ∈ p.vars, A v) ∧ ∀ v ∈ r.vars, A v :=
  List.forall_mem_append

theorem Ty.forall_mem_vars_name {A : Int → Prop} (n : String) : ∀ v ∈ (Ty.name n).vars, A v := by
  simp [Ty.vars]

/-! ### Runs -/

mutual

theorem Expr.infer_within {A : Int → Prop} {limit : Int} : ∀ (e : Expr) {scope : Scope Ty}
    {s s' : Session} {t : Ty}, e.infer scope s = .ok t s' → (∀ v ∈ scope.bindings.vars, A v) →
    s.Within A limit → s'.next ≤ limit → (∀ v ∈ t.vars, A v) ∧ s'.Within A limit
  | .unit span, scope, s, s', t, run, _, within, _ => by
    simp only [Expr.infer, pure_ok] at run
    obtain ⟨rfl, rfl⟩ := run
    exact ⟨Ty.forall_mem_vars_name _, within⟩
  | .int span n, scope, s, s', t, run, _, within, _ => by
    simp only [Expr.infer, pure_ok] at run
    obtain ⟨rfl, rfl⟩ := run
    exact ⟨Ty.forall_mem_vars_name _, within⟩
  | .name span x, scope, s, s', t, run, allowed, within, _ => by
    obtain ⟨u, found, rfl, rfl⟩ := Expr.infer_name_ok.mp run
    rw [Scope.get?_eq_lookup] at found
    refine ⟨within.resolve fun v inside => ?_, within⟩
    exact allowed v (Bindings.mem_vars_of_lookup found inside)
  | .tuple span es, scope, s, s', t, run, allowed, within, le => by
    simp only [Expr.infer, bind_ok, resolve_ok] at run
    obtain ⟨ts, s₁, run, rfl, rfl⟩ := run
    obtain ⟨inside, within⟩ := inferAll_within es run allowed within le
    exact ⟨within.resolve (t := .tuple ts) inside, within⟩
  | .binop span op l r, scope, s, s', t, run, allowed, within, le => by
    simp only [Expr.infer, bind_ok, pure_ok] at run
    obtain ⟨lt, s₁, left, rt, s₂, right, _, s₃, unified, rfl, rfl⟩ := run
    have le₂ := unify_next unified ▸ le
    have le₁ := (infer_extends right).next_le.trans le₂
    obtain ⟨inLeft, within₁⟩ := infer_within l left allowed within le₁
    obtain ⟨inRight, within₂⟩ := infer_within r right allowed within₁ le₂
    refine ⟨Ty.forall_mem_vars_name _, within₂.unify ?_ unified⟩
    simp only [List.forall_mem_cons, Equation.forall_mem_vars]
    exact ⟨⟨inLeft, Ty.forall_mem_vars_name _⟩, ⟨inRight, Ty.forall_mem_vars_name _⟩, by simp⟩
  | .apply span f a, scope, s, s', t, run, allowed, within, le => by
    simp only [Expr.infer, bind_ok, fresh_ok, resolve_ok] at run
    obtain ⟨argTy, s₁, argRun, funcTy, s₂, funcRun, _, _, ⟨rfl, rfl⟩, _, s₃, unified, rfl, rfl⟩ := run
    have le₂ : s₂.next + 1 ≤ limit := (unify_next unified).symm.trans_le le
    have le₁ := (infer_extends funcRun).next_le
    obtain ⟨inArg, within₁⟩ := infer_within a argRun allowed within (by omega)
    obtain ⟨inFunc, within₂⟩ := infer_within f funcRun allowed within₁ (by omega)
    have result : ∀ v ∈ (Ty.var s₂.next).vars, A v := by
      intro v mem
      obtain rfl : v = s₂.next := by simpa [Ty.vars] using mem
      exact within₂.fresh _ (Int.le_refl _) (by omega)
    have within₃ : Session.Within A limit { s₂ with next := s₂.next + 1 } :=
      ⟨within₂.known, fun v low => within₂.fresh v (by dsimp only at low; omega)⟩
    have within₄ := within₃.unify (by
      simp only [List.forall_mem_cons, Equation.forall_mem_vars, Ty.forall_mem_vars_fn]
      exact ⟨⟨⟨inArg, result⟩, inFunc⟩, by simp⟩) unified
    exact ⟨within₄.resolve result, within₄⟩
  | .constructor span label a, scope, s, s', t, run, allowed, within, le => by
    simp only [Expr.infer, bind_ok, resolve_ok] at run
    obtain ⟨u, s₁, run, rfl, rfl⟩ := run
    obtain ⟨inside, within⟩ := infer_within a run allowed within le
    exact ⟨within.resolve (t := .sum label u) inside, within⟩
  | .function span p b, scope, s, s', t, run, allowed, within, le => by
    simp only [Expr.infer, bind_ok, resolve_ok, Prod.exists] at run
    obtain ⟨paramTy, Δ, s₁, paramRun, bodyTy, s₂, bodyRun, rfl, rfl⟩ := run
    have le₁ := (infer_extends bodyRun).next_le.trans le
    obtain ⟨inParam, bound, within₁⟩ := within.pattern paramRun le₁
    obtain ⟨inBody, within₂⟩ := infer_within b bodyRun (Scope.allowed_down allowed bound) within₁ le
    exact ⟨within₂.resolve (Ty.forall_mem_vars_fn.mpr ⟨inParam, inBody⟩), within₂⟩
  | .cond span p c a, scope, s, s', t, run, allowed, within, le => by
    simp only [Expr.infer, bind_ok, resolve_ok] at run
    obtain ⟨predTy, s₁, predRun, consTy, s₂, consRun, altTy, s₃, altRun, _, s₄, unified, rfl, rfl⟩ :=
      run
    have le₃ := unify_next unified ▸ le
    have le₂ := (infer_extends altRun).next_le.trans le₃
    have le₁ := (infer_extends consRun).next_le.trans le₂
    obtain ⟨inPred, within₁⟩ := infer_within p predRun allowed within le₁
    obtain ⟨inCons, within₂⟩ := infer_within c consRun allowed within₁ le₂
    obtain ⟨inAlt, within₃⟩ := infer_within a altRun allowed within₂ le₃
    have within₄ := within₃.unify (by
      simp only [List.forall_mem_cons, Equation.forall_mem_vars]
      exact ⟨⟨inPred, Ty.forall_mem_vars_name _⟩, ⟨inCons, inAlt⟩, by simp⟩) unified
    exact ⟨within₄.resolve inCons, within₄⟩
  | .letIn span p v b, scope, s, s', t, run, allowed, within, le => by
    simp only [Expr.infer, bind_ok, resolve_ok, Prod.exists] at run
    obtain ⟨targetTy, Δ, s₁, targetRun, valueTy, s₂, valueRun, _, s₃, unified, bodyTy, s₄, bodyRun,
      rfl, rfl⟩ := run
    have le₃ := (infer_extends bodyRun).next_le.trans le
    have le₂ := unify_next unified ▸ le₃
    have le₁ := (infer_extends valueRun).next_le.trans le₂
    obtain ⟨inTarget, bound, within₁⟩ := within.pattern targetRun le₁
    have allowed := Scope.allowed_down allowed bound
    obtain ⟨inValue, within₂⟩ := infer_within v valueRun allowed within₁ le₂
    have within₃ := within₂.unify (by
      simp only [List.forall_mem_cons, Equation.forall_mem_vars]
      exact ⟨⟨inTarget, inValue⟩, by simp⟩) unified
    obtain ⟨inBody, within₄⟩ := infer_within b bodyRun allowed within₃ le
    exact ⟨within₄.resolve inBody, within₄⟩
  | .matchOn span e [], scope, s, s', t, run, _, _, _ => by
    simp [Expr.infer, bind_ok, throw_ok] at run
  | .matchOn span e ((p, b) :: rest), scope, s, s', t, run, allowed, within, le => by
    simp only [Expr.infer, bind_ok, resolve_ok, Prod.exists] at run
    obtain ⟨subjectTy, s₁, subjectRun, patTy, Δ, s₂, patRun, bodyTy, s₃, bodyRun, others, s₄, restRun,
      _, s₅, unified, rfl, rfl⟩ := run
    have le₄ := unify_next unified ▸ le
    have le₃ := ((Expr.inferCases_extending scope rest).of_ok restRun).next_le.trans le₄
    have le₂ := (infer_extends bodyRun).next_le.trans le₃
    have le₁ := (p.infer_extending.of_ok patRun).next_le.trans le₂
    obtain ⟨inSubject, within₁⟩ := infer_within e subjectRun allowed within le₁
    obtain ⟨inPat, bound, within₂⟩ := within₁.pattern patRun le₂
    obtain ⟨inBody, within₃⟩ :=
      infer_within b bodyRun (Scope.allowed_down allowed bound) within₂ le₃
    obtain ⟨inRest, within₄⟩ := inferCases_within rest restRun allowed within₃ le₄
    have within₅ := within₄.unify (by
      intro e member v inside
      rcases mem_vars_caseEquations member inside with inside | inside | inside | ⟨case, known, inside⟩
      · exact inPat v inside
      · exact inBody v inside
      · exact inSubject v inside
      · exact inRest case known v inside) unified
    exact ⟨within₅.resolve inBody, within₅⟩
  | .pattern p, scope, s, s', t, run, _, within, le => by
    simp only [Expr.infer, bind_ok, pure_ok, Prod.exists] at run
    obtain ⟨patTy, Δ, s₁, run, rfl, rfl⟩ := run
    obtain ⟨inside, -, within⟩ := within.pattern run le
    exact ⟨inside, within⟩

theorem Expr.inferAll_within {A : Int → Prop} {limit : Int} : ∀ (es : List Expr) {scope : Scope Ty}
    {s s' : Session} {ts : List Ty}, Expr.inferAll scope es s = .ok ts s' →
    (∀ v ∈ scope.bindings.vars, A v) → s.Within A limit → s'.next ≤ limit →
    (∀ v ∈ Ty.varsAll ts, A v) ∧ s'.Within A limit
  | [], scope, s, s', ts, run, _, within, _ => by
    simp only [Expr.inferAll, pure_ok] at run
    obtain ⟨rfl, rfl⟩ := run
    exact ⟨by simp [Ty.varsAll], within⟩
  | e :: es, scope, s, s', ts, run, allowed, within, le => by
    simp only [Expr.inferAll, bind_ok, pure_ok] at run
    obtain ⟨t, s₁, headRun, ts, s₂, tailRun, rfl, rfl⟩ := run
    have le₁ := ((Expr.inferAll_extending scope es).of_ok tailRun).next_le.trans le
    obtain ⟨inHead, within₁⟩ := infer_within e headRun allowed within le₁
    obtain ⟨inTail, within₂⟩ := inferAll_within es tailRun allowed within₁ le
    exact ⟨List.forall_mem_append.mpr ⟨inHead, inTail⟩, within₂⟩

theorem Expr.inferCases_within {A : Int → Prop} {limit : Int} : ∀ (cases : List (Pattern × Expr))
    {scope : Scope Ty} {s s' : Session} {types : List (Ty × Ty)},
    Expr.inferCases scope cases s = .ok types s' → (∀ v ∈ scope.bindings.vars, A v) →
    s.Within A limit → s'.next ≤ limit →
    (∀ case ∈ types, ∀ v ∈ case.1.vars ++ case.2.vars, A v) ∧ s'.Within A limit
  | [], scope, s, s', types, run, _, within, _ => by
    simp only [Expr.inferCases, pure_ok] at run
    obtain ⟨rfl, rfl⟩ := run
    exact ⟨by simp, within⟩
  | (p, b) :: cases, scope, s, s', types, run, allowed, within, le => by
    simp only [Expr.inferCases, bind_ok, pure_ok, Prod.exists] at run
    obtain ⟨patTy, Δ, s₁, patRun, bodyTy, s₂, bodyRun, others, s₃, restRun, rfl, rfl⟩ := run
    have le₂ := ((Expr.inferCases_extending scope cases).of_ok restRun).next_le.trans le
    have le₁ := (infer_extends bodyRun).next_le.trans le₂
    obtain ⟨inPat, bound, within₁⟩ := within.pattern patRun le₁
    obtain ⟨inBody, within₂⟩ :=
      infer_within b bodyRun (Scope.allowed_down allowed bound) within₁ le₂
    obtain ⟨inRest, within₃⟩ := inferCases_within cases restRun allowed within₂ le
    exact ⟨List.forall_mem_cons.mpr ⟨List.forall_mem_append.mpr ⟨inPat, inBody⟩, inRest⟩, within₃⟩

end

/-- The replacements of a session only mention ids that were given out. -/
def Session.Settled (s : Session) : Prop := ∀ v ∈ s.subst.vars, v < s.next

theorem Session.Settled.within {s : Session} {limit : Int} (settled : s.Settled)
    (le : s.next ≤ limit) : s.Within (· < limit) limit :=
  ⟨fun v known => Int.lt_of_lt_of_le (settled v known) le, fun _ _ below => below⟩

theorem Expr.infer_settled {e : Expr} {scope : Scope Ty} {s s' : Session} {t : Ty}
    (run : e.infer scope s = .ok t s') (below : ∀ v ∈ scope.bindings.vars, v < s.next)
    (settled : s.Settled) : (∀ v ∈ t.vars, v < s'.next) ∧ s'.Settled := by
  have le := (infer_extends run).next_le
  have allowed : ∀ v ∈ scope.bindings.vars, v < s'.next :=
    fun v mem => Int.lt_of_lt_of_le (below v mem) le
  have ⟨inside, within⟩ := infer_within e run allowed (settled.within le) (Int.le_refl _)
  exact ⟨inside, within.known⟩

end Monotype
