import Monotype.Proofs.Renaming
import Monotype.Proofs.Session
import Monotype.Proofs.Typing

/-!
# Counting from another number

Inference that counts its variables from another number does the same with ids that are moved by the
difference (`Expr.inferType_shifts`), on success as well as on failure.
-/

namespace Monotype

/-! ### Sessions that are moved -/

def Problem.rename (ρ : Int → Int) : Problem → Problem
  | .clash c span => .clash (c.rename ρ) span
  | problem => problem

/-- The session with all ids moved, the next one included. -/
def Session.shift (d : Int) (s : Session) : Session where
  next := s.next + d
  subst := s.subst.rename (· + d)
  log := s.log.map (Event.rename (· + d))

def Bindings.rename (ρ : Int → Int) (Γ : Bindings) : Bindings := Γ.inst fun v => .var (ρ v)

theorem Bindings.rename_append (ρ : Int → Int) (Δ Γ : Bindings) :
    Bindings.rename ρ (Δ ++ Γ) = Δ.rename ρ ++ Γ.rename ρ := inst_append _ Δ Γ

theorem Bindings.rename_eq_self {Γ : Bindings} (closed : Γ.vars = []) (ρ : Int → Int) :
    Γ.rename ρ = Γ := inst_eq_self closed _

namespace Infer

variable {α β : Type} {d : Int} {g : α → α} {h : β → β}

/-- What came of a run, with all ids moved. -/
def shift (d : Int) (g : α → α) :
    EStateM.Result Problem Session α → EStateM.Result Problem Session α
  | .ok a s => .ok (g a) (s.shift d)
  | .error problem s => .error (problem.rename (· + d)) (s.shift d)

/-- From a session that is moved, `y` does what `x` does. Values are moved by `g`. -/
def Shifts (d : Int) (g : α → α) (x y : Infer α) : Prop := ∀ s, y (s.shift d) = shift d g (x s)

theorem Shifts.bind {x y : Infer α} {f k : α → Infer β} (first : Shifts d g x y)
    (second : ∀ a, Shifts d h (f a) (k (g a))) : Shifts d h (x >>= f) (y >>= k) := by
  intro s
  rw [run_bind, run_bind, first s]
  cases x s with
  | ok a s₁ => exact second a s₁
  | error problem s₁ => rfl

theorem shifts_pure {a b : α} (same : b = g a) : Shifts d g (pure a) (pure b) := by
  intro s
  rw [same]
  rfl

theorem shifts_throw {problem : Problem} (same : problem.rename (· + d) = problem) :
    Shifts d g (throw problem) (throw problem) := by
  intro s
  change EStateM.Result.error problem _ = .error (problem.rename (· + d)) _
  rw [same]

theorem shifts_fresh : Shifts d (Ty.rename (· + d)) fresh fresh := by
  intro s
  change EStateM.Result.ok (Ty.var (s.next + d)) { s.shift d with next := s.next + d + 1 } =
    .ok (Ty.var (s.next + d)) (Session.shift d { s with next := s.next + 1 })
  rw [Session.shift, Session.shift, add_right_comm]

theorem shifts_tell {e : Event} (same : e.rename (· + d) = e) : Shifts d id (tell e) (tell e) := by
  intro s
  change EStateM.Result.ok () { s.shift d with log := (s.shift d).log ++ [e] } =
    .ok () (Session.shift d { s with log := s.log ++ [e] })
  simp only [Session.shift, List.map_append, List.map_cons, List.map_nil, same]

theorem shifts_resolve (t : Ty) :
    Shifts d (Ty.rename (· + d)) (resolve t) (resolve (t.rename (· + d))) := by
  intro s
  change EStateM.Result.ok ((s.subst.rename (· + d)).resolve _) (s.shift d) = .ok _ _
  rw [Subst.resolve_rename (add_left_injective d)]

theorem shifts_unify (span : Option Span) (es : List Equation) :
    Shifts d id (unify span es) (unify span (es.map (Equation.rename (· + d)))) := by
  intro s
  have solved := Subst.unify_rename (add_left_injective d) s.subst es
  unfold unify
  dsimp only [Session.shift]
  rw [solved]
  cases clash : (s.subst.unify es).clash with
  | none =>
    simp only [Unification.rename, clash, Option.map_none, shift, Session.shift, List.map_append, id]
  | some c =>
    simp only [Unification.rename, clash, Option.map_some, shift, Session.shift, List.map_append,
      Problem.rename]

end Infer

/-! ### Inference -/

open Infer

section Inference

variable (d : Int)

mutual

theorem Pattern.inferFrom_shifts : ∀ (p : Pattern) (seen : List String),
    Shifts d (fun r => (r.1.rename (· + d), r.2.rename (· + d))) (p.inferFrom seen)
      (p.inferFrom seen)
  | .unit _, _ => shifts_pure rfl
  | .int .., _ => shifts_pure rfl
  | .wildcard _, _ => shifts_fresh.bind fun _ => shifts_pure rfl
  | .name span x, seen => by
    unfold Pattern.inferFrom
    split
    · exact (shifts_tell rfl).bind fun _ => Shifts.bind (g := id) (shifts_throw rfl) fun _ =>
        shifts_fresh.bind fun _ => shifts_pure rfl
    · exact shifts_fresh.bind fun _ => shifts_pure rfl
  | .constructor _ _ arg, seen => (inferFrom_shifts arg seen).bind fun _ => shifts_pure rfl
  | .tuple _ ps, seen => (inferAllFrom_shifts ps seen).bind fun (ts, bound) =>
      shifts_pure (by rw [Ty.rename_tuple])
  | .expr _, _ => shifts_throw rfl

theorem Pattern.inferAllFrom_shifts : ∀ (ps : List Pattern) (seen : List String),
    Shifts d (fun r => (r.1.map (Ty.rename (· + d)), r.2.rename (· + d)))
      (Pattern.inferAllFrom seen ps) (Pattern.inferAllFrom seen ps)
  | [], _ => shifts_pure rfl
  | p :: ps, seen => (inferFrom_shifts p seen).bind fun (t, bound) => by
    have names : (Bindings.rename (· + d) bound).map (·.1) = bound.map (·.1) :=
      Bindings.map_fst_inst _ _
    dsimp only
    rw [names]
    exact (inferAllFrom_shifts ps _).bind fun (ts, rest) =>
      shifts_pure (by rw [Bindings.rename_append, List.map_cons])

end

theorem Pattern.infer_shifts (p : Pattern) :
    Shifts d (fun r => (r.1.rename (· + d), r.2.rename (· + d))) p.infer p.infer :=
  inferFrom_shifts d p []

theorem caseEquations_rename (ρ : Int → Int) (first : Ty × Ty) (rest : List (Ty × Ty))
    (subject : Ty) :
    caseEquations (first.1.rename ρ, first.2.rename ρ)
        (rest.map fun case => (case.1.rename ρ, case.2.rename ρ)) (subject.rename ρ) =
      (caseEquations first rest subject).map (Equation.rename ρ) := by
  unfold caseEquations
  rw [List.flatMap_map, List.map_append, List.map_flatMap]
  rfl

variable {d}

theorem bindings_down_rename {scope scope' : Scope Ty} {ρ : Int → Int}
    (same : scope'.bindings = scope.bindings.rename ρ) (bound : Bindings) :
    (scope'.down (bound.rename ρ)).bindings = (scope.down bound).bindings.rename ρ := by
  rw [Scope.bindings_down, Scope.bindings_down, same, Bindings.rename_append]

mutual

theorem Expr.infer_shifts : ∀ (e : Expr) {scope scope' : Scope Ty},
    scope'.bindings = scope.bindings.rename (· + d) →
      Shifts d (Ty.rename (· + d)) (e.infer scope) (e.infer scope')
  | .unit _, _, _, _ => shifts_pure rfl
  | .int .., _, _, _ => shifts_pure rfl
  | .name span x, scope, scope', same => by
    unfold Expr.infer
    rw [Scope.get?_eq_lookup, Scope.get?_eq_lookup, same, Bindings.rename, Bindings.lookup_inst]
    cases scope.bindings.lookup x with
    | none => exact shifts_throw rfl
    | some t => exact shifts_resolve t
  | .tuple _ es, _, _, same => (inferAll_shifts es same).bind fun ts => by
    rw [← Ty.rename_tuple]
    exact shifts_resolve _
  | .binop span _ l r, _, _, same => (infer_shifts l same).bind fun _ =>
      (infer_shifts r same).bind fun _ => (shifts_unify span _).bind fun _ => shifts_pure rfl
  | .apply span f a, _, _, same => (infer_shifts a same).bind fun _ =>
      (infer_shifts f same).bind fun _ => shifts_fresh.bind fun _ =>
        (shifts_unify span _).bind fun _ => shifts_resolve _
  | .constructor _ _ a, _, _, same => (infer_shifts a same).bind fun _ => shifts_resolve _
  | .function _ p b, _, _, same => (p.infer_shifts d).bind fun (_, bound) =>
      (infer_shifts b (bindings_down_rename same bound)).bind fun _ => shifts_resolve _
  | .cond span p c a, _, _, same => (infer_shifts p same).bind fun _ =>
      (infer_shifts c same).bind fun _ => (infer_shifts a same).bind fun _ =>
        (shifts_unify span _).bind fun _ => shifts_resolve _
  | .letIn span p v b, _, _, same => (p.infer_shifts d).bind fun (_, bound) =>
      (infer_shifts v (bindings_down_rename same bound)).bind fun _ =>
        (shifts_unify span _).bind fun _ =>
          (infer_shifts b (bindings_down_rename same bound)).bind fun _ => shifts_resolve _
  | .matchOn _ _ [], _, _, _ => (shifts_tell rfl).bind fun _ => shifts_throw rfl
  | .matchOn span e ((p, b) :: rest), _, _, same => (infer_shifts e same).bind fun subject =>
      (p.infer_shifts d).bind fun (t, bound) =>
        (infer_shifts b (bindings_down_rename same bound)).bind fun body =>
          (inferCases_shifts rest same).bind fun others => by
            rw [caseEquations_rename _ (t, body)]
            exact (shifts_unify span _).bind fun _ => shifts_resolve _
  | .pattern p, _, _, _ => (p.infer_shifts d).bind fun _ => shifts_pure rfl

theorem Expr.inferAll_shifts : ∀ (es : List Expr) {scope scope' : Scope Ty},
    scope'.bindings = scope.bindings.rename (· + d) →
      Shifts d (List.map (Ty.rename (· + d))) (Expr.inferAll scope es) (Expr.inferAll scope' es)
  | [], _, _, _ => shifts_pure rfl
  | e :: es, _, _, same => (infer_shifts e same).bind fun _ =>
      (inferAll_shifts es same).bind fun _ => shifts_pure rfl

theorem Expr.inferCases_shifts : ∀ (cases : List (Pattern × Expr)) {scope scope' : Scope Ty},
    scope'.bindings = scope.bindings.rename (· + d) →
      Shifts d (List.map fun case => (case.1.rename (· + d), case.2.rename (· + d)))
        (Expr.inferCases scope cases) (Expr.inferCases scope' cases)
  | [], _, _, _ => shifts_pure rfl
  | (p, b) :: cases, _, _, same => (p.infer_shifts d).bind fun (_, bound) =>
      (infer_shifts b (bindings_down_rename same bound)).bind fun _ =>
        (inferCases_shifts cases same).bind fun _ => shifts_pure rfl

end

/-- Under an environment without variables, inference from a session that is moved is inference
moved. -/
theorem Expr.inferType_shifts (e : Expr) {env : Bindings} (closed : env.vars = []) :
    Shifts d (Ty.rename (· + d)) (e.inferType env) (e.inferType env) := by
  have same : (Scope.top env).bindings = (Scope.top env).bindings.rename (· + d) :=
    (Bindings.rename_eq_self closed _).symm
  refine (infer_shifts e same).bind fun t s => ?_
  change EStateM.Result.ok _
      { s.shift d with log := (s.shift d).log ++ [.solution (s.shift d).subst] } =
    .ok _ (Session.shift d { s with log := s.log ++ [.solution s.subst] })
  simp only [Session.shift, List.map_append, List.map_cons, List.map_nil, Event.rename]

end Inference

end Monotype
