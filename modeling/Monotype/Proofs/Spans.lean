import Monotype.Proofs.Session
import Monotype.Tree.Indent
import Monotype.Tree.Same

/-!
# Spans do not matter

Two trees are the same, spans left aside, if and only if they are one tree once all spans are gone
(`Expr.same_iff`). Inference does nothing with a span but blame a problem on it
(`Expr.infer_bare`), and printing does nothing with it at all (`Expr.print_bare`). So equal trees
cannot be told apart by either. Main theorem: `Expr.outcome_of_same`.
-/

namespace Monotype

/-! ### Trees without spans -/

mutual

/-- The expression with nothing known of where it came from. -/
def Expr.bare : Expr → Expr
  | .unit _ => .unit .origin
  | .int _ n => .int .origin n
  | .name _ x => .name .origin x
  | .tuple _ es => .tuple .origin (Expr.bareAll es)
  | .binop _ op l r => .binop .origin op l.bare r.bare
  | .apply _ f a => .apply .origin f.bare a.bare
  | .constructor _ label a => .constructor .origin label a.bare
  | .function _ p b => .function .origin p.bare b.bare
  | .cond _ p c a => .cond .origin p.bare c.bare a.bare
  | .letIn _ p v b => .letIn .origin p.bare v.bare b.bare
  | .matchOn _ e cases => .matchOn .origin e.bare (Expr.bareCases cases)
  | .pattern p => .pattern p.bare

/-- The pattern with nothing known of where it came from. -/
def Pattern.bare : Pattern → Pattern
  | .unit _ => .unit .origin
  | .int _ n => .int .origin n
  | .wildcard _ => .wildcard .origin
  | .name _ x => .name .origin x
  | .constructor _ label p => .constructor .origin label p.bare
  | .tuple _ ps => .tuple .origin (Pattern.bareAll ps)
  | .expr e => .expr e.bare

def Expr.bareAll : List Expr → List Expr
  | [] => []
  | e :: es => e.bare :: Expr.bareAll es

def Pattern.bareAll : List Pattern → List Pattern
  | [] => []
  | p :: ps => p.bare :: Pattern.bareAll ps

def Expr.bareCases : List (Pattern × Expr) → List (Pattern × Expr)
  | [] => []
  | (p, b) :: cases => (p.bare, b.bare) :: Expr.bareCases cases

end

mutual

theorem Expr.same_iff : ∀ a b : Expr, a.same b = true ↔ a.bare = b.bare
  | .unit _, b => by
    cases b with
    | unit _ => exact iff_of_true rfl rfl
    | _ => exact ⟨nofun, nofun⟩
  | .int _ n, b => by
    cases b with
    | int _ m => simp only [Expr.same, Expr.bare, beq_iff_eq, Expr.int.injEq, true_and]
    | _ => exact ⟨nofun, nofun⟩
  | .name _ x, b => by
    cases b with
    | name _ y => simp only [Expr.same, Expr.bare, beq_iff_eq, Expr.name.injEq, true_and]
    | _ => exact ⟨nofun, nofun⟩
  | .tuple _ es, b => by
    cases b with
    | tuple _ fs =>
      simp only [Expr.same, Expr.bare, Expr.sameAll_iff es fs, Expr.tuple.injEq, true_and]
    | _ => exact ⟨nofun, nofun⟩
  | .binop _ op l r, b => by
    cases b with
    | binop _ op' l' r' =>
      simp only [Expr.same, Expr.bare, Bool.and_eq_true, beq_iff_eq, Expr.same_iff l l',
        Expr.same_iff r r', Expr.binop.injEq, true_and, and_assoc]
    | _ => exact ⟨nofun, nofun⟩
  | .apply _ f a, b => by
    cases b with
    | apply _ f' a' =>
      simp only [Expr.same, Expr.bare, Bool.and_eq_true, Expr.same_iff f f', Expr.same_iff a a',
        Expr.apply.injEq, true_and]
    | _ => exact ⟨nofun, nofun⟩
  | .constructor _ label a, b => by
    cases b with
    | constructor _ label' a' =>
      simp only [Expr.same, Expr.bare, Bool.and_eq_true, beq_iff_eq, Expr.same_iff a a',
        Expr.constructor.injEq, true_and]
    | _ => exact ⟨nofun, nofun⟩
  | .function _ p a, b => by
    cases b with
    | function _ q a' =>
      simp only [Expr.same, Expr.bare, Bool.and_eq_true, Pattern.same_iff p q, Expr.same_iff a a',
        Expr.function.injEq, true_and]
    | _ => exact ⟨nofun, nofun⟩
  | .cond _ p c a, b => by
    cases b with
    | cond _ p' c' a' =>
      simp only [Expr.same, Expr.bare, Bool.and_eq_true, Expr.same_iff p p', Expr.same_iff c c',
        Expr.same_iff a a', Expr.cond.injEq, true_and, and_assoc]
    | _ => exact ⟨nofun, nofun⟩
  | .letIn _ p v a, b => by
    cases b with
    | letIn _ q v' a' =>
      simp only [Expr.same, Expr.bare, Bool.and_eq_true, Pattern.same_iff p q, Expr.same_iff v v',
        Expr.same_iff a a', Expr.letIn.injEq, true_and, and_assoc]
    | _ => exact ⟨nofun, nofun⟩
  | .matchOn _ e cases, b => by
    cases b with
    | matchOn _ e' cases' =>
      simp only [Expr.same, Expr.bare, Bool.and_eq_true, Expr.same_iff e e',
        Expr.sameCases_iff cases cases', Expr.matchOn.injEq, true_and]
    | _ => exact ⟨nofun, nofun⟩
  | .pattern p, b => by
    cases b with
    | pattern q => simp only [Expr.same, Expr.bare, Pattern.same_iff p q, Expr.pattern.injEq]
    | _ => exact ⟨nofun, nofun⟩
termination_by structural a => a

theorem Pattern.same_iff : ∀ p q : Pattern, p.same q = true ↔ p.bare = q.bare
  | .unit _, q => by
    cases q with
    | unit _ => exact iff_of_true rfl rfl
    | _ => exact ⟨nofun, nofun⟩
  | .int _ n, q => by
    cases q with
    | int _ m => simp only [Pattern.same, Pattern.bare, beq_iff_eq, Pattern.int.injEq, true_and]
    | _ => exact ⟨nofun, nofun⟩
  | .wildcard _, q => by
    cases q with
    | wildcard _ => exact iff_of_true rfl rfl
    | _ => exact ⟨nofun, nofun⟩
  | .name _ x, q => by
    cases q with
    | name _ y => simp only [Pattern.same, Pattern.bare, beq_iff_eq, Pattern.name.injEq, true_and]
    | _ => exact ⟨nofun, nofun⟩
  | .constructor _ label p, q => by
    cases q with
    | constructor _ label' q =>
      simp only [Pattern.same, Pattern.bare, Bool.and_eq_true, beq_iff_eq, Pattern.same_iff p q,
        Pattern.constructor.injEq, true_and]
    | _ => exact ⟨nofun, nofun⟩
  | .tuple _ ps, q => by
    cases q with
    | tuple _ qs =>
      simp only [Pattern.same, Pattern.bare, Pattern.sameAll_iff ps qs, Pattern.tuple.injEq, true_and]
    | _ => exact ⟨nofun, nofun⟩
  | .expr e, q => by
    cases q with
    | expr f => simp only [Pattern.same, Pattern.bare, Expr.same_iff e f, Pattern.expr.injEq]
    | _ => exact ⟨nofun, nofun⟩
termination_by structural p => p

theorem Expr.sameAll_iff : ∀ es fs : List Expr,
    Expr.sameAll es fs = true ↔ Expr.bareAll es = Expr.bareAll fs
  | [], [] => iff_of_true rfl rfl
  | [], _ :: _ => ⟨nofun, nofun⟩
  | _ :: _, [] => ⟨nofun, nofun⟩
  | e :: es, f :: fs => by
    simp only [Expr.sameAll, Expr.bareAll, Bool.and_eq_true, Expr.same_iff e f,
      Expr.sameAll_iff es fs, List.cons.injEq]
termination_by structural es => es

theorem Pattern.sameAll_iff : ∀ ps qs : List Pattern,
    Pattern.sameAll ps qs = true ↔ Pattern.bareAll ps = Pattern.bareAll qs
  | [], [] => iff_of_true rfl rfl
  | [], _ :: _ => ⟨nofun, nofun⟩
  | _ :: _, [] => ⟨nofun, nofun⟩
  | p :: ps, q :: qs => by
    simp only [Pattern.sameAll, Pattern.bareAll, Bool.and_eq_true, Pattern.same_iff p q,
      Pattern.sameAll_iff ps qs, List.cons.injEq]
termination_by structural ps => ps

theorem Expr.sameCases_iff : ∀ cases cases' : List (Pattern × Expr),
    Expr.sameCases cases cases' = true ↔ Expr.bareCases cases = Expr.bareCases cases'
  | [], [] => iff_of_true rfl rfl
  | [], _ :: _ => ⟨nofun, nofun⟩
  | _ :: _, [] => ⟨nofun, nofun⟩
  | (p, b) :: cases, (q, b') :: cases' => by
    simp only [Expr.sameCases, Expr.bareCases, Bool.and_eq_true, Pattern.same_iff p q,
      Expr.same_iff b b', Expr.sameCases_iff cases cases', List.cons.injEq, Prod.mk.injEq]
termination_by structural cases => cases

end

/-! ### Runs of inference without spans -/

/-- The problem with nothing known of where it is. -/
def Problem.bare : Problem → Problem
  | .clash c _ => .clash c none
  | .undefinedName x _ => .undefinedName x .origin
  | .duplicateBinding x _ => .duplicateBinding x .origin
  | .emptyMatch => .emptyMatch
  | .misplaced => .misplaced

def Event.bare : Event → Event
  | .emptyMatch _ => .emptyMatch .origin
  | e => e

def Session.bare (s : Session) : Session := { s with log := s.log.map Event.bare }

theorem Session.bare_eq_iff {s s' : Session} : s.bare = s'.bare ↔
    s.next = s'.next ∧ s.subst = s'.subst ∧ s.log.map Event.bare = s'.log.map Event.bare := by
  simp only [Session.bare, Session.mk.injEq]

namespace Infer

variable {α β : Type}

/-- What came of a run, with spans left aside. -/
def bare : EStateM.Result Problem Session α → EStateM.Result Problem Session α
  | .ok a s => .ok a s.bare
  | .error problem s => .error problem.bare s.bare

/-- From sessions that differ in spans only, both come to the same with spans left aside. -/
def Parallel (x y : Infer α) : Prop := ∀ s s', s.bare = s'.bare → bare (x s) = bare (y s')

theorem Parallel.bind {x y : Infer α} {f g : α → Infer β} (first : Parallel x y)
    (second : ∀ a, Parallel (f a) (g a)) : Parallel (x >>= f) (y >>= g) := by
  intro s s' same
  have after := first s s' same
  rw [run_bind, run_bind]
  -- Both succeed with the same value or both fail, since `bare` keeps these apart.
  cases left : x s with
  | ok a s₁ =>
    cases right : y s' with
    | ok b s₁' =>
      rw [left, right] at after
      injection after with value session
      subst value
      exact second a s₁ s₁' session
    | error problem s₁' => rw [left, right] at after; cases after
  | error problem s₁ =>
    cases right : y s' with
    | ok b s₁' => rw [left, right] at after; cases after
    | error problem' s₁' =>
      rw [left, right] at after
      injection after with blamed session
      exact congrArg₂ EStateM.Result.error blamed session

theorem parallel_pure (a : α) : Parallel (pure a) (pure a) := by
  intro s s' same
  exact congrArg (EStateM.Result.ok a) same

theorem parallel_throw {problem problem' : Problem} (blamed : problem.bare = problem'.bare) :
    Parallel (throw problem : Infer α) (throw problem') := by
  intro s s' same
  exact congrArg₂ EStateM.Result.error blamed same

theorem parallel_fresh : Parallel fresh fresh := by
  intro s s' same
  obtain ⟨next, subst, log⟩ := Session.bare_eq_iff.mp same
  change EStateM.Result.ok _ (Session.bare _) = .ok _ (Session.bare _)
  rw [next]
  refine congrArg (EStateM.Result.ok _) (Session.bare_eq_iff.mpr ⟨rfl, subst, log⟩)

theorem parallel_tell {e e' : Event} (told : e.bare = e'.bare) : Parallel (tell e) (tell e') := by
  intro s s' same
  obtain ⟨next, subst, log⟩ := Session.bare_eq_iff.mp same
  refine congrArg (EStateM.Result.ok ()) (Session.bare_eq_iff.mpr ⟨next, subst, ?_⟩)
  rw [List.map_append, List.map_append, log, List.map_singleton, List.map_singleton, told]

theorem parallel_resolve (t : Ty) : Parallel (resolve t) (resolve t) := by
  intro s s' same
  change EStateM.Result.ok (s.subst.resolve t) s.bare = .ok (s'.subst.resolve t) s'.bare
  rw [(Session.bare_eq_iff.mp same).2.1, same]

/-- The span is looked at only to be blamed. -/
theorem parallel_unify (span span' : Option Span) (es : List Equation) :
    Parallel (unify span es) (unify span' es) := by
  intro s s' same
  obtain ⟨next, subst, log⟩ := Session.bare_eq_iff.mp same
  unfold unify
  dsimp only
  rw [← subst]
  have after : Session.bare { s with
        subst := (s.subst.unify es).subst, log := s.log ++ (s.subst.unify es).log } =
      Session.bare { s' with
        subst := (s.subst.unify es).subst, log := s'.log ++ (s.subst.unify es).log } := by
    refine Session.bare_eq_iff.mpr ⟨next, rfl, ?_⟩
    rw [List.map_append, List.map_append, log]
  cases (s.subst.unify es).clash with
  | none => exact congrArg (EStateM.Result.ok ()) after
  | some c => exact congrArg (EStateM.Result.error (Problem.clash c none)) after

end Infer

open Infer

mutual

theorem Pattern.inferFrom_bare : ∀ (p : Pattern) (seen : List String),
    Parallel (p.inferFrom seen) (p.bare.inferFrom seen)
  | .unit _, _ => parallel_pure _
  | .int .., _ => parallel_pure _
  | .wildcard _, _ => parallel_fresh.bind fun _ => parallel_pure _
  | .name span x, seen => by
    unfold Pattern.bare Pattern.inferFrom
    split
    · exact (parallel_tell rfl).bind fun _ => (parallel_throw rfl).bind fun _ =>
        parallel_fresh.bind fun _ => parallel_pure _
    · exact parallel_fresh.bind fun _ => parallel_pure _
  | .constructor _ _ arg, seen => (inferFrom_bare arg seen).bind fun _ => parallel_pure _
  | .tuple _ ps, seen => (inferAllFrom_bare ps seen).bind fun _ => parallel_pure _
  | .expr _, _ => parallel_throw rfl

theorem Pattern.inferAllFrom_bare : ∀ (ps : List Pattern) (seen : List String),
    Parallel (Pattern.inferAllFrom seen ps) (Pattern.inferAllFrom seen (Pattern.bareAll ps))
  | [], _ => parallel_pure _
  | p :: ps, seen => (inferFrom_bare p seen).bind fun _ =>
      (inferAllFrom_bare ps _).bind fun _ => parallel_pure _

end

theorem Pattern.infer_bare (p : Pattern) : Parallel p.infer p.bare.infer := p.inferFrom_bare []

mutual

/-- Inference does the same without spans, except that it blames problems on nothing. -/
theorem Expr.infer_bare : ∀ (e : Expr) (scope : Scope Ty),
    Parallel (e.infer scope) (e.bare.infer scope)
  | .unit _, _ => parallel_pure _
  | .int .., _ => parallel_pure _
  | .name span x, scope => by
    unfold Expr.bare Expr.infer
    cases scope.get? x with
    | none => exact parallel_throw rfl
    | some t => exact parallel_resolve t
  | .tuple _ es, scope => (inferAll_bare es scope).bind fun _ => parallel_resolve _
  | .binop _ _ l r, scope => (infer_bare l scope).bind fun _ => (infer_bare r scope).bind fun _ =>
      (parallel_unify _ _ _).bind fun _ => parallel_pure _
  | .apply _ f a, scope => (infer_bare a scope).bind fun _ => (infer_bare f scope).bind fun _ =>
      parallel_fresh.bind fun _ => (parallel_unify _ _ _).bind fun _ => parallel_resolve _
  | .constructor _ _ a, scope => (infer_bare a scope).bind fun _ => parallel_resolve _
  | .function _ p b, scope => p.infer_bare.bind fun (_, bound) =>
      (infer_bare b (scope.down bound)).bind fun _ => parallel_resolve _
  | .cond _ p c a, scope => (infer_bare p scope).bind fun _ => (infer_bare c scope).bind fun _ =>
      (infer_bare a scope).bind fun _ => (parallel_unify _ _ _).bind fun _ => parallel_resolve _
  | .letIn _ p v b, scope => p.infer_bare.bind fun (_, bound) =>
      (infer_bare v (scope.down bound)).bind fun _ => (parallel_unify _ _ _).bind fun _ =>
        (infer_bare b (scope.down bound)).bind fun _ => parallel_resolve _
  | .matchOn span _ [], _ => by
    have told : (Event.emptyMatch span).bare = (Event.emptyMatch .origin).bare := rfl
    exact (parallel_tell told).bind fun _ => parallel_throw rfl
  | .matchOn _ e ((p, b) :: cases), scope => (infer_bare e scope).bind fun _ =>
      p.infer_bare.bind fun (_, bound) => (infer_bare b (scope.down bound)).bind fun _ =>
        (inferCases_bare cases scope).bind fun _ =>
          (parallel_unify _ _ _).bind fun _ => parallel_resolve _
  | .pattern p, _ => p.infer_bare.bind fun _ => parallel_pure _

theorem Expr.inferAll_bare : ∀ (es : List Expr) (scope : Scope Ty),
    Parallel (Expr.inferAll scope es) (Expr.inferAll scope (Expr.bareAll es))
  | [], _ => parallel_pure _
  | e :: es, scope => (infer_bare e scope).bind fun _ =>
      (inferAll_bare es scope).bind fun _ => parallel_pure _

theorem Expr.inferCases_bare : ∀ (cases : List (Pattern × Expr)) (scope : Scope Ty),
    Parallel (Expr.inferCases scope cases) (Expr.inferCases scope (Expr.bareCases cases))
  | [], _ => parallel_pure _
  | (p, b) :: cases, scope => p.infer_bare.bind fun (_, bound) =>
      (infer_bare b (scope.down bound)).bind fun _ =>
        (inferCases_bare cases scope).bind fun _ => parallel_pure _

end

theorem Expr.inferType_bare (e : Expr) (env : Bindings) :
    Parallel (e.inferType env) (e.bare.inferType env) := by
  refine (e.infer_bare (.top env)).bind fun t s s' same => ?_
  obtain ⟨next, subst, log⟩ := Session.bare_eq_iff.mp same
  refine congrArg (EStateM.Result.ok t) (Session.bare_eq_iff.mpr ⟨next, subst, ?_⟩)
  rw [List.map_append, List.map_append, log, subst]

/-! ### Texts without spans -/

mutual

theorem Expr.kindName_bare : ∀ e : Expr, e.bare.kindName = e.kindName
  | .unit _ | .int .. | .name .. | .tuple .. | .binop .. | .apply .. | .constructor ..
  | .function .. | .cond .. | .letIn .. | .matchOn .. => rfl
  | .pattern p => Pattern.kindName_bare p

theorem Pattern.kindName_bare : ∀ p : Pattern, p.bare.kindName = p.kindName
  | .unit _ | .int .. | .wildcard _ | .name .. | .constructor .. | .tuple .. => rfl
  | .expr e => Expr.kindName_bare e

end

mutual

theorem Pattern.text_bare : ∀ p : Pattern, p.bare.text = p.text
  | .unit _ | .int .. | .wildcard _ | .name .. => rfl
  | .constructor _ label arg => by
    rw [Pattern.bare, Pattern.text, Pattern.text, text_bare arg]
    cases arg <;> rfl
  | .tuple _ ps => by rw [Pattern.bare, Pattern.text, Pattern.text, textAll_bare ps]
  | .expr e => by rw [Pattern.bare, Pattern.text, Pattern.text, e.kindName_bare]

theorem Pattern.textAll_bare : ∀ ps : List Pattern,
    Pattern.textAll (Pattern.bareAll ps) = Pattern.textAll ps
  | [] => rfl
  | p :: ps => by
    rw [Pattern.bareAll, Pattern.textAll, Pattern.textAll, text_bare p, textAll_bare ps]

end

mutual

/-- Printing does not look at spans. -/
theorem Expr.print_bare : ∀ e : Expr, e.bare.print = e.print
  | .unit _ | .int .. | .name .. => rfl
  | .tuple _ es => by rw [Expr.bare, Expr.print, Expr.print, Expr.printAll_bare es]
  | .binop _ _ l r => by
    rw [Expr.bare, Expr.print, Expr.print, Expr.print_bare l, Expr.print_bare r]
  | .apply _ f a => by rw [Expr.bare, Expr.print, Expr.print, Expr.print_bare f, Expr.print_bare a]
  | .constructor _ _ a => by rw [Expr.bare, Expr.print, Expr.print, Expr.print_bare a]
  | .function _ p b => by
    rw [Expr.bare, Expr.print, Expr.print, Pattern.print_bare p, Expr.print_bare b]
  | .cond _ p c a => by
    rw [Expr.bare, Expr.print, Expr.print, Expr.print_bare p, Expr.print_bare c, Expr.print_bare a]
  | .letIn _ p v b => by
    rw [Expr.bare, Expr.print, Expr.print, Pattern.print_bare p, Expr.print_bare v,
      Expr.print_bare b]
  | .matchOn _ e cases => by
    simp only [Expr.bare, Expr.print, Expr.print_bare e, Expr.printCases_bare cases]
  | .pattern p => by rw [Expr.bare, Expr.print, Expr.print, Pattern.print_bare p]

theorem Pattern.print_bare : ∀ p : Pattern, p.bare.print = p.print
  | .expr e => by rw [Pattern.bare, Pattern.print, Pattern.print, Expr.print_bare e]
  | .unit _ | .int .. | .wildcard _ | .name .. => rfl
  | .constructor span label arg => congrArg Print.lift (Pattern.text_bare (.constructor span label arg))
  | .tuple span ps => congrArg Print.lift (Pattern.text_bare (.tuple span ps))

theorem Expr.printAll_bare : ∀ es : List Expr, Expr.printAll (Expr.bareAll es) = Expr.printAll es
  | [] => rfl
  | e :: es => by
    rw [Expr.bareAll, Expr.printAll, Expr.printAll, Expr.print_bare e, Expr.printAll_bare es]

theorem Expr.printCases_bare : ∀ (cases : List (Pattern × Expr)) (line : String),
    Expr.printCases line (Expr.bareCases cases) = Expr.printCases line cases
  | [], _ => rfl
  | (p, b) :: cases, line => by
    rw [Expr.bareCases, Expr.printCases, Expr.printCases, Pattern.print_bare p, Expr.print_bare b,
      Expr.printCases_bare cases]

end

/-! ### Trees that are the same -/

theorem Infer.bare_eq_ok {α : Type} {r : EStateM.Result Problem Session α} {a : α} {s : Session}
    (same : Infer.bare r = .ok a s) : ∃ s', r = .ok a s' ∧ s'.bare = s := by
  cases r with
  | ok b s' =>
    injection same with value session
    exact ⟨s', by rw [value], session⟩
  | error problem s' => cases same

theorem Infer.bare_eq_error {α : Type} {r : EStateM.Result Problem Session α} {problem : Problem}
    {s : Session} (same : Infer.bare r = .error problem s) :
    ∃ problem' s', r = .error problem' s' ∧ problem'.bare = problem ∧ s'.bare = s := by
  cases r with
  | ok b s' => cases same
  | error problem' s' =>
    injection same with blamed session
    exact ⟨problem', s', rfl, blamed, session⟩

/-- Trees that are the same have the same type with the same ids, or problems that are the same but
for the place they are blamed on, under every environment and from every session. The counter and the
substitution are the same afterwards and so is the log, up to spans. Both trees are printed alike from
every level. -/
theorem Expr.outcome_of_same {a b : Expr} (same : a.same b = true) (env : Bindings)
    (start : Session) :
    (∀ t s, a.inferType env start = .ok t s → ∃ s', b.inferType env start = .ok t s' ∧
      s'.next = s.next ∧ s'.subst = s.subst ∧ s'.log.map Event.bare = s.log.map Event.bare) ∧
    (∀ problem s, a.inferType env start = .error problem s →
      ∃ problem' s', b.inferType env start = .error problem' s' ∧ problem'.bare = problem.bare ∧
        s'.next = s.next ∧ s'.subst = s.subst ∧ s'.log.map Event.bare = s.log.map Event.bare) ∧
    ∀ level, a.print level = b.print level := by
  have trees : a.bare = b.bare := (Expr.same_iff a b).mp same
  have outcomes : Infer.bare (b.inferType env start) = Infer.bare (a.inferType env start) := by
    rw [b.inferType_bare env start start rfl, ← trees, a.inferType_bare env start start rfl]
  refine ⟨fun t s run => ?_, fun problem s run => ?_, fun level => ?_⟩
  · rw [run] at outcomes
    obtain ⟨s', run', session⟩ := Infer.bare_eq_ok outcomes
    exact ⟨s', run', Session.bare_eq_iff.mp session⟩
  · rw [run] at outcomes
    obtain ⟨problem', s', run', blamed, session⟩ := Infer.bare_eq_error outcomes
    exact ⟨problem', s', run', blamed, Session.bare_eq_iff.mp session⟩
  · rw [← a.print_bare, trees, b.print_bare]

/-- A function of pairs that is applied to a number, in two places of a text. -/
theorem Expr.outcome_of_same_moved :
    let tree (d : Int) := Expr.apply (.ofInts d (d + 15)) (.function (.ofInts (d + 1) (d + 12))
      (.tuple (.ofInts (d + 2) (d + 7)) [.name (.ofInts (d + 3) (d + 4)) "x", .wildcard .origin])
      (.name (.ofInts (d + 11) (d + 12)) "x")) (.int (.ofInts (d + 14) (d + 15)) 1)
    (tree 0).same (tree 40) = true ∧
      (∃ problem s, (tree 40).inferType [] { next := 7 } = .error problem s ∧
        problem.bare = .clash ⟨.mismatch, .int, .tuple [.var 7, .var 8]⟩ none ∧ s.next = 10) ∧
      (tree 0).print 3 = (tree 40).print 3 := by
  intro tree
  have same : (tree 0).same (tree 40) = true := by decide
  have run : (tree 0).inferType [] { next := 7 } = .error
      (.clash ⟨.mismatch, .int, .tuple [.var 7, .var 8]⟩ (some (.ofInts 0 15)))
      { next := 10, log := [.clashed ⟨.mismatch, .int, .tuple [.var 7, .var 8]⟩] } := by
    subst tree
    cbv
  obtain ⟨-, failure, prints⟩ := Expr.outcome_of_same same [] { next := 7 }
  obtain ⟨problem, s, run', blamed, next, -⟩ := failure _ _ run
  exact ⟨same, ⟨problem, s, run', blamed, next⟩, prints 3⟩

end Monotype
