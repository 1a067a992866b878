import Monotype.Proofs.Collect
import Monotype.Proofs.Soundness

/-!
# Solving at once and solving afterwards

Inference solves each equation as soon as it comes up, and between copies of types that are resolved
already. Collecting all equations first and solving them from left to right comes to the same: the
same entries in the same order, the same type, and where an equation clashes, the same clash. Resolved
copies of a type and the raw type are the same under all solutions of what is known (`Subst.Same`),
solving cannot tell such types apart (`Subst.unify_congr`), and a walk keeps them that way
(`Expr.infer_meets`). Main theorem: `Expr.inferType_eq_batch`.
-/

namespace Monotype

/-! ### Types that cannot be told apart -/

namespace Subst

/-- Both types are the same under every solution of what is known. -/
def Same (s : Subst) (t u : Ty) : Prop := ∀ θ, s.SolvedBy θ → t.inst θ = u.inst θ

/-- Both sides of two equations are the same under every solution of what is known. -/
def SameSides (s : Subst) (e e' : Equation) : Prop := s.Same e.left e'.left ∧ s.Same e.right e'.right

variable {s : Subst} {t u : Ty}

theorem Same.refl (s : Subst) (t : Ty) : s.Same t t := fun _ _ => rfl

theorem same_resolve (same : s.Same t u) : s.Same (s.resolve t) u := by
  intro θ solved
  rw [solved.inst_resolve, same θ solved]

theorem Same.resolve_eq (same : s.Same t u) (ordered : s.Ordered) : s.resolve t = s.resolve u :=
  same s.closure ordered.solvedBy_closure

theorem Same.fn {p p' : Ty} (param : s.Same p p') (result : s.Same t u) :
    s.Same (.fn p t) (.fn p' u) := by
  intro θ solved
  rw [Ty.inst, Ty.inst, param θ solved, result θ solved]

theorem Same.sum (label : String) (payload : s.Same t u) : s.Same (.sum label t) (.sum label u) := by
  intro θ solved
  rw [Ty.inst, Ty.inst, payload θ solved]

theorem Same.tuple_cons {ts us : List Ty} (head : s.Same t u) (tail : s.Same (.tuple ts) (.tuple us)) :
    s.Same (.tuple (t :: ts)) (.tuple (u :: us)) := by
  intro θ solved
  have elements := Ty.tuple.inj (tail θ solved)
  rw [Ty.inst, Ty.inst, Ty.instAll, Ty.instAll, head θ solved, elements]

/-- What is known later has fewer solutions. -/
theorem Same.later {s s' : Session} (same : s.subst.Same t u) (extended : s.Extends s') :
    s'.subst.Same t u :=
  fun θ solved => same θ (extended.solvedBy solved)

end Subst

namespace Task

/-- The part of an entry that decides what is found. -/
def pending : Task → Option Equation
  | .solve _ now => some now
  | .close _ => none

theorem pending_eq_cons_solve {now : Equation} {rest agenda : List Task}
    (same : some now :: rest.map pending = agenda.map pending) :
    ∃ asked rest', agenda = .solve asked now :: rest' ∧ rest.map pending = rest'.map pending := by
  obtain ⟨task, rest', rfl, head, tail⟩ := List.map_eq_cons_iff.mp same.symm
  cases task with
  | solve asked now' =>
    obtain rfl := Option.some.inj head
    exact ⟨asked, rest', rfl, tail.symm⟩
  | close asked => simp [pending] at head

theorem pending_assignAll (v : Int) (t : Ty) (agenda : List Task) :
    (assignAll v t agenda).map pending =
      (agenda.map pending).map (Option.map (Equation.inst (Ty.assign v t))) := by
  rw [assignAll, List.map_map, List.map_map]
  refine List.map_congr_left fun task _ => ?_
  cases task <;> rfl

/-- How an equation was put makes no difference to what is found. -/
theorem solveAll_pending {agenda agenda' : List Task}
    (same : agenda.map pending = agenda'.map pending) :
    (solveAll agenda).found = (solveAll agenda').found ∧
      (solveAll agenda).clash = (solveAll agenda').clash := by
  fun_induction solveAll agenda generalizing agenda' with
  | case1 =>
    obtain rfl : agenda' = [] := by simpa using same.symm
    simp [solveAll]
  | case2 e rest ih =>
    obtain ⟨task, rest', rfl, head, tail⟩ := List.map_eq_cons_iff.mp same.symm
    cases task with
    | solve asked now => simp [pending] at head
    | close asked =>
      rw [solveAll]
      exact ih tail.symm
  | case3 asked now rest done ih =>
    obtain ⟨asked', rest', rfl, tail⟩ := pending_eq_cons_solve same
    rw [solveAll_solve asked', done]
    exact ih (congrArg (none :: ·) tail)
  | case4 asked now rest v t bound ih =>
    obtain ⟨asked', rest', rfl, tail⟩ := pending_eq_cons_solve same
    have later : (Task.close asked :: assignAll v t rest).map pending =
        (Task.close asked' :: assignAll v t rest').map pending := by
      rw [List.map_cons, List.map_cons, pending_assignAll, pending_assignAll, tail]
      rfl
    obtain ⟨found, clash⟩ := ih later
    rw [solveAll_solve asked', bound]
    exact ⟨congrArg ((v, t) :: ·) found, clash⟩
  | case5 asked now rest parts split ih =>
    obtain ⟨asked', rest', rfl, tail⟩ := pending_eq_cons_solve same
    rw [solveAll_solve asked', split]
    refine ih ?_
    rw [List.map_append, List.map_append, List.map_cons, List.map_cons, tail]
    rfl
  | case6 asked now rest c clash =>
    obtain ⟨asked', rest', rfl, tail⟩ := pending_eq_cons_solve same
    rw [solveAll_solve asked', clash]
    exact ⟨rfl, rfl⟩

end Task

namespace Subst

variable {s : Subst}

theorem solve_congr {e e' : Equation} (same : s.SameSides e e') (ordered : s.Ordered) :
    (s.solve e).found = (s.solve e').found ∧ (s.solve e).clash = (s.solve e').clash := by
  apply Task.solveAll_pending
  have left := same.1.resolve_eq ordered
  have right := same.2.resolve_eq ordered
  simp only [List.map_cons, Task.pending, Equation.resolve, left, right]

/-- Solving does not tell types apart that are the same under every solution of what is known. -/
theorem unify_congr {es es' : List Equation} (same : List.Forall₂ s.SameSides es es')
    (ordered : s.Ordered) :
    (s.unify es).subst = (s.unify es').subst ∧ (s.unify es).clash = (s.unify es').clash := by
  induction es generalizing s es' with
  | nil =>
    cases same
    exact ⟨rfl, rfl⟩
  | cons e es ih =>
    cases same with
    | cons first rest =>
    have ⟨found, clash⟩ := solve_congr first ordered
    rw [unify_cons, unify_cons, ← found, ← clash]
    cases (s.solve e).clash with
    | some c => exact ⟨rfl, rfl⟩
    | none =>
      refine ih (rest.imp fun _ _ sides => ?_) (ordered_solve e ordered)
      -- What the first equation adds leaves fewer solutions.
      exact ⟨fun θ solved => sides.1 θ (solvedBy_append.mp solved).1,
        fun θ solved => sides.2 θ (solvedBy_append.mp solved).1⟩

end Subst

/-! ### Solving what was collected -/

namespace Demand

theorem solve_all (s : Subst) (span : Span) (es : List Equation) :
    solve s (all span es) = ((s.unify es).subst, (s.unify es).clash.map fun c => (c, span)) := by
  induction es generalizing s with
  | nil => rfl
  | cons e es ih =>
    have first : all span (e :: es) = ⟨e, span⟩ :: all span es := rfl
    rw [first, solve, Subst.unify_cons, Subst.unify_cons]
    cases (s.solve e).clash with
    | some c => rfl
    | none => exact ih _

theorem solve_append (s : Subst) (ds ds' : List Demand) :
    solve s (ds ++ ds') = match solve s ds with
      | (known, some clash) => (known, some clash)
      | (known, none) => solve known ds' := by
  induction ds generalizing s with
  | nil => rfl
  | cons d ds ih =>
    simp only [List.cons_append, solve]
    cases (s.unify [d.equation]).clash with
    | some c => rfl
    | none => exact ih _

end Demand

/-- The result of a walk once its equations are solved, and what is known then. A clash comes first,
as the equations came up before the walk ended. -/
def Collected.settle {α : Type} (s : Subst) (c : Collected α) : Except Problem α × Subst :=
  match Demand.solve s c.demands with
  | (known, some (clash, span)) => (.error (.clash clash (some span)), known)
  | (known, none) => (c.result, known)

theorem Collect.settle_bind {α β : Type} (x : Collect α) (f : α → Collect β) (next : Int)
    (s : Subst) :
    ((x >>= f) next).settle s = match (x next).settle s with
      | (.error problem, known) => (.error problem, known)
      | (.ok a, known) => (f a (x next).next).settle known := by
  unfold Collected.settle
  simp only [Bind.bind]
  cases result : (x next).result with
  | error problem =>
    rcases Demand.solve s (x next).demands with ⟨known, _ | clash⟩
    · rfl
    · rfl
  | ok a =>
    dsimp only
    rw [Demand.solve_append]
    rcases Demand.solve s (x next).demands with ⟨known, _ | clash⟩
    · rfl
    · rfl

theorem Collected.settle_ok {α : Type} {s known : Subst} {c : Collected α} {a : α}
    (settled : c.settle s = (.ok a, known)) : c.result = .ok a := by
  unfold Collected.settle at settled
  split at settled
  · cases settled
  · exact (Prod.mk.inj settled).1

theorem Collect.next_bind {α β : Type} {x : Collect α} {f : α → Collect β} {next : Int} {a : α}
    (result : (x next).result = .ok a) : ((x >>= f) next).next = (f a (x next).next).next := by
  simp only [Bind.bind, result]

theorem Collect.settle_demand (span : Span) (es : List Equation) (next : Int) (s : Subst) :
    (Collect.demand span es next).settle s = (match (s.unify es).clash with
      | some c => .error (.clash c (some span))
      | none => .ok (), (s.unify es).subst) := by
  unfold Collected.settle
  simp only [Collect.demand, Demand.solve_all]
  cases (s.unify es).clash <;> rfl

/-! ### Runs beside walks -/

namespace Infer

variable {α β γ δ : Type} {s : Session}

/-- A run from a session meets a walk from the same next id: it ends as the walk does once its
equations are solved on top of what the session knows. `R` says how the two results are related by
what is known at the end. -/
def Meets (s : Session) (x : Infer α) (c : Collected β) (R : Subst → α → β → Prop) : Prop :=
  match c.settle s.subst with
  | (.error problem, known) => ∃ s', x s = .error problem s' ∧ s'.subst = known
  | (.ok b, known) =>
    ∃ a s', x s = .ok a s' ∧ s.Extends s' ∧ s'.subst = known ∧ s'.next = c.next ∧ R known a b

theorem Meets.bind {x : Infer α} {y : Collect β} {f : α → Infer γ} {g : β → Collect δ}
    {R : Subst → α → β → Prop} {S : Subst → γ → δ → Prop} (first : Meets s x (y s.next) R)
    (second : ∀ a b s', s.Extends s' → R s'.subst a b → Meets s' (f a) (g b s'.next) S) :
    Meets s (x >>= f) ((y >>= g) s.next) S := by
  unfold Meets at first second ⊢
  rw [Collect.settle_bind, run_bind]
  cases settled : (y s.next).settle s.subst with
  | mk outcome known =>
  rw [settled] at first
  cases outcome with
  | error problem =>
    obtain ⟨s₁, run, same⟩ := first
    refine ⟨s₁, ?_, same⟩
    rw [run]
  | ok b =>
    obtain ⟨a, s₁, run, extended, rfl, next, related⟩ := first
    have rest := second a b s₁ extended related
    rw [run, Collect.next_bind (Collected.settle_ok settled), ← next]
    dsimp only
    split
    · next ended => rwa [ended] at rest
    · next ended =>
      rw [ended] at rest
      obtain ⟨c, s₂, run₂, extended₂, rest⟩ := rest
      exact ⟨c, s₂, run₂, extended.trans extended₂, rest⟩

theorem meets_pure {R : Subst → α → β → Prop} {a : α} {b : β} (related : R s.subst a b) :
    Meets s (pure a) ((pure b : Collect β) s.next) R :=
  ⟨a, s, rfl, .refl s, rfl, rfl, related⟩

theorem meets_resolve {t u : Ty} (same : s.subst.Same t u) :
    Meets s (resolve t) ((pure u : Collect Ty) s.next) Subst.Same :=
  ⟨s.subst.resolve t, s, rfl, .refl s, rfl, rfl, Subst.same_resolve same⟩

theorem Meets.resolve {x : Infer Ty} {c : Collected Ty} (meets : Meets s x c Subst.Same) :
    Meets s (x >>= fun t => Infer.resolve t) c Subst.Same := by
  unfold Meets at meets ⊢
  rw [run_bind]
  split
  · next settled =>
    rw [settled] at meets
    obtain ⟨s', run, same⟩ := meets
    exact ⟨s', by rw [run], same⟩
  · next settled =>
    rw [settled] at meets
    obtain ⟨t, s', run, extended, rfl, next, same⟩ := meets
    refine ⟨s'.subst.resolve t, s', ?_, extended, rfl, next, Subst.same_resolve same⟩
    rw [run]
    rfl

theorem meets_stop {R : Subst → α → β → Prop} (problem : Problem) :
    Meets s (throw problem) ((Collect.stop problem : Collect β) s.next) R :=
  ⟨s, rfl, rfl⟩

theorem meets_fresh : Meets s fresh (Collect.fresh s.next) fun _ => Eq :=
  ⟨.var s.next, _, rfl, extending_fresh s, rfl, rfl, rfl⟩

theorem meets_unify {span : Span} {es es' : List Equation}
    (same : List.Forall₂ s.subst.SameSides es es') (ordered : s.subst.Ordered) :
    Meets s (unify span es) (Collect.demand span es' s.next) fun _ _ _ => True := by
  have ⟨subst, clash⟩ := Subst.unify_congr same ordered
  unfold Meets
  rw [Collect.settle_demand, ← subst, ← clash]
  cases ended : (s.subst.unify es).clash with
  | some c =>
    refine ⟨{ s with subst := (s.subst.unify es).subst, log := s.log ++ (s.subst.unify es).log },
      ?_, rfl⟩
    simp only [unify, ended]
  | none =>
    have run : unify (some span) es s = .ok () _ := unify_ok.mpr ⟨ended, rfl⟩
    exact ⟨(), _, run, (extending_unify _ es).of_ok run, rfl, rfl, trivial⟩

/-! ### Patterns -/

/-- A computation that never looks at what is known: it does the same in a session that knows
nothing. -/
def Blind (x : Infer α) : Prop := ∀ s : Session, x s = match x { next := s.next } with
  | .ok a s' => .ok a { s with next := s'.next, log := s.log ++ s'.log }
  | .error problem s' => .error problem { s with next := s'.next, log := s.log ++ s'.log }

theorem blind_pure (a : α) : Blind (pure a) := fun s => by
  change EStateM.Result.ok a s = .ok a { s with log := s.log ++ [] }
  rw [List.append_nil]

theorem blind_throw (problem : Problem) : Blind (throw problem : Infer α) := fun s => by
  change EStateM.Result.error problem s = .error problem { s with log := s.log ++ [] }
  rw [List.append_nil]

theorem blind_fresh : Blind fresh := fun s => by
  change EStateM.Result.ok _ { s with next := s.next + 1 } =
    .ok _ { s with next := s.next + 1, log := s.log ++ [] }
  rw [List.append_nil]

theorem blind_tell (e : Event) : Blind (tell e) := fun _ => rfl

theorem Blind.bind {x : Infer α} {f : α → Infer β} (first : Blind x) (second : ∀ a, Blind (f a)) :
    Blind (x >>= f) := by
  intro s
  rw [run_bind, run_bind, first s]
  cases x { next := s.next } with
  | error problem s₁ => rfl
  | ok a s₁ =>
    dsimp only
    rw [second a s₁, second a]
    cases f a { next := s₁.next } with
    | error problem s₂ => simp only [List.append_assoc]
    | ok b s₂ => simp only [List.append_assoc]

end Infer

open Infer

mutual

theorem Pattern.inferFrom_blind : ∀ (seen : List String) (p : Pattern), Blind (p.inferFrom seen)
  | _, .unit _ => blind_pure _
  | _, .int .. => blind_pure _
  | _, .wildcard _ => blind_fresh.bind fun _ => blind_pure _
  | seen, .name span x => by
    unfold Pattern.inferFrom
    split
    · exact (blind_tell _).bind fun _ => (blind_throw _).bind fun _ =>
        blind_fresh.bind fun _ => blind_pure _
    · exact blind_fresh.bind fun _ => blind_pure _
  | seen, .constructor _ _ arg => (inferFrom_blind seen arg).bind fun _ => blind_pure _
  | seen, .tuple _ ps => (inferAllFrom_blind seen ps).bind fun _ => blind_pure _
  | _, .expr _ => blind_throw _

theorem Pattern.inferAllFrom_blind : ∀ (seen : List String) (ps : List Pattern),
    Blind (Pattern.inferAllFrom seen ps)
  | _, [] => blind_pure _
  | seen, p :: ps => (inferFrom_blind seen p).bind fun _ =>
      (inferAllFrom_blind _ ps).bind fun _ => blind_pure _

end

theorem Pattern.infer_blind (p : Pattern) : Blind p.infer := inferFrom_blind [] p

theorem Infer.meets_pattern (p : Pattern) (s : Session) :
    Meets s p.infer (Collect.pattern p s.next) fun _ => Eq := by
  have same := p.infer_blind s
  unfold Meets Collect.pattern Collected.settle
  cases run : p.infer { next := s.next } with
  | error problem s' =>
    rw [run] at same
    exact ⟨_, same, rfl⟩
  | ok result s' =>
    rw [run] at same
    exact ⟨result, _, same, p.infer_extending.of_ok same, rfl, rfl, rfl⟩

/-! ### Expressions -/

theorem sameSides_caseEquations {known : Subst} {p b subject p' b' subject' : Ty}
    {types raws : List (Ty × Ty)} (pattern : known.Same p p') (body : known.Same b b')
    (same : known.Same subject subject')
    (others : List.Forall₂ (fun c d => known.Same c.1 d.1 ∧ known.Same c.2 d.2) types raws) :
    List.Forall₂ known.SameSides (caseEquations (p, b) types subject)
      (caseEquations (p', b') raws subject') := by
  induction others with
  | nil => exact .cons ⟨pattern, same⟩ .nil
  | cons head _ ih => exact .cons ⟨pattern, head.1⟩ (.cons ⟨body, head.2⟩ ih)

mutual

/-- Inference ends as the walk does once its equations are solved, with a type that is the raw one
under every solution of what is known then. -/
theorem Expr.infer_meets : ∀ (e : Expr) {scope : Scope Ty} {s : Session}, s.subst.Reachable →
    Meets s (e.infer scope) (e.collect scope s.next) Subst.Same
  | .unit _, _, _, _ => meets_pure (.refl _ _)
  | .int .., _, _, _ => meets_pure (.refl _ _)
  | .name span x, scope, s, _ => by
    unfold Expr.infer Expr.collect
    cases scope.get? x with
    | none => exact meets_stop _
    | some t => exact meets_resolve (.refl _ t)
  | .tuple span es, scope, s, reachable => by
    refine (inferAll_meets es reachable).bind fun ts us s₁ _ same => ?_
    exact meets_resolve same
  | .binop span op l r, scope, s, reachable => by
    refine (infer_meets l reachable).bind fun lt lu s₁ ext₁ left => ?_
    have reachable₁ := ext₁.reachable reachable
    refine (infer_meets r reachable₁).bind fun rt ru s₂ ext₂ right => ?_
    have sides : List.Forall₂ s₂.subst.SameSides [⟨lt, .int⟩, ⟨rt, .int⟩] [⟨lu, .int⟩, ⟨ru, .int⟩] :=
      .cons ⟨left.later ext₂, .refl _ _⟩ (.cons ⟨right, .refl _ _⟩ .nil)
    refine (meets_unify sides (ext₂.reachable reachable₁).ordered).bind fun _ _ s₃ _ _ => ?_
    exact meets_pure (.refl _ _)
  | .apply span f a, scope, s, reachable => by
    refine (infer_meets a reachable).bind fun argTy argRaw s₁ ext₁ arg => ?_
    have reachable₁ := ext₁.reachable reachable
    refine (infer_meets f reachable₁).bind fun funcTy funcRaw s₂ ext₂ func => ?_
    refine meets_fresh.bind fun result _ s₃ ext₃ same => ?_
    subst same
    have sides : List.Forall₂ s₃.subst.SameSides [⟨.fn argTy result, funcTy⟩]
        [⟨.fn argRaw result, funcRaw⟩] :=
      .cons ⟨.fn (arg.later (ext₂.trans ext₃)) (.refl _ _), func.later ext₃⟩ .nil
    have reachable₃ := ext₃.reachable (ext₂.reachable reachable₁)
    refine (meets_unify sides reachable₃.ordered).bind fun _ _ s₄ _ _ => ?_
    exact meets_resolve (.refl _ _)
  | .constructor span label a, scope, s, reachable => by
    refine (infer_meets a reachable).bind fun t u s₁ _ same => ?_
    exact meets_resolve (same.sum label)
  | .function span p b, scope, s, reachable => by
    refine (meets_pattern p s).bind fun result _ s₁ ext₁ same => ?_
    subst same
    refine (infer_meets b (ext₁.reachable reachable)).bind fun t u s₂ _ same => ?_
    exact meets_resolve (.fn (.refl _ _) same)
  | .cond span p c a, scope, s, reachable => by
    refine (infer_meets p reachable).bind fun predTy predRaw s₁ ext₁ pred => ?_
    have reachable₁ := ext₁.reachable reachable
    refine (infer_meets c reachable₁).bind fun consTy consRaw s₂ ext₂ cons => ?_
    have reachable₂ := ext₂.reachable reachable₁
    refine (infer_meets a reachable₂).bind fun altTy altRaw s₃ ext₃ alt => ?_
    have sides : List.Forall₂ s₃.subst.SameSides [⟨predTy, .int⟩, ⟨consTy, altTy⟩]
        [⟨predRaw, .int⟩, ⟨consRaw, altRaw⟩] :=
      .cons ⟨pred.later (ext₂.trans ext₃), .refl _ _⟩ (.cons ⟨cons.later ext₃, alt⟩ .nil)
    refine (meets_unify sides (ext₃.reachable reachable₂).ordered).bind fun _ _ s₄ ext₄ _ => ?_
    exact meets_resolve (cons.later (ext₃.trans ext₄))
  | .letIn span p v b, scope, s, reachable => by
    refine (meets_pattern p s).bind fun result _ s₁ ext₁ same => ?_
    subst same
    have reachable₁ := ext₁.reachable reachable
    refine (infer_meets v reachable₁).bind fun valueTy valueRaw s₂ ext₂ value => ?_
    have reachable₂ := ext₂.reachable reachable₁
    have sides : List.Forall₂ s₂.subst.SameSides [⟨result.1, valueTy⟩] [⟨result.1, valueRaw⟩] :=
      .cons ⟨.refl _ _, value⟩ .nil
    refine (meets_unify sides reachable₂.ordered).bind fun _ _ s₃ ext₃ _ => ?_
    exact (infer_meets b (ext₃.reachable reachable₂)).resolve
  | .matchOn span e [], scope, s, _ => ⟨_, rfl, rfl⟩
  | .matchOn span e ((p, b) :: rest), scope, s, reachable => by
    refine (infer_meets e reachable).bind fun subjectTy subjectRaw s₁ ext₁ subject => ?_
    have reachable₁ := ext₁.reachable reachable
    refine (meets_pattern p s₁).bind fun result _ s₂ ext₂ same => ?_
    subst same
    have reachable₂ := ext₂.reachable reachable₁
    refine (infer_meets b reachable₂).bind fun bodyTy bodyRaw s₃ ext₃ body => ?_
    have reachable₃ := ext₃.reachable reachable₂
    refine (inferCases_meets rest reachable₃).bind fun types raws s₄ ext₄ others => ?_
    have sides := sameSides_caseEquations (.refl _ result.1) (body.later ext₄)
      (subject.later ((ext₂.trans ext₃).trans ext₄)) others
    refine (meets_unify sides (ext₄.reachable reachable₃).ordered).bind fun _ _ s₅ ext₅ _ => ?_
    exact meets_resolve (body.later (ext₄.trans ext₅))
  | .pattern p, scope, s, _ => by
    refine (meets_pattern p s).bind fun result _ s₁ _ same => ?_
    subst same
    exact meets_pure (.refl _ _)

theorem Expr.inferAll_meets : ∀ (es : List Expr) {scope : Scope Ty} {s : Session},
    s.subst.Reachable → Meets s (Expr.inferAll scope es) (Expr.collectAll scope es s.next)
      fun known ts us => known.Same (.tuple ts) (.tuple us)
  | [], _, _, _ => meets_pure (.refl _ _)
  | e :: es, scope, s, reachable => by
    refine (infer_meets e reachable).bind fun t u s₁ ext₁ head => ?_
    refine (inferAll_meets es (ext₁.reachable reachable)).bind fun ts us s₂ ext₂ tail => ?_
    exact meets_pure ((head.later ext₂).tuple_cons tail)

theorem Expr.inferCases_meets : ∀ (cases : List (Pattern × Expr)) {scope : Scope Ty} {s : Session},
    s.subst.Reachable → Meets s (Expr.inferCases scope cases) (Expr.collectCases scope cases s.next)
      fun known => List.Forall₂ fun c d => known.Same c.1 d.1 ∧ known.Same c.2 d.2
  | [], _, _, _ => meets_pure .nil
  | (p, b) :: cases, scope, s, reachable => by
    refine (meets_pattern p s).bind fun result _ s₁ ext₁ same => ?_
    subst same
    have reachable₁ := ext₁.reachable reachable
    refine (infer_meets b reachable₁).bind fun bodyTy bodyRaw s₂ ext₂ body => ?_
    refine (inferCases_meets cases (ext₂.reachable reachable₁)).bind fun types raws s₃ ext₃ rest => ?_
    exact meets_pure (.cons ⟨.refl _ _, body.later ext₃⟩ rest)

end

/-! ### Whole expressions -/

/-- The result is resolved, unless it is the type of a pattern in the place of the whole expression,
about which nothing is known. -/
theorem Expr.infer_eq_resolve {e : Expr} {scope : Scope Ty} {first : Int} {t : Ty} {s' : Session}
    (run : e.infer scope { next := first } = .ok t s') : s'.subst.resolve t = t := by
  have ordered : s'.subst.Ordered := ((infer_extends run).reachable .empty).ordered
  cases e with
  | pattern p =>
    simp only [Expr.infer, bind_ok, pure_ok, Prod.exists] at run
    obtain ⟨patTy, Δ, s₁, patRun, rfl, rfl⟩ := run
    have unchanged := (p.inferFrom_sound patRun).1.subst_eq
    rw [unchanged]
    exact Subst.resolve_eq_self (by simp)
  | _ => exact Expr.infer_resolves scope _ (by simp) _ _ _ run ordered

/-- Solving all equations of an expression after they were collected does what inference does. If
they have a solution, inference returns the raw type resolved by it and leaves the same entries
behind; if one of them clashes, inference stops with this clash and blames the same span. -/
theorem Expr.inferType_eq_batch {e : Expr} {env : Bindings}
    (closed : e.closed (env.map (·.1)) = true) (first : Int) :
    let walk := e.collect (.top env) first
    ∃ raw, walk.result = .ok raw ∧
      (∀ s, Demand.solve [] walk.demands = (s, none) → ∃ final,
        e.inferType env { next := first } = .ok (s.resolve raw) final ∧ final.subst = s ∧
          final.next = walk.next) ∧
      ∀ s c span, Demand.solve [] walk.demands = (s, some (c, span)) → ∃ final,
        e.inferType env { next := first } = .error (.clash c (some span)) final ∧
          final.subst = s := by
  have completes : (e.collect (.top env)).Completes fun _ => True := e.collect_completes closed
  obtain ⟨raw, result, -⟩ := completes first
  have meets : Meets { next := first } (e.infer (.top env)) (e.collect (.top env) first) Subst.Same :=
    e.infer_meets .empty
  unfold Meets Collected.settle at meets
  refine ⟨raw, result, fun s solved => ?_, fun s c span clashed => ?_⟩
  · simp only [solved, result] at meets
    obtain ⟨t, s', run, extended, rfl, next, same⟩ := meets
    have ordered := (extended.reachable .empty).ordered
    have final := Expr.inferType_ok.mpr ⟨s', run, rfl⟩
    rw [← Expr.infer_eq_resolve run, same.resolve_eq ordered] at final
    exact ⟨_, final, rfl, next⟩
  · simp only [clashed] at meets
    obtain ⟨s', run, same⟩ := meets
    refine ⟨s', ?_, same⟩
    unfold Expr.inferType
    rw [run_bind, run]

/-- A recursive function applied to an integer, and a parameter that is added to and then applied. -/
theorem Expr.inferType_eq_batch_recursion :
    let f := Expr.name .origin "f"
    let x := Expr.name .origin "x"
    (∃ raw final, Expr.inferType [] (.letIn .origin (.name .origin "f")
        (.function .origin (.name .origin "x") (.apply .origin f x))
        (.apply .origin f (.int .origin 1))) { next := 1 } = .ok (final.subst.resolve raw) final ∧
      final.subst = [(1, .fn (.var 2) (.var 3)), (2, .int), (4, .var 3)] ∧ final.next = 5) ∧
    ∃ final, Expr.inferType [] (.function .origin (.name .origin "x") (.tuple .origin
        [.binop .origin "+" x (.int .origin 1), .apply (.ofInts 5 9) x (.unit .origin)]))
          { next := 1 } =
        .error (.clash ⟨.mismatch, .fn .unit (.var 2), .int⟩ (some (.ofInts 5 9))) final ∧
      final.subst = [(1, .int)] := by
  constructor
  · obtain ⟨raw, -, succeeds, -⟩ := @Expr.inferType_eq_batch
      (.letIn .origin (.name .origin "f") (.function .origin (.name .origin "x")
        (.apply .origin (.name .origin "f") (.name .origin "x")))
        (.apply .origin (.name .origin "f") (.int .origin 1))) [] (by decide) 1
    obtain ⟨final, run, same, next⟩ :=
      succeeds [(1, .fn (.var 2) (.var 3)), (2, .int), (4, .var 3)] (by cbv)
    exact ⟨raw, final, same ▸ run, same, next⟩
  · obtain ⟨-, -, -, clashes⟩ := @Expr.inferType_eq_batch
      (.function .origin (.name .origin "x") (.tuple .origin
        [.binop .origin "+" (.name .origin "x") (.int .origin 1),
          .apply (.ofInts 5 9) (.name .origin "x") (.unit .origin)])) [] (by decide) 1
    exact clashes [(1, .int)] ⟨.mismatch, .fn .unit (.var 2), .int⟩ (.ofInts 5 9) (by cbv)

end Monotype
