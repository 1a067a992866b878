import Monotype.Proofs.Session
import Monotype.Proofs.Typing

/-!
# Equations collected beforehand

A second way to look at inference: walk the expression in the same order and with the same fresh ids,
but write every equation down and solve none. Types come out raw, as nothing is known that they could
be resolved by. An expression whose names are bound, whose patterns bind no name twice and whose
matches have cases is walked to its end (`Expr.collect_completes`).
-/

namespace Monotype

/-- An equation, with the span that is blamed if it has no solution. -/
structure Demand where
  equation : Equation
  span : Span
deriving Repr, DecidableEq

namespace Demand

/-- The equations that come up together at one node. -/
def all (span : Span) (es : List Equation) : List Demand := es.map fun e => ⟨e, span⟩

/-- Solves equations from left to right, up to the first that clashes. -/
def solve (s : Subst) : List Demand → Subst × Option (Clash × Span)
  | [] => (s, none)
  | d :: ds =>
    let u := s.unify [d.equation]
    match u.clash with
    | some c => (u.subst, some (c, d.span))
    | none => solve u.subst ds

end Demand

/-! ### Collecting -/

/-- What came of a walk: the equations in the order in which they came up, the next id, and either a
result or the problem that ended the walk. -/
structure Collected (α : Type) where
  demands : List Demand
  next : Int
  result : Except Problem α

/-- Walks that give out ids and write equations down. There is no substitution to look at. -/
def Collect (α : Type) := Int → Collected α

namespace Collect

variable {α β : Type}

instance : Monad Collect where
  pure a := fun next => ⟨[], next, .ok a⟩
  bind x f := fun next =>
    let first := x next
    match first.result with
    | .error problem => ⟨first.demands, first.next, .error problem⟩
    | .ok a =>
      let second := f a first.next
      { second with demands := first.demands ++ second.demands }

def stop (problem : Problem) : Collect α := fun next => ⟨[], next, .error problem⟩

def fresh : Collect Ty := fun next => ⟨[], next + 1, .ok (.var next)⟩

/-- Writes equations down. -/
def demand (span : Span) (es : List Equation) : Collect Unit :=
  fun next => ⟨Demand.all span es, next, .ok ()⟩

/-- The type and the names of a pattern, which has no equations. -/
def pattern (p : Pattern) : Collect (Ty × Bindings) := fun next =>
  match p.infer { next := next } with
  | .ok result s => ⟨[], s.next, .ok result⟩
  | .error problem s => ⟨[], s.next, .error problem⟩

end Collect

mutual

/-- The raw type of an expression whose free names are typed by the scope. -/
def Expr.collect (scope : Scope Ty) : Expr → Collect Ty
  | .unit _ => return .unit
  | .int .. => return .int
  | .name span x =>
    match scope.get? x with
    | some t => return t
    | none => Collect.stop (.undefinedName x span)
  | .tuple _ elements => return .tuple (← Expr.collectAll scope elements)
  | .binop span _ left right => do
    let l ← left.collect scope
    let r ← right.collect scope
    Collect.demand span [⟨l, .int⟩, ⟨r, .int⟩]
    return .int
  | .apply span func arg => do
    let a ← arg.collect scope
    let f ← func.collect scope
    let result ← Collect.fresh
    Collect.demand span [⟨.fn a result, f⟩]
    return result
  | .constructor _ label arg => return .sum label (← arg.collect scope)
  | .function _ param body => do
    let (p, bound) ← Collect.pattern param
    return .fn p (← body.collect (scope.down bound))
  | .cond span pred cons alt => do
    let p ← pred.collect scope
    let c ← cons.collect scope
    let a ← alt.collect scope
    Collect.demand span [⟨p, .int⟩, ⟨c, a⟩]
    return c
  | .letIn span target value body => do
    let (t, bound) ← Collect.pattern target
    let v ← value.collect (scope.down bound)
    Collect.demand span [⟨t, v⟩]
    body.collect (scope.down bound)
  | .matchOn _ _ [] => Collect.stop .emptyMatch
  | .matchOn span subject ((binder, body) :: rest) => do
    let s ← subject.collect scope
    let (p, bound) ← Collect.pattern binder
    let b ← body.collect (scope.down bound)
    let others ← Expr.collectCases scope rest
    Collect.demand span (caseEquations (p, b) others s)
    return b
  | .pattern p => return (← Collect.pattern p).1

def Expr.collectAll (scope : Scope Ty) : List Expr → Collect (List Ty)
  | [] => return []
  | e :: es => do
    let t ← e.collect scope
    return t :: (← Expr.collectAll scope es)

def Expr.collectCases (scope : Scope Ty) : List (Pattern × Expr) → Collect (List (Ty × Ty))
  | [] => return []
  | (binder, body) :: cases => do
    let (p, bound) ← Collect.pattern binder
    let b ← body.collect (scope.down bound)
    return (p, b) :: (← Expr.collectCases scope cases)

end

/-! ### Expressions with all names bound -/

mutual

/-- The names that a pattern binds, from left to right. -/
def Pattern.names : Pattern → List String
  | .unit _ | .int .. | .wildcard _ | .expr _ => []
  | .name _ x => [x]
  | .constructor _ _ arg => arg.names
  | .tuple _ elements => Pattern.namesAll elements

def Pattern.namesAll : List Pattern → List String
  | [] => []
  | p :: ps => p.names ++ Pattern.namesAll ps

end

mutual

/-- Whether no expression stands where a pattern is expected. -/
def Pattern.proper : Pattern → Bool
  | .unit _ | .int .. | .wildcard _ | .name .. => true
  | .constructor _ _ arg => arg.proper
  | .tuple _ elements => Pattern.properAll elements
  | .expr _ => false

def Pattern.properAll : List Pattern → Bool
  | [] => true
  | p :: ps => p.proper && Pattern.properAll ps

end

/-- Whether a pattern binds no name twice. -/
def Pattern.linear (p : Pattern) : Bool := p.proper && decide p.names.Nodup

mutual

/-- Whether every name is one of the given ones or bound by a pattern around it, no pattern binds a
name twice, and every match has a case. -/
def Expr.closed (names : List String) : Expr → Bool
  | .unit _ | .int .. => true
  | .name _ x => names.contains x
  | .tuple _ es => Expr.closedAll names es
  | .binop _ _ l r => l.closed names && r.closed names
  | .apply _ f a => f.closed names && a.closed names
  | .constructor _ _ a => a.closed names
  | .function _ p b => p.linear && b.closed (p.names ++ names)
  | .cond _ p c a => p.closed names && c.closed names && a.closed names
  | .letIn _ p v b => p.linear && v.closed (p.names ++ names) && b.closed (p.names ++ names)
  | .matchOn _ e cases => e.closed names && !cases.isEmpty && Expr.closedCases names cases
  | .pattern p => p.linear

def Expr.closedAll (names : List String) : List Expr → Bool
  | [] => true
  | e :: es => e.closed names && Expr.closedAll names es

def Expr.closedCases (names : List String) : List (Pattern × Expr) → Bool
  | [] => true
  | (p, b) :: cases => p.linear && b.closed (p.names ++ names) && Expr.closedCases names cases

end

/-! ### Walks that reach their end -/

open Infer in
mutual

theorem Pattern.inferFrom_linear : ∀ (p : Pattern) {seen : List String} (s : Session),
    p.proper = true → p.names.Nodup → (∀ x ∈ p.names, x ∉ seen) →
    ∃ t Δ s', p.inferFrom seen s = .ok (t, Δ) s' ∧ Δ.map (·.1) = p.names
  | .unit _, _, s, _, _, _ => ⟨.unit, [], s, rfl, rfl⟩
  | .int .., _, s, _, _, _ => ⟨.int, [], s, rfl, rfl⟩
  | .wildcard _, _, s, _, _, _ => ⟨.var s.next, [], { s with next := s.next + 1 }, rfl, rfl⟩
  | .name span x, seen, s, _, _, unseen => by
    refine ⟨.var s.next, [(x, .var s.next)], { s with next := s.next + 1 }, ?_, rfl⟩
    unfold Pattern.inferFrom
    rw [if_neg (unseen x (by simp [Pattern.names]))]
    rfl
  | .constructor span label arg, seen, s, proper, nodup, unseen => by
    obtain ⟨t, Δ, s', run, bound⟩ := inferFrom_linear arg s proper nodup unseen
    refine ⟨.sum label t, Δ, s', ?_, bound⟩
    simp only [Pattern.inferFrom, bind_ok, pure_ok, Prod.exists]
    exact ⟨t, Δ, s', run, rfl, rfl⟩
  | .tuple span ps, seen, s, proper, nodup, unseen => by
    obtain ⟨ts, Δ, s', run, bound⟩ := inferAllFrom_linear ps s proper nodup unseen
    refine ⟨.tuple ts, Δ, s', ?_, bound⟩
    simp only [Pattern.inferFrom, bind_ok, pure_ok, Prod.exists]
    exact ⟨ts, Δ, s', run, rfl, rfl⟩
  | .expr _, _, _, proper, _, _ => by simp [Pattern.proper] at proper

theorem Pattern.inferAllFrom_linear : ∀ (ps : List Pattern) {seen : List String} (s : Session),
    Pattern.properAll ps = true → (Pattern.namesAll ps).Nodup →
    (∀ x ∈ Pattern.namesAll ps, x ∉ seen) →
    ∃ ts Δ s', Pattern.inferAllFrom seen ps s = .ok (ts, Δ) s' ∧ Δ.map (·.1) = Pattern.namesAll ps
  | [], _, s, _, _, _ => ⟨[], [], s, rfl, rfl⟩
  | p :: ps, seen, s, proper, nodup, unseen => by
    simp only [Pattern.properAll, Bool.and_eq_true] at proper
    simp only [Pattern.namesAll, List.nodup_append, List.mem_append] at nodup unseen
    obtain ⟨nodup₁, nodup₂, apart⟩ := nodup
    obtain ⟨t, Δ, s₁, run₁, bound₁⟩ :=
      inferFrom_linear p s proper.1 nodup₁ fun x member => unseen x (.inl member)
    have unseen₂ : ∀ x ∈ Pattern.namesAll ps, x ∉ seen ++ Δ.map (·.1) := by
      intro x member known
      rcases List.mem_append.mp known with known | known
      · exact unseen x (.inr member) known
      · rw [bound₁] at known
        exact apart x known x member rfl
    obtain ⟨ts, Ε, s₂, run₂, bound₂⟩ := inferAllFrom_linear ps s₁ proper.2 nodup₂ unseen₂
    refine ⟨t :: ts, Δ ++ Ε, s₂, ?_, by simp [Pattern.namesAll, bound₁, bound₂]⟩
    simp only [Pattern.inferAllFrom, bind_ok, pure_ok, Prod.exists]
    exact ⟨t, Δ, s₁, run₁, ts, Ε, s₂, run₂, rfl, rfl⟩

end

namespace Collect

variable {α β : Type}

/-- A walk that always reaches its end, with a result of this kind. -/
def Completes (x : Collect α) (P : α → Prop) : Prop := ∀ next, ∃ a, (x next).result = .ok a ∧ P a

theorem Completes.bind {x : Collect α} {f : α → Collect β} {P : α → Prop} {Q : β → Prop}
    (first : x.Completes P) (second : ∀ a, P a → (f a).Completes Q) : (x >>= f).Completes Q := by
  intro next
  obtain ⟨a, result, holds⟩ := first next
  obtain ⟨b, final, kept⟩ := second a holds (x next).next
  refine ⟨b, ?_, kept⟩
  simp only [Bind.bind, result, final]

theorem completes_pure {P : α → Prop} {a : α} (holds : P a) : (pure a : Collect α).Completes P :=
  fun _ => ⟨a, rfl, holds⟩

theorem completes_fresh : fresh.Completes fun _ => True := fun next => ⟨.var next, rfl, trivial⟩

theorem completes_demand (span : Span) (es : List Equation) :
    (demand span es).Completes fun _ => True := fun _ => ⟨(), rfl, trivial⟩

theorem completes_pattern {p : Pattern} (linear : p.linear = true) :
    (pattern p).Completes fun result => result.2.map (·.1) = p.names := by
  intro next
  simp only [Pattern.linear, Bool.and_eq_true, decide_eq_true_eq] at linear
  obtain ⟨t, Δ, s, run, bound⟩ := p.inferFrom_linear { next := next } linear.1 linear.2
    (fun _ _ => List.not_mem_nil)
  refine ⟨(t, Δ), ?_, bound⟩
  change (match p.inferFrom [] { next := next } with
    | .ok result s => (⟨[], s.next, .ok result⟩ : Collected (Ty × Bindings))
    | .error problem s => ⟨[], s.next, .error problem⟩).result = _
  rw [run]

end Collect

/-- The names that a scope types. -/
def Scope.names (scope : Scope Ty) : List String := scope.bindings.map (·.1)

theorem Scope.names_down (scope : Scope Ty) (Δ : Bindings) :
    (scope.down Δ).names = Δ.map (·.1) ++ scope.names := by
  simp [names, bindings_down]

theorem Scope.get?_isSome {scope : Scope Ty} {x : String} (bound : x ∈ scope.names) :
    ∃ t, scope.get? x = some t := by
  rw [get?_eq_lookup]
  cases found : scope.bindings.lookup x with
  | some t => exact ⟨t, rfl⟩
  | none =>
    obtain ⟨b, member, rfl⟩ := List.mem_map.mp bound
    have absent := List.lookup_eq_none_iff.mp found b member
    simp at absent

open Collect

mutual

theorem Expr.collect_completes : ∀ (e : Expr) {scope : Scope Ty}, e.closed scope.names = true →
    (e.collect scope).Completes fun _ => True
  | .unit _, _, _ => completes_pure trivial
  | .int .., _, _ => completes_pure trivial
  | .name span x, scope, closed => by
    simp only [Expr.closed, List.contains_iff_mem] at closed
    obtain ⟨t, found⟩ := Scope.get?_isSome closed
    unfold Expr.collect
    rw [found]
    exact completes_pure trivial
  | .tuple _ es, _, closed => (collectAll_completes es closed).bind fun _ _ => completes_pure trivial
  | .binop _ _ l r, _, closed => by
    simp only [Expr.closed, Bool.and_eq_true] at closed
    exact (collect_completes l closed.1).bind fun _ _ => (collect_completes r closed.2).bind
      fun _ _ => (completes_demand _ _).bind fun _ _ => completes_pure trivial
  | .apply _ f a, _, closed => by
    simp only [Expr.closed, Bool.and_eq_true] at closed
    exact (collect_completes a closed.2).bind fun _ _ => (collect_completes f closed.1).bind
      fun _ _ => completes_fresh.bind fun _ _ => (completes_demand _ _).bind
        fun _ _ => completes_pure trivial
  | .constructor _ _ a, _, closed => (collect_completes a closed).bind
      fun _ _ => completes_pure trivial
  | .function _ p b, scope, closed => by
    simp only [Expr.closed, Bool.and_eq_true] at closed
    refine (completes_pattern closed.1).bind fun result bound => ?_
    refine (collect_completes b ?_).bind fun _ _ => completes_pure trivial
    rw [Scope.names_down, bound]
    exact closed.2
  | .cond _ p c a, _, closed => by
    simp only [Expr.closed, Bool.and_eq_true] at closed
    exact (collect_completes p closed.1.1).bind fun _ _ => (collect_completes c closed.1.2).bind
      fun _ _ => (collect_completes a closed.2).bind fun _ _ => (completes_demand _ _).bind
        fun _ _ => completes_pure trivial
  | .letIn _ p v b, scope, closed => by
    simp only [Expr.closed, Bool.and_eq_true] at closed
    refine (completes_pattern closed.1.1).bind fun result bound => ?_
    have names : (scope.down result.2).names = p.names ++ scope.names := by
      rw [Scope.names_down, bound]
    exact (collect_completes v (names ▸ closed.1.2)).bind fun _ _ => (completes_demand _ _).bind
      fun _ _ => collect_completes b (names ▸ closed.2)
  | .matchOn _ _ [], _, closed => by simp [Expr.closed] at closed
  | .matchOn _ e ((p, b) :: rest), scope, closed => by
    simp only [Expr.closed, Expr.closedCases, Bool.and_eq_true] at closed
    obtain ⟨⟨subject, -⟩, ⟨linear, body⟩, others⟩ := closed
    refine (collect_completes e subject).bind fun _ _ => ?_
    refine (completes_pattern linear).bind fun result bound => ?_
    rw [← bound, ← Scope.names_down] at body
    exact (collect_completes b body).bind fun _ _ => (collectCases_completes rest others).bind
      fun _ _ => (completes_demand _ _).bind fun _ _ => completes_pure trivial
  | .pattern p, _, closed => (completes_pattern closed).bind fun _ _ => completes_pure trivial

theorem Expr.collectAll_completes : ∀ (es : List Expr) {scope : Scope Ty},
    Expr.closedAll scope.names es = true → (Expr.collectAll scope es).Completes fun _ => True
  | [], _, _ => completes_pure trivial
  | e :: es, _, closed => by
    simp only [Expr.closedAll, Bool.and_eq_true] at closed
    exact (collect_completes e closed.1).bind fun _ _ => (collectAll_completes es closed.2).bind
      fun _ _ => completes_pure trivial

theorem Expr.collectCases_completes : ∀ (cases : List (Pattern × Expr)) {scope : Scope Ty},
    Expr.closedCases scope.names cases = true →
    (Expr.collectCases scope cases).Completes fun _ => True
  | [], _, _ => completes_pure trivial
  | (p, b) :: cases, scope, closed => by
    simp only [Expr.closedCases, Bool.and_eq_true] at closed
    refine (completes_pattern closed.1.1).bind fun result bound => ?_
    have names : (scope.down result.2).names = p.names ++ scope.names := by
      rw [Scope.names_down, bound]
    exact (collect_completes b (names ▸ closed.1.2)).bind fun _ _ =>
      (collectCases_completes cases closed.2).bind fun _ _ => completes_pure trivial

end

end Monotype
