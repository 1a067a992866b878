import Monotype.Proofs.Leaves
import Monotype.Proofs.Soundness

/-!
# What inference blames

A problem that stops inference is there in the tree, at the node that it names: `Expr.Stops.located`.
The other way round inference skips no part of a tree (`Expr.Typed.node`), so that a tree with an
unbound name, a repeated binder or an empty match in it has no type.
-/

namespace Monotype

/-! ### Nodes -/

namespace Expr

/-- The patterns right below a node. -/
def patterns : Expr → List Pattern
  | .function _ p _ | .letIn _ p _ _ | .pattern p => [p]
  | .matchOn _ _ cases => cases.map (·.1)
  | _ => []

/-- The expressions right below a node, each with the names that patterns of the node bind there. -/
def parts : Expr → List (List String × Expr)
  | .unit _ | .int .. | .name .. | .pattern _ => []
  | .tuple _ es => es.map fun e => ([], e)
  | .binop _ _ l r => [([], l), ([], r)]
  | .apply _ f a => [([], f), ([], a)]
  | .constructor _ _ a => [([], a)]
  | .function _ p b => [(p.names, b)]
  | .cond _ p c a => [([], p), ([], c), ([], a)]
  | .letIn _ p v b => [(p.names, v), (p.names, b)]
  | .matchOn _ e cases => ([], e) :: cases.map fun case => (case.1.names, case.2)

/-- `e.Node names bound d`: the node `d` stands in `e`, and the names bound there are `bound` if those
bound around `e` are `names`. -/
inductive Node : Expr → List String → List String → Expr → Prop where
  | root (e : Expr) (names : List String) : Node e names names e
  | part {e f d : Expr} {names inner bound : List String} :
    (inner, f) ∈ e.parts → Node f (inner ++ names) bound d → Node e names bound d

/-- The span of a node that asks for types to be the same. -/
def equating? : Expr → Option Span
  | .apply span .. | .binop span .. | .cond span .. | .letIn span .. | .matchOn span .. => some span
  | _ => none

theorem sizeOf_lt_of_mem_parts {e f : Expr} {inner : List String} (part : (inner, f) ∈ e.parts) :
    sizeOf f < sizeOf e := by
  cases e with
  | unit | int | name | pattern => cases part
  | tuple span es =>
    obtain ⟨d, member, same⟩ := List.mem_map.mp part
    cases same
    have := List.sizeOf_lt_of_mem member
    simp only [tuple.sizeOf_spec]
    omega
  | matchOn span e cases =>
    rcases List.mem_cons.mp part with same | body
    · cases same
      simp only [matchOn.sizeOf_spec]
      omega
    · obtain ⟨⟨p, b⟩, member, same⟩ := List.mem_map.mp body
      cases same
      have := List.sizeOf_lt_of_mem member
      simp only [Prod.mk.sizeOf_spec, matchOn.sizeOf_spec] at this ⊢
      omega
  | _ =>
    simp only [parts, List.mem_cons, Prod.mk.injEq, List.not_mem_nil, or_false] at part
    grind

end Expr

/-! ### Problems at nodes -/

/-- `p.Blamed seen problem`: the pattern, to the right of the names `seen`, has the problem. -/
inductive Pattern.Blamed (seen : List String) (p : Pattern) : Problem → Prop where
  /-- The name at the span is among `seen` or stands further left in the pattern. -/
  | duplicateBinding (before after : List Leaf) {span : Span} {x : String} :
    p.leaves = before ++ .name span x :: after → x ∈ seen ++ Leaf.names before →
    Blamed seen p (.duplicateBinding x span)
  | misplaced : p.proper = false → Blamed seen p .misplaced

namespace Problem

def isClash : Problem → Bool
  | .clash .. => true
  | _ => false

/-- `problem.At bound d`: the node `d`, where the names `bound` are bound, has the problem. -/
inductive At (bound : List String) : Expr → Problem → Prop where
  | clash {d : Expr} {span : Span} (c : Clash) : d.equating? = some span →
    At bound d (.clash c (some span))
  | undefinedName {span : Span} {x : String} : x ∉ bound →
    At bound (.name span x) (.undefinedName x span)
  | pattern {d : Expr} {p : Pattern} {problem : Problem} : p ∈ d.patterns → p.Blamed [] problem →
    At bound d problem
  | emptyMatch (span : Span) (subject : Expr) : At bound (.matchOn span subject []) .emptyMatch

/-- A node of the tree has the problem when the names around the tree are bound. -/
def In (names : List String) (e : Expr) (problem : Problem) : Prop :=
  ∃ bound d, e.Node names bound d ∧ problem.At bound d

theorem In.of_part {names inner : List String} {e f : Expr} {problem : Problem}
    (part : (inner, f) ∈ e.parts) (inside : problem.In (inner ++ names) f) : problem.In names e := by
  obtain ⟨bound, d, node, located⟩ := inside
  exact ⟨bound, d, .part part node, located⟩

end Problem

/-! ### Runs that fail -/

namespace Infer

variable {α β : Type} {s s' : Session} {problem : Problem}

theorem bind_error {x : Infer α} {f : α → Infer β} :
    (x >>= f) s = .error problem s' ↔
      x s = .error problem s' ∨ ∃ a s₁, x s = .ok a s₁ ∧ f a s₁ = .error problem s' := by
  rw [run_bind]
  cases x s with
  | ok a s₁ => simp
  | error other s₁ => simp

theorem pure_error {a : α} : (pure a : Infer α) s = .error problem s' ↔ False := by
  change EStateM.Result.ok a s = _ ↔ _
  simp

theorem fresh_error : fresh s = .error problem s' ↔ False := by
  change EStateM.Result.ok (Ty.var s.next) { s with next := s.next + 1 } = _ ↔ _
  simp

theorem resolve_error {t : Ty} : resolve t s = .error problem s' ↔ False := by
  change EStateM.Result.ok (s.subst.resolve t) s = _ ↔ _
  simp

end Infer

open Infer

/-! ### Patterns -/

theorem Pattern.Blamed.head {seen : List String} {p : Pattern} {problem : Problem}
    (blamed : p.Blamed seen problem) (span : Span) (ps : List Pattern) :
    (Pattern.tuple span (p :: ps)).Blamed seen problem := by
  cases blamed with
  | duplicateBinding before after split again =>
    refine .duplicateBinding before (after ++ leavesAll ps) ?_ again
    rw [leaves, leavesAll, split, List.append_assoc, List.cons_append]
  | misplaced improper =>
    refine .misplaced ?_
    rw [proper, properAll, improper, Bool.false_and]

theorem Pattern.Blamed.tail {seen : List String} {p : Pattern} {ps : List Pattern} {span : Span}
    {problem : Problem} (blamed : (Pattern.tuple span ps).Blamed (seen ++ p.names) problem) :
    (Pattern.tuple span (p :: ps)).Blamed seen problem := by
  cases blamed with
  | duplicateBinding before after split again =>
    refine .duplicateBinding (p.leaves ++ before) after ?_ ?_
    · rw [leaves] at split
      rw [leaves, leavesAll, split, List.append_assoc]
    · rw [Leaf.names_append, names_leaves, ← List.append_assoc]
      exact again
  | misplaced improper =>
    refine .misplaced ?_
    rw [proper] at improper
    rw [proper, properAll, improper, Bool.and_false]

mutual

theorem Pattern.inferFrom_blamed : ∀ (p : Pattern) {seen : List String} {s s' : Session}
    {problem : Problem}, p.inferFrom seen s = .error problem s' → p.Blamed seen problem
  | .unit _, _, _, _, _, run => by cases run
  | .int .., _, _, _, _, run => by cases run
  | .wildcard _, _, _, _, _, run => by cases run
  | .name span x, seen, _, _, _, run => by
    unfold inferFrom at run
    split at run
    · next known =>
      cases run
      exact .duplicateBinding [] [] rfl (List.mem_append_left _ known)
    · cases run
  | .constructor _ _ arg, _, _, _, _, run => by
    rw [inferFrom, bind_error] at run
    rcases run with failed | ⟨_, _, _, finished⟩
    · cases inferFrom_blamed arg failed with
      | duplicateBinding before after split again => exact .duplicateBinding before after split again
      | misplaced improper => exact .misplaced improper
    · cases finished
  | .tuple span ps, _, _, _, _, run => by
    rw [inferFrom, bind_error] at run
    rcases run with failed | ⟨_, _, _, finished⟩
    · exact inferAllFrom_blamed ps failed span
    · cases finished
  | .expr _, _, _, _, _, run => by
    cases run
    exact .misplaced rfl

theorem Pattern.inferAllFrom_blamed : ∀ (ps : List Pattern) {seen : List String} {s s' : Session}
    {problem : Problem}, Pattern.inferAllFrom seen ps s = .error problem s' →
    ∀ span, (Pattern.tuple span ps).Blamed seen problem
  | [], _, _, _, _, run, _ => by cases run
  | p :: ps, seen, s, s', problem, run, span => by
    rw [inferAllFrom, bind_error] at run
    rcases run with failed | ⟨⟨t, Δ⟩, s₁, head, rest⟩
    · exact (inferFrom_blamed p failed).head span ps
    · dsimp only at rest
      rw [bind_error, inferFrom_names head] at rest
      rcases rest with failed | ⟨_, _, _, finished⟩
      · exact (inferAllFrom_blamed ps failed span).tail
      · cases finished

end

theorem Pattern.nodup_of_infer {p : Pattern} {s s' : Session} {t : Ty} {Δ : Bindings}
    (run : p.infer s = .ok (t, Δ) s') : p.names.Nodup := by
  have binds := Pattern.infer_binds run .var
  rw [← binds.1.names]
  exact binds.2

mutual

theorem Pattern.proper_of_inferFrom : ∀ (p : Pattern) {seen : List String} {s s' : Session} {t : Ty}
    {Δ : Bindings}, p.inferFrom seen s = .ok (t, Δ) s' → p.proper = true
  | .unit _, _, _, _, _, _, _ => rfl
  | .int .., _, _, _, _, _, _ => rfl
  | .wildcard _, _, _, _, _, _, _ => rfl
  | .name .., _, _, _, _, _, _ => rfl
  | .constructor _ _ arg, _, _, _, _, _, run => by
    rw [inferFrom, bind_ok] at run
    obtain ⟨⟨u, Δ⟩, s₁, inner, -⟩ := run
    exact proper_of_inferFrom arg inner
  | .tuple _ ps, _, _, _, _, _, run => by
    rw [inferFrom, bind_ok] at run
    obtain ⟨⟨ts, Δ⟩, s₁, inner, -⟩ := run
    exact properAll_of_inferAllFrom ps inner
  | .expr _, _, _, _, _, _, run => by cases run

theorem Pattern.properAll_of_inferAllFrom : ∀ (ps : List Pattern) {seen : List String}
    {s s' : Session} {ts : List Ty} {Δ : Bindings}, inferAllFrom seen ps s = .ok (ts, Δ) s' →
    properAll ps = true
  | [], _, _, _, _, _, _ => rfl
  | p :: ps, _, _, _, _, _, run => by
    rw [inferAllFrom, bind_ok] at run
    obtain ⟨⟨t, Δ⟩, s₁, head, rest⟩ := run
    dsimp only at rest
    rw [bind_ok] at rest
    obtain ⟨⟨ts, Ε⟩, s₂, tail, -⟩ := rest
    rw [properAll, proper_of_inferFrom p head, properAll_of_inferAllFrom ps tail, Bool.and_self]

end

def Pattern.Blameless (p : Pattern) : Prop := ∀ problem, ¬ p.Blamed [] problem

theorem Pattern.blameless_of_infer {p : Pattern} {s s' : Session} {t : Ty} {Δ : Bindings}
    (run : p.infer s = .ok (t, Δ) s') : p.Blameless := by
  intro problem blamed
  cases blamed with
  | duplicateBinding before after split again =>
    have nodup := nodup_of_infer run
    rw [← p.names_leaves, split, Leaf.names_append, List.nodup_append] at nodup
    exact nodup.2.2 _ again _ (List.mem_cons_self) rfl
  | misplaced improper =>
    rw [proper_of_inferFrom p run] at improper
    cases improper

/-! ### Expressions -/

theorem Scope.get?_eq_none_iff {scope : Scope Ty} {x : String} :
    scope.get? x = none ↔ x ∉ scope.names := by
  constructor
  · intro missing bound
    obtain ⟨t, found⟩ := get?_isSome bound
    rw [missing] at found
    cases found
  · intro unbound
    rw [get?_eq_lookup, List.lookup_eq_none_iff]
    rintro ⟨y, t⟩ member
    have different : x ≠ y := fun same => unbound (List.mem_map.mpr ⟨(y, t), member, same.symm⟩)
    simpa using different

namespace Expr

/-- Inference stops with the problem, in some scope of the names. -/
def Stops (names : List String) (e : Expr) (problem : Problem) : Prop :=
  ∃ scope s s', scope.names = names ∧ e.infer scope s = .error problem s'

/-- Inference finds a type, in some scope of the names. -/
def Typed (names : List String) (e : Expr) : Prop :=
  ∃ scope s t s', scope.names = names ∧ e.infer scope s = .ok t s'

variable {scope : Scope Ty} {s s' : Session} {problem : Problem}

theorem stops_down {p : Pattern} {b : Expr} {t : Ty} {Δ : Bindings} {s₁ s₂ : Session}
    (bound : p.infer s = .ok (t, Δ) s₁) (run : b.infer (scope.down Δ) s₂ = .error problem s') :
    b.Stops (p.names ++ scope.names) problem := by
  refine ⟨_, s₂, s', ?_, run⟩
  rw [Scope.names_down, Pattern.inferFrom_names bound]

theorem typed_down {p : Pattern} {b : Expr} {t u : Ty} {Δ : Bindings} {s₁ s₂ : Session}
    (bound : p.infer s = .ok (t, Δ) s₁) (run : b.infer (scope.down Δ) s₂ = .ok u s') :
    b.Typed (p.names ++ scope.names) := by
  refine ⟨_, s₂, u, s', ?_, run⟩
  rw [Scope.names_down, Pattern.inferFrom_names bound]

theorem inferAll_stops {es : List Expr} (run : inferAll scope es s = .error problem s') :
    ∃ e ∈ es, e.Stops scope.names problem := by
  induction es generalizing s with
  | nil => cases run
  | cons e es ih =>
    rw [inferAll, bind_error] at run
    rcases run with failed | ⟨t, s₁, -, rest⟩
    · exact ⟨e, List.mem_cons_self, scope, s, s', rfl, failed⟩
    · rw [bind_error] at rest
      rcases rest with failed | ⟨_, _, _, finished⟩
      · obtain ⟨f, member, stops⟩ := ih failed
        exact ⟨f, List.mem_cons_of_mem e member, stops⟩
      · cases finished

/-- The pattern of a case is at fault, or its body is. -/
theorem inferCases_stops {cases : List (Pattern × Expr)}
    (run : inferCases scope cases s = .error problem s') :
    ∃ c ∈ cases, c.1.Blamed [] problem ∨ c.2.Stops (c.1.names ++ scope.names) problem := by
  induction cases generalizing s with
  | nil => cases run
  | cons c cases ih =>
    obtain ⟨p, b⟩ := c
    rw [inferCases, bind_error] at run
    rcases run with failed | ⟨⟨t, Δ⟩, s₁, bound, rest⟩
    · exact ⟨(p, b), List.mem_cons_self, .inl (p.inferFrom_blamed failed)⟩
    · dsimp only at rest
      rw [bind_error] at rest
      rcases rest with failed | ⟨u, s₂, -, rest⟩
      · exact ⟨(p, b), List.mem_cons_self, .inr (stops_down bound failed)⟩
      · rw [bind_error] at rest
        rcases rest with failed | ⟨_, _, _, finished⟩
        · obtain ⟨d, member, blamed⟩ := ih failed
          exact ⟨d, List.mem_cons_of_mem _ member, blamed⟩
        · cases finished

theorem at_of_unify {names : List String} {d : Expr} {span : Span} {es : List Equation}
    (equating : d.equating? = some span) (run : unify span es s = .error problem s') :
    problem.At names d := by
  obtain ⟨c, -, rfl, -⟩ := unify_error.mp run
  exact .clash c equating

theorem stops_of_error {e : Expr} (run : e.infer scope s = .error problem s') :
    e.Stops ([] ++ scope.names) problem :=
  ⟨scope, s, s', rfl, run⟩

/-- Inference stops at a node for a problem of this node, or since it stops in a part of it. -/
theorem Stops.step {names : List String} {e : Expr} (stops : e.Stops names problem) :
    problem.At names e ∨ ∃ inner f, (inner, f) ∈ e.parts ∧ f.Stops (inner ++ names) problem := by
  obtain ⟨scope, s, s', rfl, run⟩ := stops
  cases e with
  | unit => cases run
  | int => cases run
  | name span x =>
    cases found : scope.get? x with
    | some t =>
      rw [infer, found] at run
      cases run
    | none =>
      rw [infer, found] at run
      cases run
      exact .inl (.undefinedName (Scope.get?_eq_none_iff.mp found))
  | tuple span es =>
    simp only [infer, bind_error, resolve_error, and_false, exists_false, or_false] at run
    obtain ⟨e, member, stops⟩ := inferAll_stops run
    exact .inr ⟨[], e, List.mem_map_of_mem member, stops⟩
  | binop span op l r =>
    simp only [infer, bind_error, pure_error, and_false, exists_false, or_false] at run
    rcases run with left | ⟨_, _, _, right | ⟨_, _, _, clash⟩⟩
    · exact .inr ⟨[], l, .head _, stops_of_error left⟩
    · exact .inr ⟨[], r, .tail _ (.head _), stops_of_error right⟩
    · exact .inl (at_of_unify rfl clash)
  | apply span f a =>
    simp only [infer, bind_error, fresh_error, resolve_error, and_false, exists_false, or_false,
      false_or] at run
    rcases run with arg | ⟨_, _, _, func | ⟨_, _, _, _, _, _, clash⟩⟩
    · exact .inr ⟨[], a, .tail _ (.head _), stops_of_error arg⟩
    · exact .inr ⟨[], f, .head _, stops_of_error func⟩
    · exact .inl (at_of_unify rfl clash)
  | constructor span label a =>
    simp only [infer, bind_error, resolve_error, and_false, exists_false, or_false] at run
    exact .inr ⟨[], a, .head _, stops_of_error run⟩
  | function span p b =>
    simp only [infer, bind_error, resolve_error, Prod.exists, and_false, exists_false,
      or_false] at run
    rcases run with param | ⟨_, _, _, bound, body⟩
    · exact .inl (.pattern (.head _) (p.inferFrom_blamed param))
    · exact .inr ⟨p.names, b, .head _, stops_down bound body⟩
  | cond span p c a =>
    simp only [infer, bind_error, resolve_error, and_false, exists_false, or_false] at run
    rcases run with pred | ⟨_, _, _, cons | ⟨_, _, _, alt | ⟨_, _, _, clash⟩⟩⟩
    · exact .inr ⟨[], p, .head _, stops_of_error pred⟩
    · exact .inr ⟨[], c, .tail _ (.head _), stops_of_error cons⟩
    · exact .inr ⟨[], a, .tail _ (.tail _ (.head _)), stops_of_error alt⟩
    · exact .inl (at_of_unify rfl clash)
  | letIn span p v b =>
    simp only [infer, bind_error, resolve_error, Prod.exists, and_false, exists_false,
      or_false] at run
    rcases run with target | ⟨_, _, _, bound, value | ⟨_, _, _, clash | ⟨_, _, _, body⟩⟩⟩
    · exact .inl (.pattern (.head _) (p.inferFrom_blamed target))
    · exact .inr ⟨p.names, v, .head _, stops_down bound value⟩
    · exact .inl (at_of_unify rfl clash)
    · exact .inr ⟨p.names, b, .tail _ (.head _), stops_down bound body⟩
  | matchOn span e cases =>
    cases cases with
    | nil =>
      cases run
      exact .inl (.emptyMatch span e)
    | cons c rest =>
      obtain ⟨p, b⟩ := c
      simp only [infer, bind_error, resolve_error, Prod.exists, and_false, exists_false,
        or_false] at run
      rcases run with subject | ⟨_, _, _, binder | ⟨_, _, _, bound, body | ⟨_, _, _, others |
        ⟨_, _, _, clash⟩⟩⟩⟩
      · exact .inr ⟨[], e, .head _, stops_of_error subject⟩
      · exact .inl (.pattern (.head _) (p.inferFrom_blamed binder))
      · exact .inr ⟨p.names, b, .tail _ (.head _), stops_down bound body⟩
      · obtain ⟨c, member, blamed | stops⟩ := inferCases_stops others
        · exact .inl (.pattern (.tail _ (List.mem_map_of_mem member)) blamed)
        · exact .inr ⟨c.1.names, c.2, .tail _ (.tail _ (List.mem_map.mpr ⟨c, member, rfl⟩)), stops⟩
      · exact .inl (at_of_unify rfl clash)
  | pattern p =>
    simp only [infer, bind_error, pure_error, and_false, exists_false, or_false] at run
    exact .inl (.pattern (.head _) (p.inferFrom_blamed run))

/-- A problem that inference stops with is there in the tree. -/
theorem Stops.located {names : List String} {e : Expr} (stops : e.Stops names problem) :
    problem.In names e := by
  rcases stops.step with here | ⟨inner, f, part, inside⟩
  · exact ⟨names, e, .root e names, here⟩
  · have smaller := sizeOf_lt_of_mem_parts part
    exact .of_part part inside.located
termination_by sizeOf e

/-! ### Expressions with a type -/

theorem typed_of_ok {e : Expr} {t : Ty} (run : e.infer scope s = .ok t s') :
    e.Typed ([] ++ scope.names) :=
  ⟨scope, s, t, s', rfl, run⟩

theorem inferAll_typed {es : List Expr} {ts : List Ty} (run : inferAll scope es s = .ok ts s') :
    ∀ e ∈ es, e.Typed ([] ++ scope.names) := by
  induction es generalizing s s' ts with
  | nil => exact fun _ member => absurd member List.not_mem_nil
  | cons e es ih =>
    simp only [inferAll, bind_ok] at run
    obtain ⟨t, s₁, head, us, s₂, tail, -⟩ := run
    exact List.forall_mem_cons.mpr ⟨typed_of_ok head, ih tail⟩

theorem inferCases_typed {cases : List (Pattern × Expr)} {ts : List (Ty × Ty)}
    (run : inferCases scope cases s = .ok ts s') :
    ∀ c ∈ cases, c.1.Blameless ∧ c.2.Typed (c.1.names ++ scope.names) := by
  induction cases generalizing s s' ts with
  | nil => exact fun _ member => absurd member List.not_mem_nil
  | cons c cases ih =>
    obtain ⟨p, b⟩ := c
    simp only [inferCases, bind_ok, Prod.exists] at run
    obtain ⟨t, Δ, s₁, bound, u, s₂, body, us, s₃, rest, -⟩ := run
    exact List.forall_mem_cons.mpr
      ⟨⟨Pattern.blameless_of_infer bound, typed_down bound body⟩, ih rest⟩

/-- Where inference finds a type, it has found the types of all patterns and of all parts. -/
theorem Typed.step {names : List String} {e : Expr} (typed : e.Typed names) :
    (∀ p ∈ e.patterns, p.Blameless) ∧ ∀ part ∈ e.parts, part.2.Typed (part.1 ++ names) := by
  obtain ⟨scope, s, t, s', rfl, run⟩ := typed
  cases e with
  | unit => simp [patterns, parts]
  | int => simp [patterns, parts]
  | name => simp [patterns, parts]
  | tuple span es =>
    simp only [infer, bind_ok] at run
    obtain ⟨ts, s₁, elements, -⟩ := run
    have typed := inferAll_typed elements
    simpa [patterns, parts] using typed
  | binop span op l r =>
    simp only [infer, bind_ok] at run
    obtain ⟨_, _, left, _, _, right, -⟩ := run
    simpa [patterns, parts] using ⟨typed_of_ok left, typed_of_ok right⟩
  | apply span f a =>
    simp only [infer, bind_ok] at run
    obtain ⟨_, _, arg, _, _, func, -⟩ := run
    simpa [patterns, parts] using ⟨typed_of_ok func, typed_of_ok arg⟩
  | constructor span label a =>
    simp only [infer, bind_ok] at run
    obtain ⟨_, _, arg, -⟩ := run
    simpa [patterns, parts] using typed_of_ok arg
  | function span p b =>
    simp only [infer, bind_ok, Prod.exists] at run
    obtain ⟨_, _, _, bound, _, _, body, -⟩ := run
    simpa [patterns, parts] using ⟨Pattern.blameless_of_infer bound, typed_down bound body⟩
  | cond span p c a =>
    simp only [infer, bind_ok] at run
    obtain ⟨_, _, pred, _, _, cons, _, _, alt, -⟩ := run
    simpa [patterns, parts] using ⟨typed_of_ok pred, typed_of_ok cons, typed_of_ok alt⟩
  | letIn span p v b =>
    simp only [infer, bind_ok, Prod.exists] at run
    obtain ⟨_, _, _, bound, _, _, value, _, _, -, _, _, body, -⟩ := run
    simpa [patterns, parts] using
      ⟨Pattern.blameless_of_infer bound, typed_down bound value, typed_down bound body⟩
  | matchOn span e cases =>
    cases cases with
    | nil => cases run
    | cons c rest =>
      obtain ⟨p, b⟩ := c
      simp only [infer, bind_ok, Prod.exists] at run
      obtain ⟨_, _, subject, _, _, _, bound, _, _, body, _, _, others, -⟩ := run
      have typed := inferCases_typed others
      simp only [patterns, parts, List.map_cons, List.forall_mem_cons, List.forall_mem_map]
      exact ⟨⟨Pattern.blameless_of_infer bound, fun c member => (typed c member).1⟩,
        typed_of_ok subject, typed_down bound body, fun c member => (typed c member).2⟩
  | pattern p =>
    simp only [infer, bind_ok, Prod.exists] at run
    obtain ⟨_, _, _, bound, -⟩ := run
    simpa [patterns, parts] using Pattern.blameless_of_infer bound

/-- Inference finds the types of all nodes of a tree. -/
theorem Typed.node {e d : Expr} {names bound : List String} (typed : e.Typed names)
    (node : e.Node names bound d) : d.Typed bound := by
  induction node with
  | root => exact typed
  | part member _ ih => exact ih (typed.step.2 _ member)

/-- Where inference finds a type, there is nothing but types that could have clashed. -/
theorem Typed.isClash_of_at {names : List String} {e : Expr} (typed : e.Typed names)
    (here : problem.At names e) : problem.isClash = true := by
  cases here with
  | clash c equating => rfl
  | undefinedName unbound =>
    obtain ⟨scope, s, t, s', rfl, run⟩ := typed
    obtain ⟨u, found, -⟩ := infer_name_ok.mp run
    rw [Scope.get?_eq_none_iff.mpr unbound] at found
    cases found
  | pattern member blamed => exact absurd blamed (typed.step.1 _ member _)
  | emptyMatch span subject =>
    obtain ⟨scope, s, t, s', rfl, run⟩ := typed
    cases run

/-! ### Whole trees -/

theorem inferType_error {e : Expr} {env : Bindings} (run : e.inferType env s = .error problem s') :
    e.Stops (env.map (·.1)) problem := by
  rw [inferType, bind_error] at run
  rcases run with failed | ⟨_, _, _, finished⟩
  · exact ⟨.top env, s, s', rfl, failed⟩
  · cases finished

/-- Whatever stops inference is there in the tree: an unbound name, a name that a pattern binds again,
an empty match, a pattern with an expression in it, or a node that asks for types to be the same. And
whenever anything but the last is there in the tree, inference stops. -/
theorem inferType_blames (e : Expr) (env : Bindings) (s : Session) :
    (∀ problem s', e.inferType env s = .error problem s' → problem.In (env.map (·.1)) e) ∧
    ∀ problem : Problem, problem.isClash = false → problem.In (env.map (·.1)) e →
      ∃ found s', e.inferType env s = .error found s' := by
  refine ⟨fun problem s' run => (inferType_error run).located, ?_⟩
  rintro problem noClash ⟨bound, d, node, here⟩
  cases run : e.inferType env s with
  | error found s' => exact ⟨found, s', rfl⟩
  | ok t s' =>
    obtain ⟨s₁, inferred, -⟩ := inferType_ok.mp run
    have typed : e.Typed (env.map (·.1)) := ⟨.top env, s, t, s₁, rfl, inferred⟩
    rw [(typed.node node).isClash_of_at here] at noClash
    cases noClash

/-- A name that is bound neither around the tree nor around its node, and a pattern that binds a name
twice around an empty match. -/
theorem inferType_blames_nested :
    let e : Expr := .letIn .origin (.name .origin "f") (.function .origin (.name .origin "x")
      (.apply .origin (.name .origin "f") (.name (.ofInts 3 4) "y"))) (.name .origin "x")
    let d : Expr := .function .origin (.tuple .origin [.name .origin "x", .name (.ofInts 1 2) "x"])
      (.matchOn .origin (.name .origin "y") [])
    (∃ s', e.inferType [("z", .int)] {} = .error (.undefinedName "y" (.ofInts 3 4)) s') ∧
    (Problem.undefinedName "y" (.ofInts 3 4)).In ["z"] e ∧
    Problem.emptyMatch.In ["z"] d ∧ ∃ problem s', d.inferType [("z", .int)] {} = .error problem s' := by
  intro e d
  have stopped : ∃ s', e.inferType [("z", .int)] {} = .error (.undefinedName "y" (.ofInts 3 4)) s' := by
    refine ⟨?_, ?h⟩
    case h =>
      cbv
      rfl
  obtain ⟨s', run⟩ := stopped
  have empty : Problem.emptyMatch.In ["z"] d :=
    ⟨_, _, .part (.head _) (.root _ _), .emptyMatch _ _⟩
  exact ⟨⟨s', run⟩, (inferType_blames e [("z", .int)] {}).1 _ _ run, empty,
    (inferType_blames d [("z", .int)] {}).2 _ rfl empty⟩

end Expr

end Monotype
