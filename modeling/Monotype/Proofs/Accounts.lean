import Monotype.Proofs.Blame
import Monotype.Proofs.Supply

/-!
# Ids that a run uses up

Inference gives out one id for each application, and one for each name and wildcard of a pattern
however often the name is used: `Expr.infer_uses`. A run that fails has given out some of them. With
the variables that can come up at all (`Expr.infer_within`), every id is accounted for:
`Expr.inferType_accounts`.
-/

namespace Monotype

/-! ### The nodes of a tree -/

namespace Expr

mutual

/-- The nodes of a tree. Those of an expression that stands in a pattern do not count. -/
def nodes (e : Expr) : List Expr :=
  e :: match e with
    | .unit _ | .int .. | .name .. | .pattern _ => []
    | .tuple _ es => nodesAll es
    | .binop _ _ l r => l.nodes ++ r.nodes
    | .apply _ f a => f.nodes ++ a.nodes
    | .constructor _ _ a => a.nodes
    | .function _ _ b => b.nodes
    | .cond _ p c a => p.nodes ++ c.nodes ++ a.nodes
    | .letIn _ _ v b => v.nodes ++ b.nodes
    | .matchOn _ subject cases => subject.nodes ++ nodesCases cases

def nodesAll : List Expr → List Expr
  | [] => []
  | e :: es => e.nodes ++ nodesAll es

def nodesCases : List (Pattern × Expr) → List Expr
  | [] => []
  | (_, b) :: cases => b.nodes ++ nodesCases cases

end

def isApplication : Expr → Bool
  | .apply .. => true
  | _ => false

/-- The names and wildcards in the patterns right below a node. -/
def ownLeaves (d : Expr) : List Leaf := d.patterns.flatMap Pattern.leaves

def applications (e : Expr) : Nat := e.nodes.countP isApplication

/-- The names and wildcards in all patterns of a tree. -/
def leaves (e : Expr) : List Leaf := e.nodes.flatMap ownLeaves

/-- The ids that nodes ask for. -/
def demand (nodes : List Expr) : Nat :=
  nodes.countP isApplication + (nodes.flatMap ownLeaves).length

theorem demand_nil : demand [] = 0 := rfl

theorem demand_cons (d : Expr) (nodes : List Expr) :
    demand (d :: nodes) = (if d.isApplication then 1 else 0) + d.ownLeaves.length + demand nodes := by
  simp only [demand, List.countP_cons, List.flatMap_cons, List.length_append]
  omega

theorem demand_append (xs ys : List Expr) : demand (xs ++ ys) = demand xs + demand ys := by
  simp only [demand, List.countP_append, List.flatMap_append, List.length_append]
  omega

end Expr

/-! ### Ids used up by a computation -/

namespace Infer

variable {α β : Type}

/-- The computation uses up `k` ids, or some of them if it fails. -/
structure Uses (k : Nat) (x : Infer α) : Prop where
  ok {s s' : Session} {a : α} : x s = .ok a s' → s'.next = s.next + k
  error {s s' : Session} {problem : Problem} :
    x s = .error problem s' → s.next ≤ s'.next ∧ s'.next ≤ s.next + k

theorem Uses.bind {k l : Nat} {x : Infer α} {f : α → Infer β} (first : x.Uses k)
    (second : ∀ a, (f a).Uses l) : (x >>= f).Uses (k + l) where
  ok run := by
    obtain ⟨a, s₁, early, late⟩ := bind_ok.mp run
    have used := first.ok early
    have more := (second a).ok late
    omega
  error run := by
    rcases bind_error.mp run with failed | ⟨a, s₁, early, late⟩
    · have used := first.error failed
      omega
    -- The second part has failed, so all ids of the first are used up.
    · have used := first.ok early
      have more := (second a).error late
      omega

theorem Uses.of_eq {k l : Nat} {x : Infer α} (uses : x.Uses k) (same : k = l) : x.Uses l :=
  same ▸ uses

theorem uses_pure (a : α) : (pure a : Infer α).Uses 0 where
  ok run := by
    cases run
    simp
  error run := by cases run

theorem uses_throw (problem : Problem) (k : Nat) : (throw problem : Infer α).Uses k where
  ok run := by cases run
  error run := by
    cases run
    omega

theorem uses_fresh : fresh.Uses 1 where
  ok run := by
    cases run
    rfl
  error run := by cases run

theorem uses_tell (e : Event) : (tell e).Uses 0 where
  ok run := by
    cases run
    simp
  error run := by cases run

theorem uses_resolve (t : Ty) : (resolve t).Uses 0 where
  ok run := by
    cases run
    simp
  error run := by cases run

theorem uses_unify (span : Option Span) (es : List Equation) : (unify span es).Uses 0 where
  ok run := by
    rw [unify_next run]
    simp
  error run := by
    obtain ⟨c, -, -, rfl⟩ := unify_error.mp run
    simp

end Infer

open Infer

/-! ### Patterns -/

mutual

theorem Pattern.inferFrom_uses : ∀ (p : Pattern) (seen : List String),
    (p.inferFrom seen).Uses p.leaves.length
  | .unit _, _ => uses_pure _
  | .int .., _ => uses_pure _
  | .wildcard _, _ => uses_fresh.bind fun _ => uses_pure _
  | .name span x, seen => by
    unfold Pattern.inferFrom
    split
    -- A name that is bound already takes no id, which is still no more than one.
    · exact (uses_tell _).bind fun _ => (uses_throw _ 0).bind fun _ => uses_fresh.bind fun _ =>
        uses_pure _
    · exact uses_fresh.bind fun _ => uses_pure _
  | .constructor _ _ arg, seen => (inferFrom_uses arg seen).bind fun _ => uses_pure _
  | .tuple _ ps, seen => (inferAllFrom_uses ps seen).bind fun _ => uses_pure _
  | .expr _, _ => uses_throw _ _

theorem Pattern.inferAllFrom_uses : ∀ (ps : List Pattern) (seen : List String),
    (Pattern.inferAllFrom seen ps).Uses (Pattern.leavesAll ps).length
  | [], _ => uses_pure _
  | p :: ps, seen => by
    have uses := (inferFrom_uses p seen).bind fun bound =>
      (inferAllFrom_uses ps (seen ++ bound.2.map (·.1))).bind fun rest =>
        uses_pure (bound.1 :: rest.1, bound.2 ++ rest.2)
    refine uses.of_eq ?_
    rw [Pattern.leavesAll, List.length_append, Nat.add_zero]

end

theorem Pattern.infer_uses (p : Pattern) : p.infer.Uses p.leaves.length := p.inferFrom_uses []

/-! ### Expressions -/

namespace Expr

mutual

/-- Inference uses up one id for each application and each leaf of a pattern. -/
theorem infer_uses : ∀ (e : Expr) (scope : Scope Ty), (e.infer scope).Uses (demand e.nodes)
  | .unit _, _ => uses_pure _
  | .int .., _ => uses_pure _
  | .name span x, scope => by
    unfold Expr.infer
    split
    · exact uses_resolve _
    · exact uses_throw _ _
  | .tuple _ es, scope => by
    refine Uses.of_eq ((inferAll_uses es scope).bind fun _ => uses_resolve _) ?_
    simp [nodes, demand_cons, isApplication, ownLeaves, patterns]
  | .binop _ _ l r, scope => by
    refine Uses.of_eq ((infer_uses l scope).bind fun _ => (infer_uses r scope).bind fun _ =>
      (uses_unify _ _).bind fun _ => uses_pure _) ?_
    simp [nodes, demand_cons, demand_append, isApplication, ownLeaves, patterns]
  | .apply _ f a, scope => by
    refine Uses.of_eq ((infer_uses a scope).bind fun _ => (infer_uses f scope).bind fun _ =>
      uses_fresh.bind fun _ => (uses_unify _ _).bind fun _ => uses_resolve _) ?_
    simp only [nodes, demand_cons, demand_append, isApplication, ↓reduceIte, ownLeaves, patterns,
      List.flatMap_nil, List.length_nil]
    omega
  | .constructor _ _ a, scope => by
    refine Uses.of_eq ((infer_uses a scope).bind fun _ => uses_resolve _) ?_
    simp [nodes, demand_cons, isApplication, ownLeaves, patterns]
  | .function _ p b, scope => by
    refine Uses.of_eq (p.infer_uses.bind fun _ => (infer_uses b _).bind fun _ => uses_resolve _) ?_
    simp [nodes, demand_cons, isApplication, ownLeaves, patterns]
  | .cond _ p c a, scope => by
    refine Uses.of_eq ((infer_uses p scope).bind fun _ => (infer_uses c scope).bind fun _ =>
      (infer_uses a scope).bind fun _ => (uses_unify _ _).bind fun _ => uses_resolve _) ?_
    simp [nodes, demand_cons, demand_append, isApplication, ownLeaves, patterns]
  | .letIn _ p v b, scope => by
    refine Uses.of_eq (p.infer_uses.bind fun _ => (infer_uses v _).bind fun _ =>
      (uses_unify _ _).bind fun _ => (infer_uses b _).bind fun _ => uses_resolve _) ?_
    simp [nodes, demand_cons, demand_append, isApplication, ownLeaves, patterns]
  | .matchOn _ _ [], _ =>
    Uses.of_eq ((uses_tell _).bind fun _ => uses_throw _ _) (Nat.zero_add _)
  | .matchOn _ e ((p, b) :: rest), scope => by
    refine Uses.of_eq ((infer_uses e scope).bind fun _ => p.infer_uses.bind fun _ =>
      (infer_uses b _).bind fun _ => (inferCases_uses rest scope).bind fun _ =>
        (uses_unify _ _).bind fun _ => uses_resolve _) ?_
    simp only [nodes, nodesCases, demand_cons, demand_append, isApplication, Bool.false_eq_true,
      ↓reduceIte, ownLeaves, patterns, List.map_cons, List.flatMap_cons, List.length_append]
    omega
  | .pattern p, _ => by
    refine Uses.of_eq (p.infer_uses.bind fun _ => uses_pure _) ?_
    simp [nodes, demand_cons, demand_nil, isApplication, ownLeaves, patterns]

theorem inferAll_uses : ∀ (es : List Expr) (scope : Scope Ty),
    (inferAll scope es).Uses (demand (nodesAll es))
  | [], _ => uses_pure _
  | e :: es, scope => by
    refine Uses.of_eq ((infer_uses e scope).bind fun _ => (inferAll_uses es scope).bind fun _ =>
      uses_pure _) ?_
    rw [nodesAll, demand_append, Nat.add_zero]

theorem inferCases_uses : ∀ (cases : List (Pattern × Expr)) (scope : Scope Ty),
    (inferCases scope cases).Uses
      (((cases.map (·.1)).flatMap Pattern.leaves).length + demand (nodesCases cases))
  | [], _ => uses_pure _
  | (p, b) :: cases, scope => by
    refine Uses.of_eq (p.infer_uses.bind fun _ => (infer_uses b _).bind fun _ =>
      (inferCases_uses cases scope).bind fun _ => uses_pure _) ?_
    simp only [nodesCases, demand_append, List.map_cons, List.flatMap_cons, List.length_append]
    omega

end

theorem inferType_uses (e : Expr) (env : Bindings) : (e.inferType env).Uses (demand e.nodes) where
  ok run := by
    obtain ⟨s₁, inferred, rfl⟩ := inferType_ok.mp run
    have used := (infer_uses e (.top env)).ok inferred
    exact used
  error run := by
    rw [inferType, bind_error] at run
    rcases run with failed | ⟨t, s₁, -, told⟩
    · exact (infer_uses e (.top env)).error failed
    · cases told

/-- A run that finds a type has given out one id for each application and for each name and wildcard
of a pattern in the tree, the target of a `let` counted once, and every variable that it leaves
behind, in the type or among the replacements, is one of these or comes from the environment. A run
that fails has given out no more than that. -/
theorem inferType_accounts (e : Expr) (env : Bindings) (n : Int) :
    let total := e.applications + e.leaves.length
    (∀ t final, e.inferType env { next := n } = .ok t final →
      final.next = n + total ∧ ∀ v ∈ t.vars ++ final.subst.vars,
        v ∈ env.vars ∨ n ≤ v ∧ v < final.next) ∧
    ∀ problem final, e.inferType env { next := n } = .error problem final →
      n ≤ final.next ∧ final.next ≤ n + total := by
  intro total
  have uses : (e.inferType env).Uses total := e.inferType_uses env
  refine ⟨fun t final run => ⟨uses.ok run, ?_⟩, fun problem final run => uses.error run⟩
  obtain ⟨s, inferred, rfl⟩ := inferType_ok.mp run
  -- Ids are given out one after the other, so those of the run lie between its two ends.
  have start : Session.Within (fun v => v ∈ env.vars ∨ n ≤ v ∧ v < s.next) s.next { next := n } :=
    ⟨fun v known => absurd known List.not_mem_nil, fun v low high => .inr ⟨low, high⟩⟩
  obtain ⟨inType, within⟩ := infer_within e inferred (fun v known => .inl known) start (Int.le_refl _)
  exact List.forall_mem_append.mpr ⟨inType, within.known⟩

/-- A tree with two applications and three leaves, and one that fails at the third of three leaves,
before its application. -/
theorem inferType_accounts_nested :
    let f (n : Int) := Expr.apply .origin (.name .origin "f") (.int .origin n)
    let nested := Expr.letIn .origin (.tuple .origin [.name .origin "x", .wildcard .origin])
      (.tuple .origin [f 1, .unit .origin]) (.matchOn .origin (.name .origin "x")
        [(.name .origin "y", .tuple .origin [.name .origin "y", f 2])])
    let failing := Expr.function .origin (.tuple .origin [.name .origin "x", .wildcard .origin,
      .name .origin "x"]) (f 1)
    (∃ final, nested.inferType [("f", .var 0)] { next := 7 } = .ok (.tuple [.var 9, .var 9]) final ∧
      final.next = 12 ∧ ∀ v ∈ final.subst.vars, v ∈ [0] ∨ 7 ≤ v ∧ v < 12) ∧
    ∃ final, failing.inferType [("f", .var 0)] { next := 7 } =
        .error (.duplicateBinding "x" .origin) final ∧
      7 ≤ final.next ∧ final.next ≤ 7 + (1 + 3 : Nat) := by
  intro f nested failing
  constructor
  · obtain ⟨final, run⟩ : ∃ final,
        nested.inferType [("f", .var 0)] { next := 7 } = .ok (.tuple [.var 9, .var 9]) final := by
      subst nested f
      refine ⟨?_, ?run⟩
      case run =>
        cbv
        rfl
    obtain ⟨used, known⟩ := (inferType_accounts nested [("f", .var 0)] 7).1 _ final run
    have next : final.next = 12 := used
    rw [next] at known
    exact ⟨final, run, next, (List.forall_mem_append.mp known).2⟩
  · obtain ⟨final, run⟩ : ∃ final, failing.inferType [("f", .var 0)] { next := 7 } =
        .error (.duplicateBinding "x" .origin) final := by
      subst failing f
      refine ⟨?_, ?run⟩
      case run =>
        cbv
        rfl
    exact ⟨final, run, (inferType_accounts failing [("f", .var 0)] 7).2 _ final run⟩

end Expr

end Monotype
