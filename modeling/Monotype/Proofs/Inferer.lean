import Monotype.Infer.Inferer
import Monotype.Proofs.Soundness

/-!
# Inferers that are used again

A visit to a tree is inference under the scope at hand, and leaves the scope as it was
(`Expr.visit_follows`). So nothing that happens during later visits, failures in the middle of a tree
included, takes back what an earlier one found: entries stay, and types that were returned stay types
of their trees. Main theorem: `Inferer.callAll_keeps`.
-/

namespace Monotype

/-! ### Visits are inference under the scope at hand -/

namespace Visit

variable {α β : Type}

/-- The visit is inference under the scope at hand and leaves the scope alone. -/
def Follows (v : Visit α) (x : Scope Ty → Infer α) : Prop := ∀ w, v w = lift (x w.scope) w

theorem follows_lift (x : Infer α) : Follows (lift x) fun _ => x := fun _ => rfl

theorem follows_pure (a : α) : Follows (pure a) fun _ => pure a := fun _ => rfl

theorem Follows.bind {v : Visit α} {f : α → Visit β} {x : Scope Ty → Infer α}
    {g : Scope Ty → α → Infer β} (first : Follows v x)
    (second : ∀ a, Follows (f a) fun scope => g scope a) :
    Follows (v >>= f) fun scope => x scope >>= g scope := by
  intro w
  rw [Infer.run_bind, first w]
  unfold lift
  dsimp only
  rw [Infer.run_bind]
  cases x w.scope w.session with
  | error problem s => rfl
  | ok a s => exact second a { w with session := s }

/-- Going one level in and out again is inference under the inner scope. -/
theorem Follows.inside {v : Visit α} {x : Scope Ty → Infer α} (visit : Follows v x)
    (bound : Bindings) : Follows (inside bound v) fun scope => x (scope.down bound) := by
  intro w
  unfold Visit.inside
  rw [visit]
  unfold lift
  dsimp only
  cases x (w.scope.down bound) w.session with
  | error problem s => rfl
  | ok a s => rfl

theorem follows_name (span : Span) (x : String) :
    Follows (Expr.name span x).visit fun scope => (Expr.name span x).infer scope := by
  intro w
  unfold Expr.visit Expr.infer
  rw [Infer.run_bind, typeOf]
  dsimp only
  cases w.scope.get? x with
  | none => rfl
  | some t => rfl

end Visit

open Visit

mutual

theorem Expr.visit_follows : ∀ e : Expr, Follows e.visit fun scope => e.infer scope
  | .unit _ => follows_pure _
  | .int .. => follows_pure _
  | .name span x => follows_name span x
  | .tuple _ es => (visitAll_follows es).bind fun _ => follows_lift _
  | .binop _ _ l r => (visit_follows l).bind fun _ => (visit_follows r).bind fun _ =>
      (follows_lift _).bind fun _ => follows_pure _
  | .apply _ f a => (visit_follows a).bind fun _ => (visit_follows f).bind fun _ =>
      (follows_lift _).bind fun _ => (follows_lift _).bind fun _ => follows_lift _
  | .constructor _ _ a => (visit_follows a).bind fun _ => follows_lift _
  | .function _ _ b => (follows_lift _).bind fun (_, bound) =>
      ((visit_follows b).inside bound).bind fun _ => follows_lift _
  | .cond _ p c a => (visit_follows p).bind fun _ => (visit_follows c).bind fun _ =>
      (visit_follows a).bind fun _ => (follows_lift _).bind fun _ => follows_lift _
  | .letIn _ _ v b => (follows_lift _).bind fun (_, bound) =>
      ((visit_follows v).inside bound).bind fun _ => (follows_lift _).bind fun _ =>
        ((visit_follows b).inside bound).bind fun _ => follows_lift _
  | .matchOn _ _ [] => follows_lift _
  | .matchOn _ e ((_, b) :: rest) => (visit_follows e).bind fun _ =>
      (follows_lift _).bind fun (_, bound) => ((visit_follows b).inside bound).bind fun _ =>
        (visitCases_follows rest).bind fun _ => (follows_lift _).bind fun _ => follows_lift _
  | .pattern _ => (follows_lift _).bind fun _ => follows_pure _

theorem Expr.visitAll_follows : ∀ es : List Expr,
    Follows (Expr.visitAll es) fun scope => Expr.inferAll scope es
  | [] => follows_pure _
  | e :: es => (visit_follows e).bind fun _ => (visitAll_follows es).bind fun _ => follows_pure _

theorem Expr.visitCases_follows : ∀ cases : List (Pattern × Expr),
    Follows (Expr.visitCases cases) fun scope => Expr.inferCases scope cases
  | [] => follows_pure _
  | (_, b) :: cases => (follows_lift _).bind fun (_, bound) =>
      ((visit_follows b).inside bound).bind fun _ =>
        (visitCases_follows cases).bind fun _ => follows_pure _

end

/-! ### One use after the other -/

/-- One use of an inferer. Ids are given out to all inferers alike, so others may have used some up
since the last time. -/
structure Call where
  next : Int
  tree : Expr

namespace Inferer

def call (w : Inferer) (c : Call) : EStateM.Result Problem Inferer Ty :=
  c.tree.visit { w with session := { w.session with next := c.next } }

/-- Goes on after failures. The types that were returned come with their trees. -/
def callAll (w : Inferer) : List Call → List (Expr × Ty) × Inferer
  | [] => ([], w)
  | c :: calls =>
    match w.call c with
    | .ok t w' => ((c.tree, t) :: (w'.callAll calls).1, (w'.callAll calls).2)
    | .error _ w' => w'.callAll calls

/-- What an inferer may become by being used. -/
structure Later (w w' : Inferer) : Prop where
  scope_eq : w'.scope = w.scope
  subst_prefix : w.session.subst <+: w'.session.subst
  reachable : w.session.subst.Reachable → w'.session.subst.Reachable

theorem Later.refl (w : Inferer) : w.Later w := ⟨rfl, List.prefix_refl _, id⟩

theorem Later.trans {w w₁ w' : Inferer} (first : w.Later w₁) (second : w₁.Later w') : w.Later w' :=
  ⟨second.scope_eq.trans first.scope_eq, first.subst_prefix.trans second.subst_prefix,
    second.reachable ∘ first.reachable⟩

/-- The expression has the type under every solution of what the inferer knows. -/
def Typed (w : Inferer) (e : Expr) (t : Ty) : Prop :=
  ∀ θ, w.session.subst.SolvedBy θ → HasType (w.scope.bindings.inst θ) e (t.inst θ)

theorem Typed.later {w w' : Inferer} {e : Expr} {t : Ty} (typed : w.Typed e t) (later : w.Later w') :
    w'.Typed e t := by
  intro θ solved
  obtain ⟨added, same⟩ := later.subst_prefix
  rw [← same, Subst.solvedBy_append] at solved
  rw [later.scope_eq]
  exact typed θ solved.1

theorem call_eq (w : Inferer) (c : Call) :
    w.call c = lift (c.tree.infer w.scope) { w with session := { w.session with next := c.next } } :=
  c.tree.visit_follows _

theorem later_of_extends {w : Inferer} {next : Int} {s : Session}
    (extended : Session.Extends { w.session with next := next } s) :
    w.Later { w with session := s } :=
  ⟨rfl, extended.subst_prefix, extended.reachable⟩

theorem call_ok {w w' : Inferer} {c : Call} {t : Ty} (run : w.call c = .ok t w') :
    w.Later w' ∧ (c.tree.proper = true → w'.Typed c.tree t) := by
  rw [call_eq, lift] at run
  split at run
  · next u s inferred =>
    cases run
    have extended := Expr.infer_extends inferred
    refine ⟨later_of_extends extended, fun proper θ solved => ?_⟩
    exact Expr.infer_sound c.tree proper inferred θ solved
  · cases run

theorem call_error {w w' : Inferer} {c : Call} {problem : Problem}
    (run : w.call c = .error problem w') : w.Later w' := by
  rw [call_eq, lift] at run
  split at run
  · cases run
  · next p s failed =>
    cases run
    have extended := Expr.infer_extending w.scope c.tree { w.session with next := c.next }
    rw [Infer.after, failed] at extended
    exact later_of_extends extended

theorem callAll_later (w : Inferer) (calls : List Call) : w.Later (w.callAll calls).2 := by
  induction calls generalizing w with
  | nil => exact .refl w
  | cons c calls ih =>
    unfold callAll
    cases run : w.call c with
    | ok t w' => exact (call_ok run).1.trans (ih w')
    | error problem w' => exact (call_error run).trans (ih w')

theorem callAll_typed {w : Inferer} {calls : List Call} {e : Expr} {t : Ty}
    (returned : (e, t) ∈ (w.callAll calls).1) (proper : e.proper = true) :
    (w.callAll calls).2.Typed e t := by
  induction calls generalizing w with
  | nil => simp [callAll] at returned
  | cons c calls ih =>
    unfold callAll at returned ⊢
    cases run : w.call c with
    | ok u w' =>
      rw [run] at returned
      -- What this use returned has to outlast all later ones.
      rcases List.mem_cons.mp returned with now | later
      · obtain ⟨rfl, rfl⟩ := Prod.mk.inj now
        exact ((call_ok run).2 proper).later (callAll_later w' calls)
      · exact ih later
    | error problem w' =>
      rw [run] at returned
      exact ih returned

/-- However an inferer is used, and wherever a use of it fails, it comes back to its outer scope, it
keeps the entries that it had at any earlier time, no variable leads back to itself, and every type
that it ever returned, resolved by what it knows now, is a type of its tree. -/
theorem callAll_keeps (outer : Scope Ty) (first : Int) (before after : List Call) :
    let start : Inferer := { scope := outer, session := { next := first } }
    let middle := start.callAll before
    let final := middle.2.callAll after
    let known := final.2.session.subst
    final.2.scope = outer ∧ middle.2.session.subst <+: known ∧ known.Acyclic ∧
      ∀ e t, (e, t) ∈ middle.1 ++ final.1 → e.proper = true →
        HasType (outer.bindings.resolve known) e (known.resolve t) := by
  intro start middle final known
  have later₁ : start.Later middle.2 := callAll_later start before
  have later₂ : middle.2.Later final.2 := callAll_later middle.2 after
  have later := later₁.trans later₂
  have ordered : known.Ordered := (later.reachable .empty).ordered
  refine ⟨later.scope_eq, later₂.subst_prefix, ordered.acyclic, fun e t returned proper => ?_⟩
  have typed : final.2.Typed e t := by
    rcases List.mem_append.mp returned with early | late
    · exact (callAll_typed early proper).later later₂
    · exact callAll_typed late proper
  -- Resolving is one of the assignments that solve what is known.
  have resolved := typed known.closure ordered.solvedBy_closure
  rw [later.scope_eq] at resolved
  exact resolved

/-- The second use fails two levels in, and the third finds out more about the type that the first
returned. -/
theorem callAll_keeps_failure :
    let eta := Expr.function .origin (.name .origin "x")
      (.apply .origin (.name .origin "y") (.name .origin "x"))
    let failing := Expr.letIn .origin (.name .origin "z") (.function .origin (.name .origin "w")
      (.binop .origin "+" (.name .origin "w") (.unit .origin))) (.name .origin "z")
    let start : Inferer := { scope := .top [("y", .var 0)], session := { next := 1 } }
    let middle := start.callAll [⟨1, eta⟩, ⟨3, failing⟩]
    let final := middle.2.callAll [⟨9, .apply .origin (.name .origin "y") (.int .origin 1)⟩]
    middle.1 = [(eta, .fn (.var 1) (.var 2))] ∧ final.2.scope = .top [("y", .var 0)] ∧
      HasType [("y", .fn .int (.var 2))] eta (.fn .int (.var 2)) := by
  intro eta failing start middle final
  have returned : middle.1 = [(eta, .fn (.var 1) (.var 2))] := by
    subst middle start failing eta
    cbv
  have known : final.2.session.subst =
      [(0, .fn (.var 1) (.var 2)), (4, .int), (1, .int), (9, .var 2)] := by
    subst final middle start failing eta
    cbv
  obtain ⟨scope_eq, -, -, typed⟩ := callAll_keeps (.top [("y", .var 0)]) 1
    [⟨1, eta⟩, ⟨3, failing⟩] [⟨9, .apply .origin (.name .origin "y") (.int .origin 1)⟩]
  have resolved := typed eta (.fn (.var 1) (.var 2))
    (List.mem_append_left _ (returned ▸ List.mem_singleton_self _)) rfl
  change HasType (Bindings.resolve final.2.session.subst _) eta (final.2.session.subst.resolve _)
    at resolved
  rw [known] at resolved
  exact ⟨returned, scope_eq, resolved⟩

end Inferer

end Monotype
