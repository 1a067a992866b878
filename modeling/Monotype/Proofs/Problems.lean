import Monotype.Proofs.Collect
import Monotype.Ty.Names

/-!
# What inference stops with

A clash says of two types what is true of them (`Clash.Fits`). In a well-formed tree nothing but a
clash, an unknown name or a name bound twice stops inference (`Expr.infer_raises`).
-/

namespace Monotype

/-! ### Clashes -/

def Ty.isVar : Ty → Bool
  | .var _ => true
  | _ => false

/-- The two types differ in the way that the kind of the clash says. -/
inductive Clash.Fits : Clash → Prop where
  | names {a b : String} : a ≠ b → Fits ⟨.mismatch, .name a, .name b⟩
  | shapes {l r : Ty} : l.isVar = false → r.isVar = false → l.kindName ≠ r.kindName →
    Fits ⟨.mismatch, l, r⟩
  | arity {as bs : List Ty} : as.length ≠ bs.length → Fits ⟨.arity, .tuple as, .tuple bs⟩
  | label {k l : String} {p q : Ty} : k ≠ l → Fits ⟨.label, .sum k p, .sum l q⟩
  | circular {v : Int} {t : Ty} : v ∈ t.vars → t.isVar = false → Fits ⟨.circular, .var v, t⟩

namespace Equation

theorem bindVar_clash {v : Int} {t : Ty} {c : Clash} (different : t ≠ .var v)
    (clash : bindVar v t = .clash c) : c.Fits := by
  unfold bindVar at clash
  split at clash
  · next inside =>
    cases clash
    have inside : v ∈ t.vars := by simpa using inside
    refine .circular inside ?_
    cases t with
    | var w =>
      -- the only variable that contains `v` is `v` itself
      obtain rfl : v = w := by simpa [Ty.vars] using inside
      exact absurd rfl different
    | name _ => rfl
    | fn _ _ => rfl
    | tuple _ => rfl
    | sum _ _ => rfl
  · cases clash

theorem step_clash {e : Equation} {c : Clash} (clash : e.step = .clash c) : c.Fits := by
  obtain ⟨l, r⟩ := e
  unfold step at clash
  dsimp only at clash
  split at clash
  · next a =>
    split at clash
    · cases clash
    · next different => exact bindVar_clash different clash
  · next b notVar => exact bindVar_clash (notVar b) clash
  · next a b =>
    split at clash
    · cases clash
    · next different =>
      cases clash
      exact .names different
  · cases clash
  · next as bs =>
    split at clash
    · cases clash
    · next lengths =>
      cases clash
      exact .arity lengths
  · next k p l q =>
    split at clash
    · cases clash
    · next different =>
      cases clash
      exact .label different
  · cases clash
    refine .shapes ?_ ?_ ?_
    all_goals cases l <;> cases r <;> grind [Ty.isVar, Ty.kindName]

end Equation

theorem Task.solveAll_clash {agenda : List Task} {c : Clash}
    (clash : (solveAll agenda).clash = some c) : c.Fits := by
  fun_induction solveAll agenda with
  | case1 => cases clash
  | case2 e rest ih => exact ih clash
  | case3 asked now rest done ih => exact ih clash
  | case4 asked now rest v t bound ih => exact ih clash
  | case5 asked now rest parts split ih => exact ih clash
  | case6 asked now rest d step =>
    obtain rfl : d = c := Option.some.inj clash
    exact Equation.step_clash step

theorem Subst.unify_clash {s : Subst} {es : List Equation} {c : Clash}
    (clash : (s.unify es).clash = some c) : c.Fits := by
  induction es generalizing s with
  | nil => cases clash
  | cons e es ih =>
    unfold unify at clash
    dsimp only at clash
    split at clash
    · next d first =>
      obtain rfl : d = c := Option.some.inj clash
      exact Task.solveAll_clash first
    · exact ih clash

/-! ### Problems -/

/-- The problems that a program can have. -/
inductive Problem.Reported : Problem → Prop where
  | clash {c : Clash} (span : Span) : c.Fits → Reported (.clash c (some span))
  | undefinedName (x : String) (span : Span) : Reported (.undefinedName x span)
  | duplicateBinding (x : String) (span : Span) : Reported (.duplicateBinding x span)

namespace Infer

variable {α β : Type} {P : Problem → Prop}

/-- A computation that stops with such problems only. -/
def Raises (P : Problem → Prop) (x : Infer α) : Prop :=
  ∀ s problem s', x s = .error problem s' → P problem

theorem Raises.bind {x : Infer α} {f : α → Infer β} (first : x.Raises P)
    (second : ∀ a, (f a).Raises P) : (x >>= f).Raises P := by
  intro s problem s' run
  rw [run_bind] at run
  split at run
  · next a s₁ _ => exact second a s₁ problem s' run
  · next other s₁ failed =>
    cases run
    exact first s problem s' failed

theorem raises_pure (a : α) : (pure a : Infer α).Raises P := fun _ _ _ run => by cases run

theorem raises_fresh : fresh.Raises P := fun _ _ _ run => by cases run

theorem raises_tell (e : Event) : (tell e).Raises P := fun _ _ _ run => by cases run

theorem raises_resolve (t : Ty) : (resolve t).Raises P := fun _ _ _ run => by cases run

theorem raises_throw {problem : Problem} (holds : P problem) :
    (throw problem : Infer α).Raises P := by
  intro s other s' run
  cases run
  exact holds

theorem raises_unify (span : Span) (es : List Equation) :
    (unify span es).Raises Problem.Reported := by
  intro s problem s' run
  obtain ⟨c, clash, rfl, -⟩ := unify_error.mp run
  exact .clash span (Subst.unify_clash clash)

end Infer

/-! ### Well-formed trees -/

mutual

/-- Whether expressions and patterns stand where they are expected, and every match has a case. -/
def Expr.wellFormed : Expr → Bool
  | .unit _ | .int .. | .name .. => true
  | .tuple _ es => Expr.wellFormedAll es
  | .binop _ _ l r => l.wellFormed && r.wellFormed
  | .apply _ f a => f.wellFormed && a.wellFormed
  | .constructor _ _ a => a.wellFormed
  | .function _ p b => p.proper && b.wellFormed
  | .cond _ p c a => p.wellFormed && c.wellFormed && a.wellFormed
  | .letIn _ p v b => p.proper && v.wellFormed && b.wellFormed
  | .matchOn _ e cases => e.wellFormed && !cases.isEmpty && Expr.wellFormedCases cases
  | .pattern _ => false

def Expr.wellFormedAll : List Expr → Bool
  | [] => true
  | e :: es => e.wellFormed && Expr.wellFormedAll es

def Expr.wellFormedCases : List (Pattern × Expr) → Bool
  | [] => true
  | (p, b) :: cases => p.proper && b.wellFormed && Expr.wellFormedCases cases

end

open Infer

mutual

theorem Pattern.inferFrom_raises : ∀ (p : Pattern) (seen : List String), p.proper = true →
    (p.inferFrom seen).Raises Problem.Reported
  | .unit _, _, _ => raises_pure _
  | .int .., _, _ => raises_pure _
  | .wildcard _, _, _ => raises_fresh.bind fun _ => raises_pure _
  | .name span x, seen, _ => by
    unfold Pattern.inferFrom
    split
    · exact (raises_tell _).bind fun _ => (raises_throw (.duplicateBinding x span)).bind fun _ =>
        raises_fresh.bind fun _ => raises_pure _
    · exact raises_fresh.bind fun _ => raises_pure _
  | .constructor _ _ arg, seen, proper =>
    (inferFrom_raises arg seen proper).bind fun _ => raises_pure _
  | .tuple _ ps, seen, proper => (inferAllFrom_raises ps seen proper).bind fun _ => raises_pure _
  | .expr _, _, proper => by cases proper

theorem Pattern.inferAllFrom_raises : ∀ (ps : List Pattern) (seen : List String),
    Pattern.properAll ps = true → (Pattern.inferAllFrom seen ps).Raises Problem.Reported
  | [], _, _ => raises_pure _
  | p :: ps, seen, proper => by
    rw [Pattern.properAll, Bool.and_eq_true] at proper
    exact (inferFrom_raises p seen proper.1).bind fun _ =>
      (inferAllFrom_raises ps _ proper.2).bind fun _ => raises_pure _

end

theorem Pattern.infer_raises {p : Pattern} (proper : p.proper = true) :
    p.infer.Raises Problem.Reported := inferFrom_raises p [] proper

mutual

/-- Inference in a well-formed tree stops with problems of the program only. -/
theorem Expr.infer_raises : ∀ (e : Expr) (scope : Scope Ty), e.wellFormed = true →
    (e.infer scope).Raises Problem.Reported
  | .unit _, _, _ => raises_pure _
  | .int .., _, _ => raises_pure _
  | .name span x, scope, _ => by
    unfold Expr.infer
    split
    · exact raises_resolve _
    · exact raises_throw (.undefinedName x span)
  | .tuple _ es, scope, formed => (inferAll_raises es scope formed).bind fun _ => raises_resolve _
  | .binop _ _ l r, scope, formed => by
    rw [Expr.wellFormed, Bool.and_eq_true] at formed
    exact (infer_raises l scope formed.1).bind fun _ => (infer_raises r scope formed.2).bind fun _ =>
      (raises_unify _ _).bind fun _ => raises_pure _
  | .apply _ f a, scope, formed => by
    rw [Expr.wellFormed, Bool.and_eq_true] at formed
    exact (infer_raises a scope formed.2).bind fun _ => (infer_raises f scope formed.1).bind fun _ =>
      raises_fresh.bind fun _ => (raises_unify _ _).bind fun _ => raises_resolve _
  | .constructor _ _ a, scope, formed => (infer_raises a scope formed).bind fun _ => raises_resolve _
  | .function _ p b, scope, formed => by
    rw [Expr.wellFormed, Bool.and_eq_true] at formed
    exact (Pattern.infer_raises formed.1).bind fun _ => (infer_raises b _ formed.2).bind fun _ =>
      raises_resolve _
  | .cond _ p c a, scope, formed => by
    rw [Expr.wellFormed, Bool.and_eq_true, Bool.and_eq_true] at formed
    exact (infer_raises p scope formed.1.1).bind fun _ =>
      (infer_raises c scope formed.1.2).bind fun _ => (infer_raises a scope formed.2).bind fun _ =>
        (raises_unify _ _).bind fun _ => raises_resolve _
  | .letIn _ p v b, scope, formed => by
    rw [Expr.wellFormed, Bool.and_eq_true, Bool.and_eq_true] at formed
    exact (Pattern.infer_raises formed.1.1).bind fun _ => (infer_raises v _ formed.1.2).bind fun _ =>
      (raises_unify _ _).bind fun _ => (infer_raises b _ formed.2).bind fun _ => raises_resolve _
  | .matchOn _ e [], _, formed => by simp [Expr.wellFormed] at formed
  | .matchOn _ e ((p, b) :: rest), scope, formed => by
    rw [Expr.wellFormed, Bool.and_eq_true, Expr.wellFormedCases, Bool.and_eq_true, Bool.and_eq_true,
      Bool.and_eq_true] at formed
    obtain ⟨⟨subject, -⟩, ⟨binder, body⟩, others⟩ := formed
    exact (infer_raises e scope subject).bind fun _ => (Pattern.infer_raises binder).bind fun _ =>
      (infer_raises b _ body).bind fun _ => (inferCases_raises rest scope others).bind fun _ =>
        (raises_unify _ _).bind fun _ => raises_resolve _
  | .pattern _, _, formed => by cases formed

theorem Expr.inferAll_raises : ∀ (es : List Expr) (scope : Scope Ty),
    Expr.wellFormedAll es = true → (Expr.inferAll scope es).Raises Problem.Reported
  | [], _, _ => raises_pure _
  | e :: es, scope, formed => by
    rw [Expr.wellFormedAll, Bool.and_eq_true] at formed
    exact (infer_raises e scope formed.1).bind fun _ =>
      (inferAll_raises es scope formed.2).bind fun _ => raises_pure _

theorem Expr.inferCases_raises : ∀ (cases : List (Pattern × Expr)) (scope : Scope Ty),
    Expr.wellFormedCases cases = true → (Expr.inferCases scope cases).Raises Problem.Reported
  | [], _, _ => raises_pure _
  | (p, b) :: cases, scope, formed => by
    rw [Expr.wellFormedCases, Bool.and_eq_true, Bool.and_eq_true] at formed
    exact (Pattern.infer_raises formed.1.1).bind fun _ => (infer_raises b _ formed.1.2).bind fun _ =>
      (inferCases_raises cases scope formed.2).bind fun _ => raises_pure _

end

theorem Expr.inferType_raises {e : Expr} (formed : e.wellFormed = true) (env : Bindings) :
    (e.inferType env).Raises Problem.Reported :=
  (infer_raises e (.top env) formed).bind fun _ _ _ _ run => by cases run

end Monotype
