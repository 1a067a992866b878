import Monotype.Infer
import Monotype.Proofs.Reachable

/-!
# The type system

Which types an expression has, said without solving anything. Names are looked up in a list of
bindings, of which the first one counts; a pattern matches values of any type of its shape and binds
each of its names once. A name has one type wherever it is used.
-/

namespace Monotype

/-! ### Bindings -/

namespace Bindings

/-- The bindings under an assignment. -/
def inst (θ : Int → Ty) (Γ : Bindings) : Bindings := Γ.map fun b => (b.1, b.2.inst θ)

/-- The bindings with every type resolved. -/
def resolve (s : Subst) (Γ : Bindings) : Bindings := Γ.map fun b => (b.1, s.resolve b.2)

/-- The variables of all types that are bound. -/
def vars (Γ : Bindings) : List Int := Γ.flatMap fun b => b.2.vars

theorem inst_append (θ : Int → Ty) (Δ Γ : Bindings) : inst θ (Δ ++ Γ) = Δ.inst θ ++ Γ.inst θ :=
  List.map_append

theorem map_fst_inst (θ : Int → Ty) (Γ : Bindings) : (Γ.inst θ).map (·.1) = Γ.map (·.1) := by
  simp [inst]

theorem lookup_inst (θ : Int → Ty) (x : String) (Γ : Bindings) :
    (Γ.inst θ).lookup x = (Γ.lookup x).map (·.inst θ) := by
  induction Γ with
  | nil => rfl
  | cons b Γ ih =>
    obtain ⟨y, t⟩ := b
    change List.lookup x ((y, t.inst θ) :: Bindings.inst θ Γ) = _
    rw [List.lookup_cons, List.lookup_cons]
    cases x == y with
    | true => rfl
    | false => exact ih

theorem inst_congr {θ η : Int → Ty} {Γ : Bindings} (agree : ∀ v ∈ Γ.vars, θ v = η v) :
    Γ.inst θ = Γ.inst η := by
  refine List.map_congr_left fun b member => ?_
  rw [Ty.inst_congr fun v inside => agree v (List.mem_flatMap.mpr ⟨b, member, inside⟩)]

theorem inst_var (Γ : Bindings) : Γ.inst .var = Γ := by
  simp [inst]

/-- Bindings without variables have no instances but themselves. -/
theorem inst_eq_self {Γ : Bindings} (closed : Γ.vars = []) (θ : Int → Ty) : Γ.inst θ = Γ := by
  have agree : ∀ v ∈ Γ.vars, θ v = .var v := by simp [closed]
  rw [inst_congr agree, inst_var]

theorem mem_vars_of_lookup {Γ : Bindings} {x : String} {t : Ty} (found : Γ.lookup x = some t)
    {v : Int} (inside : v ∈ t.vars) : v ∈ Γ.vars := by
  obtain ⟨l₁, l₂, rfl, -⟩ := List.lookup_eq_some_iff.mp found
  simp [vars, inside]

end Bindings

namespace Scope

/-- All bindings of a scope, those of inner levels first. -/
def bindings : Scope Ty → Bindings
  | .top names => names
  | .inner names outer => names ++ outer.bindings

theorem get?_eq_lookup (x : String) (scope : Scope Ty) : scope.get? x = scope.bindings.lookup x := by
  induction scope with
  | top names => rfl
  | inner names outer ih =>
    rw [get?, bindings, List.lookup_append, ih]
    cases names.lookup x <;> rfl

theorem bindings_down (scope : Scope Ty) (Δ : Bindings) :
    (scope.down Δ).bindings = Δ ++ scope.bindings := rfl

end Scope

/-! ### Patterns -/

mutual

/-- `p.HasType t Δ`: values of type `t` may match `p`, and then its names have the types in `Δ`. -/
inductive Pattern.HasType : Pattern → Ty → Bindings → Prop where
  | unit (span : Span) : Pattern.HasType (.unit span) .unit []
  | int (span : Span) (n : Int) : Pattern.HasType (.int span n) .int []
  | wildcard (span : Span) (t : Ty) : Pattern.HasType (.wildcard span) t []
  | name (span : Span) (x : String) (t : Ty) : Pattern.HasType (.name span x) t [(x, t)]
  | constructor {span : Span} {label : String} {arg : Pattern} {t : Ty} {Δ : Bindings} :
    Pattern.HasType arg t Δ → Pattern.HasType (.constructor span label arg) (.sum label t) Δ
  | tuple {span : Span} {ps : List Pattern} {ts : List Ty} {Δ : Bindings} :
    Pattern.HaveTypes ps ts Δ → Pattern.HasType (.tuple span ps) (.tuple ts) Δ

inductive Pattern.HaveTypes : List Pattern → List Ty → Bindings → Prop where
  | nil : Pattern.HaveTypes [] [] []
  | cons {p : Pattern} {ps : List Pattern} {t : Ty} {ts : List Ty} {Δ Ε : Bindings} :
    Pattern.HasType p t Δ → Pattern.HaveTypes ps ts Ε →
      Pattern.HaveTypes (p :: ps) (t :: ts) (Δ ++ Ε)

end

/-- A pattern of a type that binds no name twice. -/
def Pattern.Binds (p : Pattern) (t : Ty) (Δ : Bindings) : Prop :=
  p.HasType t Δ ∧ (Δ.map (·.1)).Nodup

/-! ### Expressions -/

mutual

/-- `HasType Γ e t`: the expression `e` has type `t` when its free names have the types in `Γ`. -/
inductive HasType : Bindings → Expr → Ty → Prop where
  | unit {Γ : Bindings} (span : Span) : HasType Γ (.unit span) .unit
  | int {Γ : Bindings} (span : Span) (n : Int) : HasType Γ (.int span n) .int
  | name {Γ : Bindings} {span : Span} {x : String} {t : Ty} :
    Γ.lookup x = some t → HasType Γ (.name span x) t
  | tuple {Γ : Bindings} {span : Span} {es : List Expr} {ts : List Ty} :
    HaveTypes Γ es ts → HasType Γ (.tuple span es) (.tuple ts)
  | binop {Γ : Bindings} {span : Span} {op : String} {l r : Expr} :
    HasType Γ l .int → HasType Γ r .int → HasType Γ (.binop span op l r) .int
  | apply {Γ : Bindings} {span : Span} {f a : Expr} {t u : Ty} :
    HasType Γ f (.fn t u) → HasType Γ a t → HasType Γ (.apply span f a) u
  | constructor {Γ : Bindings} {span : Span} {label : String} {a : Expr} {t : Ty} :
    HasType Γ a t → HasType Γ (.constructor span label a) (.sum label t)
  | function {Γ Δ : Bindings} {span : Span} {p : Pattern} {b : Expr} {t u : Ty} :
    p.Binds t Δ → HasType (Δ ++ Γ) b u → HasType Γ (.function span p b) (.fn t u)
  | cond {Γ : Bindings} {span : Span} {p c a : Expr} {t : Ty} :
    HasType Γ p .int → HasType Γ c t → HasType Γ a t → HasType Γ (.cond span p c a) t
  /-- The value may use the names that it is bound to. -/
  | letIn {Γ Δ : Bindings} {span : Span} {p : Pattern} {v b : Expr} {t u : Ty} :
    p.Binds t Δ → HasType (Δ ++ Γ) v t → HasType (Δ ++ Γ) b u → HasType Γ (.letIn span p v b) u
  | matchOn {Γ : Bindings} {span : Span} {e : Expr} {cases : List (Pattern × Expr)} {t u : Ty} :
    HasType Γ e t → cases ≠ [] → CasesHaveType Γ cases t u → HasType Γ (.matchOn span e cases) u

inductive HaveTypes : Bindings → List Expr → List Ty → Prop where
  | nil {Γ : Bindings} : HaveTypes Γ [] []
  | cons {Γ : Bindings} {e : Expr} {es : List Expr} {t : Ty} {ts : List Ty} :
    HasType Γ e t → HaveTypes Γ es ts → HaveTypes Γ (e :: es) (t :: ts)

/-- All patterns have the type `t`, and all bodies the type `u`. -/
inductive CasesHaveType : Bindings → List (Pattern × Expr) → Ty → Ty → Prop where
  | nil {Γ : Bindings} {t u : Ty} : CasesHaveType Γ [] t u
  | cons {Γ Δ : Bindings} {p : Pattern} {b : Expr} {cases : List (Pattern × Expr)} {t u : Ty} :
    p.Binds t Δ → HasType (Δ ++ Γ) b u → CasesHaveType Γ cases t u →
      CasesHaveType Γ ((p, b) :: cases) t u

end

mutual

/-- Whether no pattern stands where an expression is expected. -/
def Expr.proper : Expr → Bool
  | .unit _ | .int .. | .name .. => true
  | .tuple _ es => Expr.properAll es
  | .binop _ _ l r => l.proper && r.proper
  | .apply _ f a => f.proper && a.proper
  | .constructor _ _ a => a.proper
  | .function _ _ b => b.proper
  | .cond _ p c a => p.proper && c.proper && a.proper
  | .letIn _ _ v b => v.proper && b.proper
  | .matchOn _ e cases => e.proper && Expr.properCases cases
  | .pattern _ => false

def Expr.properAll : List Expr → Bool
  | [] => true
  | e :: es => e.proper && Expr.properAll es

def Expr.properCases : List (Pattern × Expr) → Bool
  | [] => true
  | (_, b) :: cases => b.proper && Expr.properCases cases

end

end Monotype
