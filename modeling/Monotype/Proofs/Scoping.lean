import Monotype.Proofs.Collect
import Monotype.Proofs.Pattern

/-!
# Lexical scoping

Inference looks at a name only to find the binder that it belongs to. Trees in which corresponding
names belong to corresponding binders (`Expr.Alpha`) cannot be told apart by it
(`Expr.infer_alpha`). So it makes no difference what binders are called
(`Expr.inferType_eq_of_alpha`), and of an environment only the bindings of free names count
(`Expr.inferType_eq_of_freeNames`).
-/

namespace Monotype

/-! ### Trees up to the names of binders -/

mutual

/-- Both patterns are the same, spans included, except for the names that they bind. -/
inductive Pattern.Alike : Pattern → Pattern → Prop where
  | unit (span : Span) : Pattern.Alike (.unit span) (.unit span)
  | int (span : Span) (n : Int) : Pattern.Alike (.int span n) (.int span n)
  | wildcard (span : Span) : Pattern.Alike (.wildcard span) (.wildcard span)
  | name (span : Span) (x y : String) : Pattern.Alike (.name span x) (.name span y)
  | constructor {span : Span} {label : String} {p q : Pattern} :
    Pattern.Alike p q → Pattern.Alike (.constructor span label p) (.constructor span label q)
  | tuple {span : Span} {ps qs : List Pattern} :
    Pattern.AlikeAll ps qs → Pattern.Alike (.tuple span ps) (.tuple span qs)

inductive Pattern.AlikeAll : List Pattern → List Pattern → Prop where
  | nil : Pattern.AlikeAll [] []
  | cons {p q : Pattern} {ps qs : List Pattern} :
    Pattern.Alike p q → Pattern.AlikeAll ps qs → Pattern.AlikeAll (p :: ps) (q :: qs)

end

/-- A pattern may have other names if neither the old nor the new ones are bound twice. -/
inductive Pattern.Alpha : Pattern → Pattern → Prop where
  | refl (p : Pattern) : Alpha p p
  | renamed {p q : Pattern} : p.Alike q → p.names.Nodup → q.names.Nodup → Alpha p q

/-- Which names of one tree correspond to which names of another. -/
abbrev NameRel := String → String → Prop

/-- How names correspond inside of two binders, the one of `xs` and the other of `ys`, if they
correspond by `R` outside. What is bound corresponds one by one; a name that one of the binders
hides corresponds to no name that the other leaves alone. -/
def NameRel.under (R : NameRel) : List String → List String → NameRel
  | [], [], a, b => R a b
  | x :: xs, y :: ys, a, b => (a = x ∧ b = y) ∨ (a ≠ x ∧ b ≠ y ∧ R.under xs ys a b)
  | _, _, _, _ => False

mutual

/-- `Expr.Alpha R e e'`: the trees are the same, spans included, except that binders have other
names. Names that are bound belong to corresponding binders, and free names correspond by `R`. The
names of a let are bound in its value and its body, those of a parameter in the body of the
function, and those of a case in the body of this case. -/
inductive Expr.Alpha : NameRel → Expr → Expr → Prop where
  | unit {R : NameRel} (span : Span) : Expr.Alpha R (.unit span) (.unit span)
  | int {R : NameRel} (span : Span) (n : Int) :
    Expr.Alpha R (.int span n) (.int span n)
  | name {R : NameRel} {span : Span} {x y : String} :
    R x y → Expr.Alpha R (.name span x) (.name span y)
  | tuple {R : NameRel} {span : Span} {es fs : List Expr} :
    Expr.AlphaAll R es fs → Expr.Alpha R (.tuple span es) (.tuple span fs)
  | binop {R : NameRel} {span : Span} {op : String} {l r l' r' : Expr} :
    Expr.Alpha R l l' → Expr.Alpha R r r' →
      Expr.Alpha R (.binop span op l r) (.binop span op l' r')
  | apply {R : NameRel} {span : Span} {f a f' a' : Expr} :
    Expr.Alpha R f f' → Expr.Alpha R a a' → Expr.Alpha R (.apply span f a) (.apply span f' a')
  | constructor {R : NameRel} {span : Span} {label : String} {a a' : Expr} :
    Expr.Alpha R a a' → Expr.Alpha R (.constructor span label a) (.constructor span label a')
  | function {R : NameRel} {span : Span} {p q : Pattern} {b b' : Expr} :
    p.Alpha q → Expr.Alpha (R.under p.names q.names) b b' →
      Expr.Alpha R (.function span p b) (.function span q b')
  | cond {R : NameRel} {span : Span} {p c a p' c' a' : Expr} :
    Expr.Alpha R p p' → Expr.Alpha R c c' → Expr.Alpha R a a' →
      Expr.Alpha R (.cond span p c a) (.cond span p' c' a')
  | letIn {R : NameRel} {span : Span} {p q : Pattern} {v b v' b' : Expr} :
    p.Alpha q → Expr.Alpha (R.under p.names q.names) v v' →
      Expr.Alpha (R.under p.names q.names) b b' →
      Expr.Alpha R (.letIn span p v b) (.letIn span q v' b')
  | matchOn {R : NameRel} {span : Span} {e e' : Expr}
    {cases cases' : List (Pattern × Expr)} :
    Expr.Alpha R e e' → Expr.AlphaCases R cases cases' →
      Expr.Alpha R (.matchOn span e cases) (.matchOn span e' cases')
  | pattern {R : NameRel} {p q : Pattern} :
    p.Alpha q → Expr.Alpha R (.pattern p) (.pattern q)

inductive Expr.AlphaAll : NameRel → List Expr → List Expr → Prop where
  | nil {R : NameRel} : Expr.AlphaAll R [] []
  | cons {R : NameRel} {e f : Expr} {es fs : List Expr} :
    Expr.Alpha R e f → Expr.AlphaAll R es fs → Expr.AlphaAll R (e :: es) (f :: fs)

inductive Expr.AlphaCases : NameRel → List (Pattern × Expr) → List (Pattern × Expr) → Prop where
  | nil {R : NameRel} : Expr.AlphaCases R [] []
  | cons {R : NameRel} {p q : Pattern} {b b' : Expr}
    {cases cases' : List (Pattern × Expr)} :
    p.Alpha q → Expr.Alpha (R.under p.names q.names) b b' → Expr.AlphaCases R cases cases' →
      Expr.AlphaCases R ((p, b) :: cases) ((q, b') :: cases')

end

/-! ### Patterns with other names -/

/-- The names can be bound to the right of the names `seen`. -/
def Bindable (seen names : List String) : Prop := names.Nodup ∧ ∀ x ∈ names, x ∉ seen

theorem bindable_append {seen xs ys : List String} :
    Bindable seen (xs ++ ys) ↔ Bindable seen xs ∧ Bindable (seen ++ xs) ys := by
  unfold Bindable
  rw [List.nodup_append]
  grind

mutual

theorem Pattern.HasType.names : ∀ {p : Pattern} {t : Ty} {Δ : Bindings}, p.HasType t Δ →
    Δ.map (·.1) = p.names
  | _, _, _, .unit _ => rfl
  | _, _, _, .int _ _ => rfl
  | _, _, _, .wildcard _ _ => rfl
  | _, _, _, .name _ _ _ => rfl
  | _, _, _, .constructor arg => by
    rw [Pattern.names]
    exact Pattern.HasType.names arg
  | _, _, _, .tuple elements => Pattern.HaveTypes.names elements

theorem Pattern.HaveTypes.names : ∀ {ps : List Pattern} {ts : List Ty} {Δ : Bindings},
    Pattern.HaveTypes ps ts Δ → Δ.map (·.1) = Pattern.namesAll ps
  | _, _, _, .nil => rfl
  | _, _, _, .cons head tail => by
    rw [List.map_append, Pattern.HasType.names head, Pattern.HaveTypes.names tail, Pattern.namesAll]

end

open Infer

theorem Pattern.inferFrom_names {p : Pattern} {seen : List String} {s s' : Session} {t : Ty}
    {Δ : Bindings} (run : p.inferFrom seen s = .ok (t, Δ) s') : Δ.map (·.1) = p.names := by
  obtain ⟨-, typed⟩ := p.inferFrom_sound run
  rw [← Bindings.map_fst_inst .var Δ]
  exact (typed .var).names

mutual

/-- Patterns that differ in their names only get the same type and the same ids. -/
theorem Pattern.Alike.inferFrom : ∀ {p q : Pattern}, p.Alike q → ∀ {seen seen' : List String}
    (s : Session), Bindable seen p.names → Bindable seen' q.names →
    ∃ t Δ Δ' s', p.inferFrom seen s = .ok (t, Δ) s' ∧ q.inferFrom seen' s = .ok (t, Δ') s' ∧
      Δ.map (·.2) = Δ'.map (·.2)
  | _, _, .unit _, _, _, s, _, _ => ⟨.unit, [], [], s, rfl, rfl, rfl⟩
  | _, _, .int _ _, _, _, s, _, _ => ⟨.int, [], [], s, rfl, rfl, rfl⟩
  | _, _, .wildcard _, _, _, s, _, _ =>
    ⟨.var s.next, [], [], { s with next := s.next + 1 }, rfl, rfl, rfl⟩
  | _, _, .name span x y, seen, seen', s, left, right => by
    refine ⟨.var s.next, [(x, .var s.next)], [(y, .var s.next)], { s with next := s.next + 1 },
      ?_, ?_, rfl⟩
    · unfold Pattern.inferFrom
      rw [if_neg (left.2 x (by simp [Pattern.names]))]
      rfl
    · unfold Pattern.inferFrom
      rw [if_neg (right.2 y (by simp [Pattern.names]))]
      rfl
  | _, _, @Pattern.Alike.constructor span label p q arg, seen, seen', s, left, right => by
    obtain ⟨t, Δ, Δ', s', run, run', types⟩ := Alike.inferFrom arg s left right
    refine ⟨.sum label t, Δ, Δ', s', ?_, ?_, types⟩
    · simp only [Pattern.inferFrom, bind_ok, pure_ok, Prod.exists]
      exact ⟨t, Δ, s', run, rfl, rfl⟩
    · simp only [Pattern.inferFrom, bind_ok, pure_ok, Prod.exists]
      exact ⟨t, Δ', s', run', rfl, rfl⟩
  | _, _, @Pattern.Alike.tuple span ps qs elements, seen, seen', s, left, right => by
    obtain ⟨ts, Δ, Δ', s', run, run', types⟩ := AlikeAll.inferAllFrom elements s left right
    refine ⟨.tuple ts, Δ, Δ', s', ?_, ?_, types⟩
    · simp only [Pattern.inferFrom, bind_ok, pure_ok, Prod.exists]
      exact ⟨ts, Δ, s', run, rfl, rfl⟩
    · simp only [Pattern.inferFrom, bind_ok, pure_ok, Prod.exists]
      exact ⟨ts, Δ', s', run', rfl, rfl⟩

theorem Pattern.AlikeAll.inferAllFrom : ∀ {ps qs : List Pattern}, Pattern.AlikeAll ps qs →
    ∀ {seen seen' : List String} (s : Session), Bindable seen (Pattern.namesAll ps) →
    Bindable seen' (Pattern.namesAll qs) →
    ∃ ts Δ Δ' s', Pattern.inferAllFrom seen ps s = .ok (ts, Δ) s' ∧
      Pattern.inferAllFrom seen' qs s = .ok (ts, Δ') s' ∧ Δ.map (·.2) = Δ'.map (·.2)
  | _, _, .nil, _, _, s, _, _ => ⟨[], [], [], s, rfl, rfl, rfl⟩
  | _, _, @Pattern.AlikeAll.cons p q ps qs head tail, seen, seen', s, left, right => by
    rw [Pattern.namesAll, bindable_append] at left right
    obtain ⟨t, Δ, Δ', s₁, run₁, run₁', types₁⟩ := Alike.inferFrom head s left.1 right.1
    -- To the right of the first patterns their names are seen.
    have left₂ := left.2
    have right₂ := right.2
    rw [← Pattern.inferFrom_names run₁] at left₂
    rw [← Pattern.inferFrom_names run₁'] at right₂
    obtain ⟨ts, Ε, Ε', s₂, run₂, run₂', types₂⟩ := AlikeAll.inferAllFrom tail s₁ left₂ right₂
    refine ⟨t :: ts, Δ ++ Ε, Δ' ++ Ε', s₂, ?_, ?_, ?_⟩
    · simp only [Pattern.inferAllFrom, bind_ok, pure_ok, Prod.exists]
      exact ⟨t, Δ, s₁, run₁, ts, Ε, s₂, run₂, rfl, rfl⟩
    · simp only [Pattern.inferAllFrom, bind_ok, pure_ok, Prod.exists]
      exact ⟨t, Δ', s₁, run₁', ts, Ε', s₂, run₂', rfl, rfl⟩
    · rw [List.map_append, List.map_append, types₁, types₂]

end

/-! ### Scopes that agree -/

/-- Corresponding names have the same type or none, and a name without a type is called the same. -/
def Scope.Agree (R : NameRel) (scope scope' : Scope Ty) : Prop :=
  ∀ x y, R x y → scope.get? x = scope'.get? y ∧ (scope.get? x = none → x = y)

theorem Scope.Agree.down {R : NameRel} {scope scope' : Scope Ty}
    (agree : Scope.Agree R scope scope') {Δ Δ' : Bindings} (types : Δ.map (·.2) = Δ'.map (·.2)) :
    Scope.Agree (R.under (Δ.map (·.1)) (Δ'.map (·.1))) (scope.down Δ) (scope'.down Δ') := by
  intro x y related
  unfold Scope.Agree at agree
  simp only [Scope.get?_eq_lookup, Scope.bindings_down] at agree ⊢
  induction Δ generalizing Δ' with
  | nil =>
    cases Δ' with
    | nil => exact agree x y related
    | cons b Δ' => cases types
  | cons b Δ ih =>
    cases Δ' with
    | nil => cases types
    | cons b' Δ' =>
      obtain ⟨a, t⟩ := b
      obtain ⟨a', t'⟩ := b'
      simp only [List.map_cons, List.cons.injEq] at types
      obtain ⟨rfl, rest⟩ := types
      rcases related with ⟨rfl, rfl⟩ | ⟨left, right, related⟩
      · simp
      · have left : (x == a) = false := beq_eq_false_iff_ne.mpr left
        have right : (y == a') = false := beq_eq_false_iff_ne.mpr right
        simp only [List.cons_append, List.lookup_cons, left, right]
        exact ih rest related

/-- Corresponding patterns bind, and what follows may depend on the scopes only as far as they
agree. -/
theorem Pattern.Alpha.bind {α : Type} {R : NameRel} {scope scope' : Scope Ty}
    {p q : Pattern} (alpha : p.Alpha q) (agree : Scope.Agree R scope scope')
    {f g : Ty × Bindings → Infer α} (rest : ∀ t Δ Δ',
      Scope.Agree (R.under p.names q.names) (scope.down Δ) (scope'.down Δ') →
        f (t, Δ) = g (t, Δ')) :
    p.infer >>= f = q.infer >>= g := by
  funext s
  rw [run_bind, run_bind]
  cases alpha with
  | refl =>
    cases run : p.infer s with
    | error problem s₁ => rfl
    | ok result s₁ =>
      obtain ⟨t, Δ⟩ := result
      have inside := agree.down (Eq.refl (Δ.map (·.2)))
      rw [inferFrom_names run] at inside
      exact congrFun (rest t Δ Δ inside) s₁
  | renamed alike left right =>
    have bindable {names : List String} (distinct : names.Nodup) : Bindable [] names :=
      ⟨distinct, by simp⟩
    obtain ⟨t, Δ, Δ', s₁, run, run', types⟩ :=
      alike.inferFrom s (bindable left) (bindable right)
    have inside := agree.down types
    rw [inferFrom_names run, inferFrom_names run'] at inside
    rw [Pattern.infer, Pattern.infer, run, run']
    exact congrFun (rest t Δ Δ' inside) s₁

/-! ### Inference -/

mutual

theorem Expr.infer_alpha : ∀ {R : NameRel} {e e' : Expr}, e.Alpha R e' →
    ∀ {scope scope' : Scope Ty}, Scope.Agree R scope scope' → e.infer scope = e'.infer scope'
  | _, _, _, .unit _, _, _, _ => rfl
  | _, _, _, .int _ _, _, _, _ => rfl
  | R, _, _, @Expr.Alpha.name _ span x y related, scope, scope', agree => by
    obtain ⟨same, unknown⟩ := agree x y related
    unfold Expr.infer
    rw [← same]
    cases found : scope.get? x with
    | none => rw [unknown found]
    | some t => rfl
  | _, _, _, .tuple elements, _, _, agree => by
    rw [Expr.infer, Expr.infer, inferAll_alpha elements agree]
  | _, _, _, .binop left right, _, _, agree => by
    rw [Expr.infer, Expr.infer, infer_alpha left agree, infer_alpha right agree]
  | _, _, _, .apply func arg, _, _, agree => by
    rw [Expr.infer, Expr.infer, infer_alpha func agree, infer_alpha arg agree]
  | _, _, _, .constructor arg, _, _, agree => by
    rw [Expr.infer, Expr.infer, infer_alpha arg agree]
  | _, _, _, .function param body, _, _, agree => by
    rw [Expr.infer, Expr.infer]
    refine param.bind agree fun t Δ Δ' inside => ?_
    dsimp only
    rw [infer_alpha body inside]
  | _, _, _, .cond pred cons alt, _, _, agree => by
    rw [Expr.infer, Expr.infer, infer_alpha pred agree, infer_alpha cons agree,
      infer_alpha alt agree]
  | _, _, _, .letIn target value body, _, _, agree => by
    rw [Expr.infer, Expr.infer]
    refine target.bind agree fun t Δ Δ' inside => ?_
    dsimp only
    rw [infer_alpha value inside, infer_alpha body inside]
  | _, _, _, .matchOn _ .nil, _, _, _ => rfl
  | _, _, _, .matchOn subject (.cons binder body rest), _, _, agree => by
    rw [Expr.infer, Expr.infer, infer_alpha subject agree, inferCases_alpha rest agree]
    refine congrArg _ (funext fun s => ?_)
    refine binder.bind agree fun t Δ Δ' inside => ?_
    dsimp only
    rw [infer_alpha body inside]
  | _, _, _, .pattern alpha, _, _, agree => by
    rw [Expr.infer, Expr.infer]
    exact alpha.bind agree fun t Δ Δ' inside => rfl

theorem Expr.inferAll_alpha : ∀ {R : NameRel} {es fs : List Expr},
    Expr.AlphaAll R es fs → ∀ {scope scope' : Scope Ty}, Scope.Agree R scope scope' →
    Expr.inferAll scope es = Expr.inferAll scope' fs
  | _, _, _, .nil, _, _, _ => rfl
  | _, _, _, .cons head tail, _, _, agree => by
    rw [Expr.inferAll, Expr.inferAll, infer_alpha head agree, inferAll_alpha tail agree]

theorem Expr.inferCases_alpha : ∀ {R : NameRel} {cases cases' : List (Pattern × Expr)},
    Expr.AlphaCases R cases cases' → ∀ {scope scope' : Scope Ty}, Scope.Agree R scope scope' →
    Expr.inferCases scope cases = Expr.inferCases scope' cases'
  | _, _, _, .nil, _, _, _ => rfl
  | _, _, _, .cons binder body rest, _, _, agree => by
    rw [Expr.inferCases, Expr.inferCases, inferCases_alpha rest agree]
    refine binder.bind agree fun t Δ Δ' inside => ?_
    dsimp only
    rw [infer_alpha body inside]

end

/-- Trees that differ in the names of their binders only have the same outcome under every
environment and from every session: the same type, or the same problem, and the same session
afterwards. -/
theorem Expr.inferType_eq_of_alpha {e e' : Expr} (alpha : e.Alpha Eq e') (env : Bindings) :
    e.inferType env = e'.inferType env := by
  have agree : Scope.Agree Eq (.top env) (.top env) := by
    rintro x _ rfl
    exact ⟨rfl, fun _ => rfl⟩
  unfold Expr.inferType
  rw [Expr.infer_alpha alpha agree]

/-- A recursive function, a case and a parameter, where each of two names has become the other. -/
theorem Expr.inferType_eq_of_alpha_swap :
    let tree (f g x : String) := Expr.letIn .origin (.name .origin f)
      (.function .origin (.name .origin x) (.apply .origin (.name .origin f) (.name .origin x)))
      (.matchOn .origin (.name .origin f) [(.name .origin g, .function .origin (.name .origin f)
        (.apply .origin (.name .origin g) (.tuple .origin [.name .origin f, .name .origin "k"])))])
    (tree "f" "g" "x").Alpha Eq (tree "g" "f" "f") ∧
      (tree "f" "g" "x").inferType [("k", .int), ("f", .unit)] =
        (tree "g" "f" "f").inferType [("k", .int), ("f", .unit)] := by
  intro tree
  have bound (x y : String) : (Pattern.name .origin x).Alpha (.name .origin y) :=
    .renamed (.name _ _ _) (by simp [Pattern.names]) (by simp [Pattern.names])
  have alpha : (tree "f" "g" "x").Alpha Eq (tree "g" "f" "f") := by
    refine .letIn (bound _ _) (.function (bound _ _) (.apply (.name ?_) (.name ?_)))
      (.matchOn (.name ?_) (.cons (bound _ _) (.function (bound _ _) (.apply (.name ?_)
        (.tuple (.cons (.name ?_) (.cons (.name ?_) .nil))))) .nil))
    all_goals simp [Pattern.names, NameRel.under]
  exact ⟨alpha, Expr.inferType_eq_of_alpha alpha _⟩

/-! ### Free names -/

mutual

/-- The names that no pattern around them binds. -/
def Expr.freeNames : Expr → List String
  | .unit _ | .int .. | .pattern _ => []
  | .name _ x => [x]
  | .tuple _ es => Expr.freeNamesAll es
  | .binop _ _ l r => l.freeNames ++ r.freeNames
  | .apply _ f a => f.freeNames ++ a.freeNames
  | .constructor _ _ a => a.freeNames
  | .function _ p b => b.freeNames.filter (· ∉ p.names)
  | .cond _ p c a => p.freeNames ++ c.freeNames ++ a.freeNames
  | .letIn _ p v b => (v.freeNames ++ b.freeNames).filter (· ∉ p.names)
  | .matchOn _ e cases => e.freeNames ++ Expr.freeNamesCases cases

def Expr.freeNamesAll : List Expr → List String
  | [] => []
  | e :: es => e.freeNames ++ Expr.freeNamesAll es

def Expr.freeNamesCases : List (Pattern × Expr) → List String
  | [] => []
  | (p, b) :: cases => b.freeNames.filter (· ∉ p.names) ++ Expr.freeNamesCases cases

end

theorem NameRel.under_self {R : NameRel} {xs : List String} {x : String} (known : x ∉ xs → R x x) :
    R.under xs xs x x := by
  induction xs with
  | nil => exact known List.not_mem_nil
  | cons y ys ih =>
    by_cases same : x = y
    · exact .inl ⟨same, same⟩
    · refine .inr ⟨same, same, ih fun absent => known ?_⟩
      simp [same, absent]

theorem NameRel.under_of_filter {R : NameRel} {xs names : List String}
    (free : ∀ x ∈ names.filter (· ∉ xs), R x x) : ∀ x ∈ names, R.under xs xs x x := by
  intro x member
  refine under_self fun absent => free x ?_
  simp [member, absent]

mutual

/-- A tree corresponds to itself when its free names correspond to themselves. -/
theorem Expr.alpha_self : ∀ (e : Expr) {R : NameRel}, (∀ x ∈ e.freeNames, R x x) → e.Alpha R e
  | .unit span, _, _ => .unit span
  | .int span n, _, _ => .int span n
  | .name span x, _, free => .name (free x (by simp [Expr.freeNames]))
  | .tuple _ es, _, free => .tuple (alphaAll_self es free)
  | .binop _ _ l r, _, free => by
    rw [Expr.freeNames, List.forall_mem_append] at free
    exact .binop (alpha_self l free.1) (alpha_self r free.2)
  | .apply _ f a, _, free => by
    rw [Expr.freeNames, List.forall_mem_append] at free
    exact .apply (alpha_self f free.1) (alpha_self a free.2)
  | .constructor _ _ a, _, free => .constructor (alpha_self a free)
  | .function _ p b, _, free =>
    .function (.refl p) (alpha_self b (NameRel.under_of_filter free))
  | .cond _ p c a, _, free => by
    rw [Expr.freeNames, List.forall_mem_append, List.forall_mem_append] at free
    exact .cond (alpha_self p free.1.1) (alpha_self c free.1.2) (alpha_self a free.2)
  | .letIn _ p v b, _, free => by
    have inside := NameRel.under_of_filter free
    rw [List.forall_mem_append] at inside
    exact .letIn (.refl p) (alpha_self v inside.1) (alpha_self b inside.2)
  | .matchOn _ e cases, _, free => by
    rw [Expr.freeNames, List.forall_mem_append] at free
    exact .matchOn (alpha_self e free.1) (alphaCases_self cases free.2)
  | .pattern p, _, _ => .pattern (.refl p)

theorem Expr.alphaAll_self : ∀ (es : List Expr) {R : NameRel},
    (∀ x ∈ Expr.freeNamesAll es, R x x) → Expr.AlphaAll R es es
  | [], _, _ => .nil
  | e :: es, _, free => by
    rw [Expr.freeNamesAll, List.forall_mem_append] at free
    exact .cons (alpha_self e free.1) (alphaAll_self es free.2)

theorem Expr.alphaCases_self : ∀ (cases : List (Pattern × Expr)) {R : NameRel},
    (∀ x ∈ Expr.freeNamesCases cases, R x x) → Expr.AlphaCases R cases cases
  | [], _, _ => .nil
  | (p, b) :: cases, _, free => by
    rw [Expr.freeNamesCases, List.forall_mem_append] at free
    exact .cons (.refl p) (alpha_self b (NameRel.under_of_filter free.1))
      (alphaCases_self cases free.2)

end

theorem Expr.infer_eq_of_freeNames (e : Expr) {env env' : Bindings}
    (agree : ∀ x ∈ e.freeNames, env.lookup x = env'.lookup x) :
    e.infer (.top env) = e.infer (.top env') := by
  -- Names correspond to themselves, provided that both environments say the same about them.
  let R : NameRel := fun x y => x = y ∧ env.lookup x = env'.lookup y
  have alpha : e.Alpha R e := e.alpha_self fun x free => ⟨rfl, agree x free⟩
  exact Expr.infer_alpha alpha fun x y related => ⟨related.2, fun _ => related.1⟩

/-- Under environments that agree on the free names of a tree, in that they bind them first to the
same type or both bind them to none, the tree has the same outcome from every session. -/
theorem Expr.inferType_eq_of_freeNames (e : Expr) {env env' : Bindings}
    (agree : ∀ x ∈ e.freeNames, env.lookup x = env'.lookup x) :
    e.inferType env = e.inferType env' := by
  unfold Expr.inferType
  rw [e.infer_eq_of_freeNames agree]

/-- A recursive function under environments that also bind its own names, in different ways. -/
theorem Expr.inferType_eq_of_freeNames_hidden :
    let e := Expr.letIn .origin (.name .origin "f") (.function .origin (.name .origin "x")
      (.apply .origin (.name .origin "f")
        (.binop .origin "+" (.name .origin "x") (.name .origin "k")))) (.name .origin "f")
    e.freeNames = ["k"] ∧ e.inferType [("f", .unit), ("k", .int), ("k", .unit)] =
      e.inferType [("x", .var 7), ("k", .int)] := by
  intro e
  have free : e.freeNames = ["k"] := by decide
  refine ⟨free, e.inferType_eq_of_freeNames fun x member => ?_⟩
  rw [free, List.mem_singleton] at member
  subst member
  rfl

end Monotype
