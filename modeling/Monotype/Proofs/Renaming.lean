import Mathlib.Data.List.Basic
import Mathlib.Logic.Function.Basic
import Monotype.Proofs.Solving

/-!
# Other ids for variables

Solving does not depend on which ids variables have: when all of them are exchanged by an injective
renaming, the same steps are taken, and what comes of them is renamed alike (`Subst.unify_rename`).
-/

namespace Monotype

variable {ρ : Int → Int}

/-- Looking up under other ids. -/
theorem lookup_rename {α β : Type} (injective : Function.Injective ρ) (f : α → β)
    (entries : List (Int × α)) (v : Int) :
    (entries.map fun entry => (ρ entry.1, f entry.2)).lookup (ρ v) = (entries.lookup v).map f := by
  induction entries with
  | nil => rfl
  | cons entry entries ih =>
    obtain ⟨w, a⟩ := entry
    have same : (ρ v == ρ w) = (v == w) := by
      rw [Bool.eq_iff_iff, beq_iff_eq, beq_iff_eq, injective.eq_iff]
    rw [List.map_cons, List.lookup_cons, List.lookup_cons, same, ih]
    cases v == w with
    | true => rfl
    | false => rfl

/-! ### Types -/

namespace Ty

/-- The type with other ids for its variables. -/
def rename (ρ : Int → Int) (t : Ty) : Ty := t.inst fun v => .var (ρ v)

@[simp] theorem rename_name (ρ : Int → Int) (n : String) : (Ty.name n).rename ρ = .name n := rfl

@[simp] theorem rename_var (ρ : Int → Int) (v : Int) : (Ty.var v).rename ρ = .var (ρ v) := rfl

@[simp] theorem rename_fn (ρ : Int → Int) (p r : Ty) :
    (Ty.fn p r).rename ρ = .fn (p.rename ρ) (r.rename ρ) := rfl

@[simp] theorem rename_sum (ρ : Int → Int) (l : String) (p : Ty) :
    (Ty.sum l p).rename ρ = .sum l (p.rename ρ) := rfl

@[simp] theorem rename_tuple (ρ : Int → Int) (es : List Ty) :
    (Ty.tuple es).rename ρ = .tuple (es.map (rename ρ)) := by
  rw [rename, inst, instAll_eq_map]
  rfl

mutual

theorem vars_rename (ρ : Int → Int) : ∀ t : Ty, (t.rename ρ).vars = t.vars.map ρ
  | .name _ => rfl
  | .var _ => rfl
  | .fn p r => by simp only [rename_fn, vars, vars_rename ρ p, vars_rename ρ r, List.map_append]
  | .tuple es => by simp only [rename_tuple, vars, varsAll_rename ρ es]
  | .sum _ p => by simp only [rename_sum, vars, vars_rename ρ p]

theorem varsAll_rename (ρ : Int → Int) :
    ∀ ts : List Ty, varsAll (ts.map (rename ρ)) = (varsAll ts).map ρ
  | [] => rfl
  | t :: ts => by
    simp only [List.map_cons, varsAll, vars_rename ρ t, varsAll_rename ρ ts, List.map_append]

end

theorem rename_leftInverse {σ : Int → Int} (inverse : Function.LeftInverse σ ρ) :
    Function.LeftInverse (rename σ) (rename ρ) := by
  intro t
  rw [rename, rename, inst_inst]
  refine inst_eq_self fun v _ => ?_
  change Ty.var (σ (ρ v)) = .var v
  rw [inverse v]

theorem rename_injective (injective : Function.Injective ρ) : Function.Injective (rename ρ) :=
  (rename_leftInverse (Function.leftInverse_invFun injective)).injective

theorem mentions_rename (injective : Function.Injective ρ) (t : Ty) (v : Int) :
    (t.rename ρ).mentions (ρ v) = t.mentions v := by
  rw [Bool.eq_iff_iff, mentions_iff, mentions_iff, vars_rename, List.mem_map_of_injective injective]

theorem rename_assign (injective : Function.Injective ρ) (v : Int) (t u : Ty) :
    (u.inst (assign v t)).rename ρ = (u.rename ρ).inst (assign (ρ v) (t.rename ρ)) := by
  rw [rename, inst_inst, rename.eq_def ρ u, inst_inst]
  refine inst_congr fun w _ => ?_
  change (assign v t w).rename ρ = assign (ρ v) (t.rename ρ) (ρ w)
  unfold assign
  by_cases same : w = v
  · rw [if_pos same, if_pos (congrArg ρ same)]
  · rw [if_neg same, if_neg fun equal => same (injective equal)]
    rfl

end Ty

/-! ### Equations -/

def Clash.rename (ρ : Int → Int) (c : Clash) : Clash := ⟨c.kind, c.left.rename ρ, c.right.rename ρ⟩

def Equation.rename (ρ : Int → Int) (e : Equation) : Equation :=
  ⟨e.left.rename ρ, e.right.rename ρ⟩

def Step.rename (ρ : Int → Int) : Step → Step
  | .done => .done
  | .bind v t => .bind (ρ v) (t.rename ρ)
  | .split parts => .split (parts.map (Equation.rename ρ))
  | .clash c => .clash (c.rename ρ)

namespace Equation

theorem bindVar_rename (injective : Function.Injective ρ) (v : Int) (t : Ty) :
    bindVar (ρ v) (t.rename ρ) = (bindVar v t).rename ρ := by
  unfold bindVar
  rw [Ty.mentions_rename injective]
  split
  · rfl
  · rfl

theorem zipWith_rename (ρ : Int → Int) (as bs : List Ty) :
    List.zipWith Equation.mk (as.map (Ty.rename ρ)) (bs.map (Ty.rename ρ)) =
      (List.zipWith Equation.mk as bs).map (Equation.rename ρ) := by
  rw [List.zipWith_map, List.map_zipWith]
  rfl

/-- The first look at an equation does not depend on ids. -/
theorem step_rename (injective : Function.Injective ρ) (e : Equation) :
    (e.rename ρ).step = e.step.rename ρ := by
  obtain ⟨l, r⟩ := e
  cases l with
  | var a =>
    have same : r.rename ρ = .var (ρ a) ↔ r = .var a :=
      (Ty.rename_injective injective).eq_iff (b := .var a)
    simp only [rename, step, Ty.rename_var, same]
    split
    · rfl
    · exact bindVar_rename injective a r
  | name a =>
    cases r with
    | var b => exact bindVar_rename injective b (.name a)
    | name b =>
      simp only [rename, step, Ty.rename_name]
      split <;> rfl
    | _ => rfl
  | fn p q =>
    cases r with
    | var b => exact bindVar_rename injective b (.fn p q)
    | _ => rfl
  | tuple as =>
    cases r with
    | var b => exact bindVar_rename injective b (.tuple as)
    | tuple bs =>
      simp only [rename, step, Ty.rename_tuple, List.length_map, zipWith_rename]
      split
      · rfl
      · simp only [Step.rename, Clash.rename, Ty.rename_tuple]
    | _ => rfl
  | sum k p =>
    cases r with
    | var b => exact bindVar_rename injective b (.sum k p)
    | sum l q =>
      simp only [rename, step, Ty.rename_sum]
      split <;> rfl
    | _ => rfl

end Equation

/-! ### The agenda -/

def Subst.rename (ρ : Int → Int) (s : Subst) : Subst :=
  s.map fun entry => (ρ entry.1, entry.2.rename ρ)

def Event.rename (ρ : Int → Int) : Event → Event
  | .solved left right => .solved (left.rename ρ) (right.rename ρ)
  | .clashed c => .clashed (c.rename ρ)
  | .solution s => .solution (s.rename ρ)
  | .inferred t => .inferred (t.rename ρ)
  | e => e

def Solution.rename (ρ : Int → Int) (s : Solution) : Solution where
  found := s.found.rename ρ
  log := s.log.map (Event.rename ρ)
  clash := s.clash.map (Clash.rename ρ)

namespace Task

def rename (ρ : Int → Int) : Task → Task
  | .solve asked now => .solve (asked.rename ρ) (now.rename ρ)
  | .close asked => .close (asked.rename ρ)

theorem assignAll_rename (injective : Function.Injective ρ) (v : Int) (t : Ty)
    (agenda : List Task) : assignAll (ρ v) (t.rename ρ) (agenda.map (rename ρ)) =
      (assignAll v t agenda).map (rename ρ) := by
  unfold assignAll
  rw [List.map_map, List.map_map]
  refine List.map_congr_left fun task _ => ?_
  cases task with
  | solve asked now =>
    simp only [Function.comp, rename, assign, Equation.rename, Equation.inst,
      Ty.rename_assign injective]
  | close asked => rfl

theorem map_ask_rename (ρ : Int → Int) (parts : List Equation) :
    (parts.map (Equation.rename ρ)).map ask = (parts.map ask).map (rename ρ) := by
  rw [List.map_map, List.map_map]
  rfl

/-- A renamed agenda is worked off in the same way. -/
theorem solveAll_rename (injective : Function.Injective ρ) (agenda : List Task) :
    solveAll (agenda.map (rename ρ)) = (solveAll agenda).rename ρ := by
  -- The induction follows the agenda without new ids; each step of it is the step under new ids.
  fun_induction solveAll agenda with
  | case1 =>
    rw [List.map_nil, solveAll]
    rfl
  | case2 e rest ih =>
    rw [List.map_cons, rename, solveAll, ih]
    rfl
  | case3 asked now rest done ih =>
    rw [List.map_cons, rename, solveAll_solve, Equation.step_rename injective, done]
    exact ih
  | case4 asked now rest v t bound ih =>
    rw [List.map_cons, rename, solveAll_solve, Equation.step_rename injective, bound]
    rw [List.map_cons, ← assignAll_rename injective] at ih
    exact congrArg (Solution.bind (ρ v) (t.rename ρ)) ih
  | case5 asked now rest parts split ih =>
    rw [List.map_cons, rename, solveAll_solve, Equation.step_rename injective, split]
    rw [List.map_append, ← map_ask_rename] at ih
    exact ih
  | case6 asked now rest c clash =>
    rw [List.map_cons, rename, solveAll_solve, Equation.step_rename injective, clash]
    rfl

end Task

/-! ### Substitutions -/

namespace Subst

theorem get?_rename (injective : Function.Injective ρ) (s : Subst) (v : Int) :
    (s.rename ρ).get? (ρ v) = (s.get? v).map (Ty.rename ρ) :=
  lookup_rename injective (Ty.rename ρ) s v

theorem follow_rename (injective : Function.Injective ρ) (s : Subst) (depth : Nat) (v : Int) :
    (s.rename ρ).follow depth (ρ v) = (s.follow depth v).rename ρ := by
  induction depth generalizing v with
  | zero => rfl
  | succ depth ih =>
    rw [follow_succ, follow_succ, get?_rename injective]
    cases s.get? v with
    | none => rfl
    | some t =>
      change (t.rename ρ).inst _ = (t.inst _).rename ρ
      rw [Ty.rename, Ty.rename, Ty.inst_inst, Ty.inst_inst]
      exact Ty.inst_congr fun w _ => ih w

theorem resolve_rename (injective : Function.Injective ρ) (s : Subst) (t : Ty) :
    (s.rename ρ).resolve (t.rename ρ) = (s.resolve t).rename ρ := by
  have length : (s.rename ρ).length = s.length := List.length_map _
  unfold resolve closure
  rw [length, Ty.rename, Ty.rename, Ty.inst_inst, Ty.inst_inst]
  exact Ty.inst_congr fun v _ => follow_rename injective s s.length v

end Subst

def Unification.rename (ρ : Int → Int) (u : Unification) : Unification where
  subst := u.subst.rename ρ
  log := u.log.map (Event.rename ρ)
  clash := u.clash.map (Clash.rename ρ)

namespace Subst

theorem solve_rename (injective : Function.Injective ρ) (s : Subst) (e : Equation) :
    (s.rename ρ).solve (e.rename ρ) = (s.solve e).rename ρ := by
  unfold solve
  rw [← Task.solveAll_rename injective]
  simp only [List.map_cons, List.map_nil, Task.rename, Equation.rename, Equation.resolve,
    resolve_rename injective]

/-- Solving renamed equations on top of a renamed substitution does the same, renamed. -/
theorem unify_rename (injective : Function.Injective ρ) (s : Subst) (es : List Equation) :
    (s.rename ρ).unify (es.map (Equation.rename ρ)) = (s.unify es).rename ρ := by
  induction es generalizing s with
  | nil => rfl
  | cons e es ih =>
    have known : s.rename ρ ++ ((s.solve e).rename ρ).found =
        Subst.rename ρ (s ++ (s.solve e).found) := List.map_append.symm
    rw [List.map_cons, unify_cons, unify_cons, solve_rename injective, known, ih]
    cases clash : (s.solve e).clash with
    | some c => simp only [Solution.rename, clash, Option.map_some, Unification.rename]
    | none =>
      simp only [Solution.rename, clash, Option.map_none, Unification.rename, List.map_append]

end Subst

end Monotype
