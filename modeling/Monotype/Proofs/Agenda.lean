import Monotype.Proofs.Solving

/-!
# Agendas in parts

The second half of an agenda is worked off under what is found in the first half
(`Task.solveAll_append`). So equations that are solved one after the other could as well be put on
one agenda (`Subst.Ordered.unify_eq_extend`), and the parts of an equation are solved like any other
equations (`Subst.Open.unify_split`).
-/

namespace Monotype

/-! ### Agendas one after the other -/

namespace Subst.Ordered

variable {s f : Subst}

theorem of_append (ordered : (s ++ f).Ordered) : s.Ordered ∧ f.Ordered := by
  induction s with
  | nil => exact ⟨trivial, ordered⟩
  | cons entry s ih =>
    obtain ⟨v, t⟩ := entry
    obtain ⟨own, later, rest⟩ := ordered
    obtain ⟨left, right⟩ := ih rest
    refine ⟨⟨own, fun mem => later ?_, left⟩, right⟩
    change v ∈ vars (s ++ f)
    rw [vars_append]
    exact List.mem_append_left _ mem

theorem resolve_cons {v : Int} {t : Ty} (ordered : Ordered ((v, t) :: s)) (u : Ty) :
    resolve ((v, t) :: s) u = s.resolve (u.inst (Ty.assign v t)) := by
  rw [resolve, resolve, Ty.inst_inst]
  refine Ty.inst_congr fun w _ => ?_
  rw [ordered.closure_cons, Ty.assign]
  split
  · rfl
  · rfl

theorem resolve_append (ordered : (s ++ f).Ordered) (t : Ty) :
    (s ++ f).resolve t = f.resolve (s.resolve t) := by
  induction s generalizing t with
  | nil => rw [List.nil_append, resolve_eq_self (s := []) (by simp)]
  | cons entry s ih =>
    obtain ⟨v, u⟩ := entry
    obtain ⟨left, -⟩ := ordered.of_append
    rw [List.cons_append] at ordered ⊢
    rw [ordered.resolve_cons, ih ordered.2.2, left.resolve_cons]

end Subst.Ordered

namespace Solution

/-- What comes of an agenda whose second half is reached only if the first half does not clash. -/
def andThen (first second : Solution) : Solution :=
  match first.clash with
  | some _ => first
  | none => ⟨first.found ++ second.found, first.log ++ second.log, second.clash⟩

theorem tell_andThen (first second : Solution) (e : Event) :
    (first.tell e).andThen second = (first.andThen second).tell e := by
  obtain ⟨found, log, clash⟩ := first
  cases clash with
  | none => rfl
  | some c => rfl

theorem bind_andThen (first second : Solution) (v : Int) (t : Ty) :
    (first.bind v t).andThen second = (first.andThen second).bind v t := by
  obtain ⟨found, log, clash⟩ := first
  cases clash with
  | none => rfl
  | some c => rfl

end Solution

namespace Task

def resolve (s : Subst) : Task → Task
  | .solve asked now => .solve asked (now.resolve s)
  | .close asked => .close asked

theorem map_resolve_nil (agenda : List Task) : agenda.map (resolve []) = agenda := by
  have same : ∀ t, Subst.resolve [] t = t := fun t => Subst.resolve_eq_self (by simp)
  refine (List.map_congr_left fun task _ => ?_).trans agenda.map_id
  cases task with
  | solve asked now => simp only [resolve, Equation.resolve, same, id]
  | close asked => rfl

theorem map_resolve_cons {v : Int} {t : Ty} {s : Subst} (ordered : Subst.Ordered ((v, t) :: s))
    (agenda : List Task) :
    agenda.map (resolve ((v, t) :: s)) = (assignAll v t agenda).map (resolve s) := by
  rw [assignAll, List.map_map]
  refine List.map_congr_left fun task _ => ?_
  cases task with
  | solve asked now =>
    simp only [Function.comp, resolve, assign, Equation.resolve, Equation.inst,
      ordered.resolve_cons]
  | close asked => rfl

/-- The second half of an agenda is worked off under what is found in the first half. -/
theorem solveAll_append (agenda later : List Task) :
    solveAll (agenda ++ later) = (solveAll agenda).andThen
      (solveAll (later.map (resolve (solveAll agenda).found))) := by
  fun_induction solveAll agenda generalizing later with
  | case1 =>
    rw [map_resolve_nil]
    rfl
  | case2 e rest ih =>
    rw [List.cons_append, solveAll, ih, Solution.tell_andThen]
    rfl
  | case3 asked now rest done ih =>
    rw [List.cons_append, solveAll_solve, done]
    exact ih later
  | case4 asked now rest v t bound ih =>
    have ordered :
        Subst.Ordered ((v, t) :: (solveAll (.close asked :: assignAll v t rest)).found) := by
      have whole := ordered_solveAll (.solve asked now :: rest)
      rw [solveAll_solve, bound] at whole
      exact whole
    have halves : assignAll v t (rest ++ later) = assignAll v t rest ++ assignAll v t later :=
      List.map_append
    rw [List.cons_append, solveAll_solve, bound]
    dsimp only
    rw [halves, ← List.cons_append, ih, ← map_resolve_cons ordered, Solution.bind_andThen]
    rfl
  | case5 asked now rest parts split ih =>
    rw [List.cons_append, solveAll_solve, split, ← ih]
    simp only [List.append_assoc, List.cons_append]
  | case6 asked now rest c clash =>
    rw [List.cons_append, solveAll_solve, clash]
    rfl

end Task

/-! ### One equation after the other -/

/-- What is found by doing what a step asks for. -/
def Step.solve : Step → Solution
  | .done => {}
  | .bind v t => { found := [(v, t)] }
  | .split parts => Task.solveAll (parts.map .ask)
  | .clash c => { log := [.clashed c], clash := some c }

namespace Subst

variable {s : Subst}

theorem Open.part {e part : Equation} {parts : List Equation} (opened : s.Open e)
    (split : e.step = .split parts) (member : part ∈ parts) : s.Open part := by
  intro v inside
  exact opened v ((Equation.step_split split).1 (List.mem_flatMap.mpr ⟨part, member, inside⟩))

def extend (s : Subst) (solution : Solution) : Unification :=
  ⟨s ++ solution.found, solution.log, solution.clash⟩

theorem solve_eq (s : Subst) (e : Equation) :
    s.solve e = (e.resolve s).step.solve.andThen { log := [.solved e.left e.right] } := by
  have closed : Task.solveAll [.close e] = { log := [.solved e.left e.right] } := by
    rw [Task.solveAll, Task.solveAll]
    rfl
  rw [solve, Task.solveAll_solve]
  cases (e.resolve s).step with
  | done => exact closed
  | bind v t => exact congrArg (Solution.bind v t) closed
  | split parts =>
    rw [← closed]
    exact Task.solveAll_append (parts.map .ask) [.close e]
  | clash c => rfl

theorem solve_found (s : Subst) (e : Equation) :
    (s.solve e).found = (e.resolve s).step.solve.found := by
  rw [solve_eq, Solution.andThen]
  split
  · rfl
  · exact List.append_nil _

theorem Ordered.extend_step (ordered : s.Ordered) (e : Equation) :
    (s.extend (e.resolve s).step.solve).subst.Ordered := by
  rw [extend, ← solve_found]
  exact ordered_solve e ordered

theorem unify_cons_of_clash {e : Equation} {c : Clash} (es : List Equation)
    (clash : (e.resolve s).step.solve.clash = some c) :
    s.unify (e :: es) = s.extend (e.resolve s).step.solve := by
  have stopped : s.solve e = (e.resolve s).step.solve := by
    rw [solve_eq, Solution.andThen, clash]
  rw [unify_cons, stopped, clash, extend, clash]

theorem unify_cons_of_success {e : Equation} (es : List Equation)
    (success : (e.resolve s).step.solve.clash = none) :
    s.unify (e :: es) =
      let u := s.extend (e.resolve s).step.solve
      let rest := u.subst.unify es
      { rest with log := u.log ++ .solved e.left e.right :: rest.log } := by
  have closed : s.solve e = ⟨(e.resolve s).step.solve.found,
      (e.resolve s).step.solve.log ++ [.solved e.left e.right], none⟩ := by
    rw [solve_eq, Solution.andThen, success, List.append_nil]
  rw [unify_cons, closed]
  simp only [extend, List.append_assoc, List.singleton_append]

theorem Ordered.map_solve_resolve {f : Subst} (ordered : (s ++ f).Ordered) (es : List Equation) :
    (es.map fun e => Task.solve e (e.resolve s)).map (Task.resolve f) =
      es.map fun e => Task.solve e (e.resolve (s ++ f)) := by
  rw [List.map_map]
  refine List.map_congr_left fun e _ => ?_
  simp only [Function.comp, Task.resolve, Equation.resolve, ordered.resolve_append]

/-- Equations that are solved one after the other could as well be put on one agenda. -/
theorem Ordered.unify_eq_extend (ordered : s.Ordered) (es : List Equation) :
    s.unify es = s.extend (Task.solveAll (es.map fun e => .solve e (e.resolve s))) := by
  induction es generalizing s with
  | nil =>
    rw [List.map_nil, Task.solveAll, extend, List.append_nil]
    rfl
  | cons e es ih =>
    have after := ordered_solve e ordered
    have agenda : Task.solveAll ((e :: es).map fun e => .solve e (e.resolve s)) =
        (s.solve e).andThen (Task.solveAll
          (es.map fun e' => .solve e' (e'.resolve (s ++ (s.solve e).found)))) := by
      rw [← after.map_solve_resolve, ← Task.solveAll_append]
      rfl
    rw [agenda, unify_cons, ih after, extend, Solution.andThen]
    cases clash : (s.solve e).clash with
    | some c => simp only [extend, clash]
    | none => simp only [extend, List.append_assoc]

/-- Equations about which nothing is known are put on the agenda as they are. -/
theorem Ordered.unify_of_open (ordered : s.Ordered) {es : List Equation}
    (opened : ∀ e ∈ es, s.Open e) : s.unify es = s.extend (Task.solveAll (es.map .ask)) := by
  have asked : (es.map fun e => Task.solve e (e.resolve s)) = es.map .ask := by
    refine List.map_congr_left fun e member => ?_
    rw [(opened e member).resolve]
    rfl
  rw [ordered.unify_eq_extend, asked]

/-- The parts of an equation are solved like any other equations. -/
theorem Open.unify_split {e : Equation} {parts : List Equation} (opened : s.Open e)
    (ordered : s.Ordered) (split : e.step = .split parts) :
    s.unify parts = s.extend e.step.solve := by
  rw [ordered.unify_of_open fun part member => opened.part split member, split]
  rfl

end Subst

end Monotype
