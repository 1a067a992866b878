import Monotype.Proofs.Chain
import Monotype.Unify

/-!
# Solutions of equations

What solving does is described by the assignments under which an equation, an agenda or a
substitution holds. One step of an equation keeps them (`Equation.holds_iff_step`), so a whole agenda
does (`Task.solveAll_solutions`), and so does extending a substitution: `Subst.unify_solutions` says
that the assignments that solve the outcome are those that solve the substitution and the equations,
and that a clash means that there are none.
-/

namespace Monotype

/-- Both sides of the equation are the same under the assignment. -/
def Equation.Holds (θ : Int → Ty) (e : Equation) : Prop := e.left.inst θ = e.right.inst θ

/-- Every replaced variable is the same as its replacement under the assignment. -/
def Subst.SolvedBy (s : Subst) (θ : Int → Ty) : Prop := ∀ entry ∈ s, θ entry.1 = entry.2.inst θ

/-! ### Solutions of a substitution -/

namespace Subst

variable {s : Subst} {θ : Int → Ty}

theorem solvedBy_nil : SolvedBy [] θ := by simp [SolvedBy]

theorem solvedBy_cons {v : Int} {t : Ty} :
    SolvedBy ((v, t) :: s) θ ↔ θ v = t.inst θ ∧ s.SolvedBy θ := by
  simp [SolvedBy]

theorem solvedBy_append {f : Subst} : SolvedBy (s ++ f) θ ↔ s.SolvedBy θ ∧ f.SolvedBy θ := by
  simp only [SolvedBy, List.mem_append, or_imp, forall_and]

/-- Only the values at the variables of a substitution matter for solving it. -/
theorem SolvedBy.congr {η : Int → Ty} (solved : s.SolvedBy θ) (same : ∀ v ∈ s.vars, η v = θ v) :
    s.SolvedBy η := by
  intro entry member
  have replaced : entry.1 ∈ s.vars := keys_subset_vars s (List.mem_map_of_mem member)
  rw [same _ replaced, solved entry member]
  exact Ty.inst_congr fun w inside => (same w (vars_subset_vars member inside)).symm

/-- An instance of a solution is a solution. -/
theorem SolvedBy.inst (solved : s.SolvedBy θ) (η : Int → Ty) : s.SolvedBy fun v => (θ v).inst η := by
  intro entry member
  have same := solved entry member
  change (θ entry.1).inst η = _
  rw [same, Ty.inst_inst]

/-- Following a variable does not change what it is under a solution. -/
theorem SolvedBy.inst_follow (solved : s.SolvedBy θ) (depth : Nat) (v : Int) :
    (s.follow depth v).inst θ = θ v := by
  induction depth generalizing v with
  | zero => rfl
  | succ depth ih =>
    rw [follow_succ]
    cases found : s.get? v with
    | none => rfl
    | some t =>
      have same : θ v = t.inst θ := solved (v, t) (mem_of_get? found)
      change (t.inst (s.follow depth)).inst θ = θ v
      rw [Ty.inst_inst, funext ih, same]

theorem SolvedBy.inst_resolve (solved : s.SolvedBy θ) (t : Ty) :
    (s.resolve t).inst θ = t.inst θ := by
  change (t.inst s.closure).inst θ = t.inst θ
  rw [Ty.inst_inst]
  exact Ty.inst_congr fun v _ => solved.inst_follow _ v

theorem SolvedBy.holds_resolve (solved : s.SolvedBy θ) (e : Equation) :
    (e.resolve s).Holds θ ↔ e.Holds θ := by
  simp only [Equation.Holds, Equation.resolve, solved.inst_resolve]

/-- An ordered substitution is solved by following its own replacements. -/
theorem Ordered.solvedBy_closure (ordered : s.Ordered) : s.SolvedBy s.closure :=
  fun _ member => ordered.closure_of_mem member

end Subst

/-! ### One equation -/

/-- The assignments that do what a step asks for. -/
def Step.SolvedBy (θ : Int → Ty) : Step → Prop
  | .done => True
  | .bind v t => θ v = t.inst θ
  | .split parts => ∀ e ∈ parts, e.Holds θ
  | .clash _ => False

namespace Equation

variable {θ : Int → Ty}

theorem bindVar_solvedBy {v : Int} {t : Ty} (different : t ≠ .var v) :
    (bindVar v t).SolvedBy θ ↔ θ v = t.inst θ := by
  unfold bindVar
  split
  · next inside => exact iff_of_false id (Ty.inst_ne_of_mem_vars θ (by simpa using inside) different)
  · rfl

theorem holds_zipWith {as bs : List Ty} (lengths : as.length = bs.length) :
    (∀ e ∈ List.zipWith Equation.mk as bs, e.Holds θ) ↔ Ty.instAll θ as = Ty.instAll θ bs := by
  induction as generalizing bs with
  | nil =>
    cases bs with
    | nil => simp
    | cons b bs => simp at lengths
  | cons a as ih =>
    cases bs with
    | nil => simp at lengths
    | cons b bs =>
      rw [List.zipWith_cons_cons, List.forall_mem_cons, ih (Nat.succ.inj lengths)]
      simp only [Holds, Ty.instAll, List.cons.injEq]

theorem length_instAll (θ : Int → Ty) (ts : List Ty) : (Ty.instAll θ ts).length = ts.length := by
  rw [Ty.instAll_eq_map, List.length_map]

/-- A step asks for no less and no more than the equation. -/
theorem holds_iff_step (e : Equation) : e.Holds θ ↔ e.step.SolvedBy θ := by
  obtain ⟨l, r⟩ := e
  unfold step
  dsimp only
  split
  · next a =>
    split
    · next same =>
      subst same
      exact iff_of_true rfl trivial
    · next different => exact (bindVar_solvedBy different).symm
  · next b notVar => exact eq_comm.trans (bindVar_solvedBy (notVar b)).symm
  · next a b =>
    split
    · next same => exact iff_of_true (by rw [same]; rfl) trivial
    · next different => exact iff_of_false (fun same => different (Ty.name.inj same)) id
  · next p r q s => simp [Holds, Step.SolvedBy, Ty.inst]
  · next as bs =>
    split
    · next lengths =>
      rw [Step.SolvedBy, holds_zipWith lengths]
      simp only [Holds, Ty.inst, Ty.tuple.injEq]
    · next lengths =>
      refine iff_of_false (fun same => lengths ?_) id
      have elements := congrArg List.length (Ty.tuple.inj same)
      rwa [length_instAll, length_instAll] at elements
  · next k p l q =>
    split
    · next same => simp [Holds, Step.SolvedBy, Ty.inst, same]
    · next different => exact iff_of_false (fun same => different (Ty.sum.inj same).1) id
  · refine iff_of_false (fun same => ?_) id
    cases l <;> cases r <;> grind [Holds, Ty.inst]

end Equation

/-! ### The agenda -/

namespace Task

variable {θ : Int → Ty}

/-- The assignments under which there is nothing left to do about an entry. -/
def SolvedBy (θ : Int → Ty) : Task → Prop
  | .solve _ now => now.Holds θ
  | .close _ => True

/-- A replacement that holds can be made anywhere. -/
theorem solvedBy_assignAll {v : Int} {t : Ty} {agenda : List Task} (same : θ v = t.inst θ) :
    (∀ task ∈ assignAll v t agenda, task.SolvedBy θ) ↔ ∀ task ∈ agenda, task.SolvedBy θ := by
  rw [assignAll, List.forall_mem_map]
  refine forall₂_congr fun task _ => ?_
  cases task with
  | solve asked now => simp only [assign, SolvedBy, Equation.Holds, Equation.inst, Ty.inst_assign same]
  | close asked => rfl

theorem solvedBy_ask {parts : List Equation} :
    (∀ task ∈ parts.map ask, task.SolvedBy θ) ↔ ∀ e ∈ parts, e.Holds θ := by
  rw [List.forall_mem_map]
  rfl

theorem solveAll_solve (asked now : Equation) (rest : List Task) :
    solveAll (.solve asked now :: rest) = match now.step with
      | .done => solveAll (.close asked :: rest)
      | .bind v t => (solveAll (.close asked :: assignAll v t rest)).bind v t
      | .split parts => solveAll (parts.map ask ++ .close asked :: rest)
      | .clash c => { log := [.clashed c], clash := some c } := by
  conv_lhs => rw [solveAll]
  split
  all_goals
    next step => rw [step]

/-- The solutions of an agenda are those of what was found, if there was no clash; else there are
none. -/
theorem solveAll_solutions (agenda : List Task) :
    (∀ task ∈ agenda, task.SolvedBy θ) ↔
      (solveAll agenda).clash = none ∧ (solveAll agenda).found.SolvedBy θ := by
  fun_induction solveAll agenda with
  | case1 => simp [Subst.SolvedBy]
  | case2 e rest ih =>
    rw [List.forall_mem_cons, ih]
    exact and_iff_right trivial
  | case3 asked now rest done ih =>
    rw [List.forall_mem_cons] at ih
    rw [List.forall_mem_cons, ← ih, SolvedBy, Equation.holds_iff_step, done]
    rfl
  | case4 asked now rest v t bound ih =>
    rw [List.forall_mem_cons] at ih
    rw [List.forall_mem_cons, SolvedBy, Equation.holds_iff_step, bound]
    change θ v = t.inst θ ∧ _ ↔ _ ∧ Subst.SolvedBy ((v, t) :: _) θ
    rw [Subst.solvedBy_cons, and_left_comm]
    change _ ↔ _ ∧ (solveAll _).clash = none ∧ _
    refine and_congr_right fun same => ?_
    rw [← ih, solvedBy_assignAll same]
    exact (and_iff_right trivial).symm
  | case5 asked now rest parts split ih =>
    rw [List.forall_mem_append, List.forall_mem_cons, solvedBy_ask] at ih
    rw [List.forall_mem_cons, ← ih, SolvedBy, Equation.holds_iff_step, split]
    exact and_congr_right fun _ => (and_iff_right trivial).symm
  | case6 asked now rest c clash =>
    rw [List.forall_mem_cons, SolvedBy, Equation.holds_iff_step, clash]
    simp [Step.SolvedBy]

/-- Nothing is found about variables that are not on the agenda. -/
theorem vars_solveAll (agenda : List Task) :
    (solveAll agenda).found.vars ⊆ agenda.flatMap vars := by
  fun_induction solveAll agenda with
  | case1 => simp
  | case2 e rest ih => simpa [vars, Solution.tell] using ih
  | case3 asked now rest done ih =>
    intro w known
    have later := ih known
    simp only [List.flatMap_cons, vars, List.nil_append] at later
    simp [later]
  | case4 asked now rest v t bound ih =>
    obtain ⟨mem, -, inside⟩ := Equation.step_bind bound
    intro w known
    simp only [Solution.bind, Subst.vars_cons, List.mem_cons, List.mem_append] at known
    simp only [List.flatMap_cons, vars, List.mem_append]
    rcases known with rfl | known | known
    · exact .inl mem
    · exact .inl (inside known)
    · have later := ih known
      simp only [List.flatMap_cons, vars, List.nil_append] at later
      rcases mem_vars_assignAll later with known | ⟨known, -⟩
      · exact .inl (inside known)
      · exact .inr known
  | case5 asked now rest parts split ih =>
    have inside := (Equation.step_split split).1
    intro w known
    have later := ih known
    simp only [List.flatMap_append, vars_map_ask, List.flatMap_cons, vars, List.nil_append,
      List.mem_append] at later ⊢
    exact later.imp_left fun part => inside part
  | case6 asked now rest c clash => simp

/-- A variable that is replaced is gone from the rest of the agenda, so it is not found again. -/
theorem ordered_solveAll (agenda : List Task) : (solveAll agenda).found.Ordered := by
  fun_induction solveAll agenda with
  | case1 => trivial
  | case2 e rest ih => exact ih
  | case3 asked now rest done ih => exact ih
  | case4 asked now rest v t bound ih =>
    have absent := (Equation.step_bind bound).2.1
    refine ⟨absent, fun again => ?_, ih⟩
    have later := vars_solveAll _ again
    simp only [List.flatMap_cons, vars, List.nil_append] at later
    rcases mem_vars_assignAll later with inside | ⟨-, other⟩
    · exact absent inside
    · exact other rfl
  | case5 asked now rest parts split ih => exact ih
  | case6 asked now rest c clash => trivial

end Task

/-! ### Extending a substitution -/

theorem Equation.mem_vars_resolve {s : Subst} {e : Equation} {w : Int}
    (mem : w ∈ (e.resolve s).vars) : w ∈ e.vars ∨ w ∈ s.vars := by
  rcases List.mem_append.mp mem with mem | mem
  · exact (Subst.mem_vars_resolve mem).imp_left (List.mem_append_left _)
  · exact (Subst.mem_vars_resolve mem).imp_left (List.mem_append_right _)

namespace Subst

variable {s : Subst} {θ : Int → Ty}

/-- No variable of the equation is replaced. -/
def Open (s : Subst) (e : Equation) : Prop := ∀ v ∈ e.vars, v ∉ s.keys

theorem Ordered.open_resolve (ordered : s.Ordered) (e : Equation) : s.Open (e.resolve s) := by
  intro v inside
  rcases List.mem_append.mp inside with inside | inside
  · exact ordered.not_mem_keys_of_mem_resolve inside
  · exact ordered.not_mem_keys_of_mem_resolve inside

theorem Open.resolve {e : Equation} (opened : s.Open e) : e.resolve s = e := by
  have left : s.resolve e.left = e.left :=
    resolve_eq_self fun v inside => opened v (List.mem_append_left _ inside)
  have right : s.resolve e.right = e.right :=
    resolve_eq_self fun v inside => opened v (List.mem_append_right _ inside)
  rw [Equation.resolve, left, right]

/-- What is found about one equation. -/
abbrev solve (s : Subst) (e : Equation) : Solution := Task.solveAll [.solve e (e.resolve s)]

theorem solve_solutions (e : Equation) (solved : s.SolvedBy θ) :
    e.Holds θ ↔ (s.solve e).clash = none ∧ (s.solve e).found.SolvedBy θ := by
  rw [← Task.solveAll_solutions, List.forall_mem_singleton]
  exact (solved.holds_resolve e).symm

theorem vars_solve {e : Equation} {w : Int} (known : w ∈ (s.solve e).found.vars) :
    w ∈ (e.resolve s).vars := by
  simpa [Task.vars] using Task.vars_solveAll _ known

theorem ordered_solve (e : Equation) (ordered : s.Ordered) : (s ++ (s.solve e).found).Ordered := by
  refine ordered_append ordered (Task.ordered_solveAll _) fun v replaced again => ?_
  -- What is found is about variables of the resolved equation, none of which is replaced.
  exact ordered.open_resolve e v (vars_solve again) replaced

theorem unify_cons (s : Subst) (e : Equation) (es : List Equation) :
    s.unify (e :: es) = match (s.solve e).clash with
      | some c => { subst := s ++ (s.solve e).found, log := (s.solve e).log, clash := some c }
      | none =>
        let rest := (s ++ (s.solve e).found).unify es
        { rest with log := (s.solve e).log ++ rest.log } := rfl

/-- The solutions of the outcome are those of the substitution and the equations together, if there
was no clash; else there are none. -/
theorem unify_solutions (s : Subst) (es : List Equation) :
    (s.SolvedBy θ ∧ ∀ e ∈ es, e.Holds θ) ↔
      (s.unify es).clash = none ∧ (s.unify es).subst.SolvedBy θ := by
  induction es generalizing s with
  | nil => simp [unify]
  | cons e es ih =>
    rw [unify_cons]
    cases clash : (s.solve e).clash with
    | some c =>
      refine iff_of_false ?_ (by simp)
      rintro ⟨solved, holds⟩
      have sound := (solve_solutions e solved).mp (holds e List.mem_cons_self)
      rw [clash] at sound
      cases sound.1
    | none =>
      change _ ↔ (unify (s ++ (s.solve e).found) es).clash = none ∧ _
      rw [← ih, solvedBy_append, and_assoc, List.forall_mem_cons]
      refine and_congr_right fun solved => and_congr_left fun _ => ?_
      rw [solve_solutions e solved, clash]
      exact and_iff_right rfl

theorem prefix_unify (s : Subst) (es : List Equation) : s <+: (s.unify es).subst := by
  induction es generalizing s with
  | nil => exact List.prefix_refl s
  | cons e es ih =>
    rw [unify_cons]
    cases (s.solve e).clash with
    | some c => exact List.prefix_append _ _
    | none => exact (List.prefix_append _ _).trans (ih _)

theorem ordered_unify (es : List Equation) (ordered : s.Ordered) : (s.unify es).subst.Ordered := by
  induction es generalizing s with
  | nil => exact ordered
  | cons e es ih =>
    rw [unify_cons]
    cases (s.solve e).clash with
    | some c => exact ordered_solve e ordered
    | none => exact ih (ordered_solve e ordered)

theorem vars_append_solve {e : Equation} {w : Int} (known : w ∈ (s ++ (s.solve e).found).vars) :
    w ∈ s.vars ∨ w ∈ e.vars := by
  rw [vars_append, List.mem_append] at known
  rcases known with known | known
  · exact .inl known
  · exact (Equation.mem_vars_resolve (vars_solve known)).symm

/-- Only variables of the substitution and of the equations come up. -/
theorem vars_unify {es : List Equation} {w : Int} (known : w ∈ (s.unify es).subst.vars) :
    w ∈ s.vars ∨ ∃ e ∈ es, w ∈ e.vars := by
  induction es generalizing s with
  | nil => exact .inl known
  | cons e es ih =>
    rw [unify_cons] at known
    have first : w ∈ (s ++ (s.solve e).found).vars → w ∈ s.vars ∨ ∃ e' ∈ e :: es, w ∈ e'.vars :=
      fun known => (vars_append_solve known).imp_right fun inside => ⟨e, List.mem_cons_self, inside⟩
    cases clash : (s.solve e).clash with
    | some c =>
      rw [clash] at known
      exact first known
    | none =>
      rw [clash] at known
      rcases ih known with known | ⟨e', member, inside⟩
      · exact first known
      · exact .inr ⟨e', List.mem_cons_of_mem _ member, inside⟩

/-- After equations are solved, both sides of each resolve to the same type. -/
theorem resolve_unify {es : List Equation} (ordered : s.Ordered)
    (success : (s.unify es).clash = none) {e : Equation} (member : e ∈ es) :
    (s.unify es).subst.resolve e.left = (s.unify es).subst.resolve e.right :=
  ((unify_solutions s es).mpr ⟨success, (ordered_unify es ordered).solvedBy_closure⟩).2 e member

end Subst

end Monotype
