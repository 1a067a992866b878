import Monotype.Proofs.Recursion

/-!
# What solving leaves behind

Solving only adds to a substitution, whether it succeeds or ends in a clash
(`Subst.Reachable.unify_adds`), and it adds nothing if and only if the equations are known to hold
(`Subst.Reachable.unify_unchanged`). The two types of a clash are resolved by all that was found
before it, no assignment makes them equal, and they differ in the way that is said of them
(`Infer.unify_blames`).
-/

namespace Monotype

/-! ### The types of a clash -/

theorem Clash.Fits.inst_ne {c : Clash} (fits : c.Fits) (θ : Int → Ty) :
    c.left.inst θ ≠ c.right.inst θ := by
  intro same
  have holds : Equation.Holds θ ⟨c.left, c.right⟩ := same
  rw [Equation.holds_iff_step, Equation.step_of_fits fits] at holds
  exact holds

namespace Equation

theorem bindVar_clash_sides {v : Int} {t : Ty} {c : Clash} (clash : bindVar v t = .clash c) :
    c.left = .var v ∧ c.right = t := by
  unfold bindVar at clash
  split at clash
  · cases clash
    exact ⟨rfl, rfl⟩
  · cases clash

/-- A clash is about the two sides of the equation, which may have been turned round. -/
theorem step_clash_vars {e : Equation} {c : Clash} (clash : e.step = .clash c) :
    vars ⟨c.left, c.right⟩ ⊆ e.vars := by
  obtain ⟨l, r⟩ := e
  unfold step at clash
  dsimp only at clash
  split at clash
  · split at clash
    · cases clash
    · obtain ⟨left, right⟩ := bindVar_clash_sides clash
      rw [left, right]
      exact List.Subset.refl _
  · obtain ⟨left, right⟩ := bindVar_clash_sides clash
    rw [left, right]
    intro w inside
    simpa [vars, or_comm] using inside
  · split at clash
    · cases clash
    · cases clash
      exact List.Subset.refl _
  · cases clash
  · split at clash
    · cases clash
    · cases clash
      exact List.Subset.refl _
  · split at clash
    · cases clash
    · cases clash
      exact List.Subset.refl _
  · cases clash
    exact List.Subset.refl _

end Equation

/-- A replacement is made in the rest of the agenda at once, so the types of a clash mention no
variable that was replaced before. -/
theorem Task.solveAll_clash_vars {agenda : List Task} {c : Clash}
    (clash : (solveAll agenda).clash = some c) {w : Int}
    (inside : w ∈ Equation.vars ⟨c.left, c.right⟩) :
    w ∈ agenda.flatMap vars ∧ w ∉ (solveAll agenda).found.keys := by
  fun_induction solveAll agenda with
  | case1 => cases clash
  | case2 e rest ih => exact ih clash
  | case3 asked now rest done ih =>
    obtain ⟨known, absent⟩ := ih clash
    exact ⟨List.mem_append_right _ known, absent⟩
  | case4 asked now rest v t bound ih =>
    obtain ⟨known, absent⟩ := ih clash
    obtain ⟨-, own, part⟩ := Equation.step_bind bound
    have later : w ∈ (assignAll v t rest).flatMap vars := known
    simp only [Solution.bind, Subst.keys_cons, List.mem_cons, not_or, List.flatMap_cons,
      List.mem_append]
    rcases mem_vars_assignAll later with mem | ⟨mem, other⟩
    · exact ⟨.inl (part mem), fun same => own (same ▸ mem), absent⟩
    · exact ⟨.inr mem, other, absent⟩
  | case5 asked now rest parts split ih =>
    obtain ⟨known, absent⟩ := ih clash
    refine ⟨?_, absent⟩
    rw [List.flatMap_append, vars_map_ask] at known
    rcases List.mem_append.mp known with known | known
    · exact List.mem_append_left _ ((Equation.step_split split).1 known)
    · exact List.mem_append_right _ known
  | case6 asked now rest d step =>
    obtain rfl : d = c := Option.some.inj clash
    refine ⟨List.mem_append_left _ (Equation.step_clash_vars step inside), ?_⟩
    simp

theorem Subst.Ordered.open_clash {s : Subst} (ordered : s.Ordered) {es : List Equation} {c : Clash}
    (clash : (s.unify es).clash = some c) : (s.unify es).subst.Open ⟨c.left, c.right⟩ := by
  induction es generalizing s with
  | nil => cases clash
  | cons e es ih =>
    rw [unify_cons] at clash ⊢
    cases first : (s.solve e).clash with
    | none =>
      rw [first] at clash
      exact ih (ordered_solve e ordered) clash
    | some d =>
      rw [first] at clash
      intro w inside
      obtain rfl : d = c := Option.some.inj clash
      obtain ⟨known, absent⟩ := Task.solveAll_clash_vars first inside
      have asked : w ∈ (e.resolve s).vars := by simpa [Task.vars] using known
      change w ∉ (s ++ (s.solve e).found).keys
      rw [keys, List.map_append, List.mem_append, not_or]
      exact ⟨ordered.open_resolve e w asked, absent⟩

/-- A clash is blamed on the span. Its types are resolved as far as is known then, no assignment
makes them equal, and they differ in the way that the kind of the clash says. -/
theorem Infer.unify_blames {span : Option Span} {es : List Equation} {s s' : Session}
    {problem : Problem} (reachable : s.subst.Reachable)
    (run : Infer.unify span es s = .error problem s') :
    ∃ c : Clash, problem = .clash c span ∧ s'.subst.resolve c.left = c.left ∧
      s'.subst.resolve c.right = c.right ∧ (∀ θ, c.left.inst θ ≠ c.right.inst θ) ∧ c.Fits := by
  obtain ⟨c, clash, rfl, rfl⟩ := Infer.unify_error.mp run
  have fits := Subst.unify_clash clash
  have resolved := (reachable.ordered.open_clash clash).resolve
  exact ⟨c, rfl, congrArg Equation.left resolved, congrArg Equation.right resolved, fits.inst_ne,
    fits⟩

/-- A function whose result contains it, found out inside a larger equation, with the sides turned
round and after a replacement was made. -/
theorem Infer.unify_blames_circular :
    let s : Session := { subst := (Subst.unify [] [⟨.var 1, .tuple [.var 2, .var 3]⟩]).subst }
    let es : List Equation := [⟨.fn (.var 2) (.fn (.var 1) .int), .fn .int (.var 3)⟩]
    ∃ s', Infer.unify (some (.ofInts 3 9)) es s = .error
        (.clash ⟨.circular, .var 3, .fn (.tuple [.int, .var 3]) .int⟩ (some (.ofInts 3 9))) s' ∧
      s'.subst = [(1, .tuple [.var 2, .var 3]), (2, .int)] ∧
      s'.subst.resolve (.fn (.tuple [.int, .var 3]) .int) = .fn (.tuple [.int, .var 3]) .int ∧
      ∀ θ, Ty.inst θ (.var 3) ≠ Ty.inst θ (.fn (.tuple [.int, .var 3]) .int) := by
  intro s es
  have clash : (s.subst.unify es).clash =
      some ⟨.circular, .var 3, .fn (.tuple [.int, .var 3]) .int⟩ := by cbv
  have run : Infer.unify (some (.ofInts 3 9)) es s = .error _ _ :=
    Infer.unify_error.mpr ⟨_, clash, rfl, rfl⟩
  obtain ⟨c, same, -, resolved, unequal, -⟩ := Infer.unify_blames (.unify _ .empty) run
  cases same
  exact ⟨_, run, by cbv, resolved, unequal⟩

/-! ### What is kept and what is added -/

namespace Subst

variable {s : Subst}

theorem Ordered.nodup_keys (ordered : s.Ordered) : s.keys.Nodup := by
  induction s with
  | nil => exact List.nodup_nil
  | cons entry s ih =>
    obtain ⟨v, t⟩ := entry
    obtain ⟨-, later, rest⟩ := ordered
    exact List.nodup_cons.mpr ⟨fun again => later (keys_subset_vars s again), ih rest⟩

theorem get?_append {f : Subst} {v : Int} {t : Ty} (found : s.get? v = some t) :
    get? (s ++ f) v = some t := by
  rw [get?] at found ⊢
  rw [List.lookup_append, found]
  rfl

/-- After equations that are solved, others are solved on top of what was found. -/
theorem unify_append {es : List Equation} (success : (s.unify es).clash = none)
    (later : List Equation) :
    (s.unify (es ++ later)).subst = ((s.unify es).subst.unify later).subst ∧
      (s.unify (es ++ later)).clash = ((s.unify es).subst.unify later).clash := by
  induction es generalizing s with
  | nil => exact ⟨rfl, rfl⟩
  | cons e es ih =>
    rw [unify_cons] at success
    rw [List.cons_append, unify_cons, unify_cons]
    cases first : (s.solve e).clash with
    | some c =>
      rw [first] at success
      cases success
    | none =>
      rw [first] at success
      exact ih success

/-- The first `k` equations are solved, and the next one clashes. -/
def StopsAt (s : Subst) (es : List Equation) (k : Nat) (c : Clash) : Prop :=
  (s.unify (es.take k)).clash = none ∧
    ∃ e, es[k]? = some e ∧ ((s.unify (es.take k)).subst.solve e).clash = some c

theorem unify_clash_iff {es : List Equation} {c : Clash} :
    (s.unify es).clash = some c ↔ ∃ k, s.StopsAt es k c := by
  constructor
  · intro clash
    induction es generalizing s with
    | nil => cases clash
    | cons e es ih =>
      rw [unify_cons] at clash
      cases first : (s.solve e).clash with
      | some d =>
        rw [first] at clash
        obtain rfl : d = c := Option.some.inj clash
        exact ⟨0, rfl, e, rfl, first⟩
      | none =>
        rw [first] at clash
        obtain ⟨k, before, e', member, stopped⟩ := ih clash
        refine ⟨k + 1, ?_, e', member, ?_⟩
        · rw [List.take_succ_cons, unify_cons, first]
          exact before
        · rw [List.take_succ_cons, unify_cons, first]
          exact stopped
  · rintro ⟨k, before, e, member, stopped⟩
    obtain ⟨short, rfl⟩ := List.getElem?_eq_some_iff.mp member
    rw [← List.take_append_drop k es, (unify_append before _).2, List.drop_eq_getElem_cons short,
      unify_cons, stopped]

/-- Equations that are solved stay solved, whatever comes after them. -/
theorem Ordered.resolve_unify_append (ordered : s.Ordered) {es : List Equation}
    (success : (s.unify es).clash = none) (later : List Equation) {e : Equation} (member : e ∈ es) :
    (s.unify (es ++ later)).subst.resolve e.left =
      (s.unify (es ++ later)).subst.resolve e.right := by
  have solved := (ordered_unify (es ++ later) ordered).solvedBy_closure
  have kept := prefix_unify (s.unify es).subst later
  rw [← (unify_append success later).1] at kept
  have before : (s.unify es).subst.SolvedBy (s.unify (es ++ later)).subst.closure :=
    fun entry known => solved entry (kept.subset known)
  exact ((unify_solutions s es).mpr ⟨success, before⟩).2 e member

/-- Whether or not it ends in a clash, solving keeps every entry, gives no variable a second one and
brings up no variables of its own. This is so although the recursion writes each replacement over
what may be there. If an equation clashes, those before it are solved. -/
theorem Reachable.unify_adds (reachable : s.Reachable) (es : List Equation) :
    s.Unifies es (s.unify es) ∧
    (∀ v t, s.get? v = some t → (s.unify es).subst.get? v = some t) ∧
    (s.unify es).subst.keys.Nodup ∧
    (∀ w ∈ (s.unify es).subst.vars, w ∈ s.vars ∨ ∃ e ∈ es, w ∈ e.vars) ∧
    (∀ c, (s.unify es).clash = some c ↔ ∃ k, s.StopsAt es k c) ∧
    ∀ k c, s.StopsAt es k c → ∀ e ∈ es.take k,
      (s.unify es).subst.resolve e.left = (s.unify es).subst.resolve e.right := by
  have ordered := reachable.ordered
  refine ⟨ordered.unifies_iff.mpr rfl, fun v t found => ?_, (ordered_unify es ordered).nodup_keys,
    fun w known => vars_unify known, fun c => unify_clash_iff, fun k c stops e member => ?_⟩
  · obtain ⟨added, whole⟩ := prefix_unify s es
    rw [← whole]
    exact get?_append found
  · have solved := ordered.resolve_unify_append stops.1 (es.drop k) member
    rwa [List.take_append_drop] at solved

/-- The second of three equations clashes after one of its parts was solved. -/
theorem unify_adds_before_clash :
    let s := (unify [] [⟨.var 1, .fn (.var 2) (.var 3)⟩]).subst
    let es : List Equation :=
      [⟨.var 2, .int⟩, ⟨.fn (.var 4) (.var 1), .fn .unit (.tuple [])⟩, ⟨.var 5, .int⟩]
    (s.unify es).subst = [(1, .fn (.var 2) (.var 3)), (2, .int), (4, .unit)] ∧
      (s.unify es).subst.get? 1 = some (.fn (.var 2) (.var 3)) ∧
      s.StopsAt es 1 ⟨.mismatch, .fn .int (.var 3), .tuple []⟩ ∧
      (s.unify es).subst.resolve (.var 2) = (s.unify es).subst.resolve .int := by
  have stops : StopsAt (unify [] [⟨.var 1, .fn (.var 2) (.var 3)⟩]).subst
      [⟨.var 2, .int⟩, ⟨.fn (.var 4) (.var 1), .fn .unit (.tuple [])⟩, ⟨.var 5, .int⟩] 1
      ⟨.mismatch, .fn .int (.var 3), .tuple []⟩ := ⟨by cbv, _, rfl, by cbv⟩
  obtain ⟨-, kept, -, -, -, solved⟩ := Reachable.unify_adds
    (.unify [⟨.var 1, .fn (.var 2) (.var 3)⟩] .empty)
    [⟨.var 2, .int⟩, ⟨.fn (.var 4) (.var 1), .fn .unit (.tuple [])⟩, ⟨.var 5, .int⟩]
  exact ⟨by cbv, kept 1 _ (by cbv), stops, solved 1 _ stops ⟨.var 2, .int⟩ (by simp)⟩

/-! ### What is known already -/

theorem Ordered.eq_nil_of_solvedBy (ordered : s.Ordered) (solved : ∀ θ, s.SolvedBy θ) : s = [] := by
  cases s with
  | nil => rfl
  | cons entry s =>
    obtain ⟨v, t⟩ := entry
    have absent : v ∉ t.vars := ordered.1
    -- An entry rules out that its variable is larger than the replacement.
    have larger := (solvedBy_cons.mp (solved (Function.update .var v (.sum "" t)))).1
    have fixed : t.inst (Function.update .var v (.sum "" t)) = t := by
      refine Ty.inst_eq_self fun w inside => Function.update_of_ne ?_ _ _
      rintro rfl
      exact absent inside
    rw [Function.update_self, fixed] at larger
    have size := congrArg Ty.size larger
    rw [Ty.size] at size
    omega

theorem solve_of_resolve_eq {e : Equation} (known : s.resolve e.left = s.resolve e.right) :
    (s.solve e).clash = none ∧ (s.solve e).found = [] := by
  -- Every assignment solves the equation, so every assignment solves what is found.
  have holds : ∀ θ, ∀ task ∈ [Task.solve e (e.resolve s)], task.SolvedBy θ := by
    intro θ task member
    rw [List.mem_singleton.mp member]
    exact congrArg (Ty.inst θ) known
  have outcome := fun θ => (Task.solveAll_solutions _).mp (holds θ)
  exact ⟨(outcome .var).1, (Task.ordered_solveAll _).eq_nil_of_solvedBy fun θ => (outcome θ).2⟩

theorem unify_of_resolve_eq {es : List Equation}
    (known : ∀ e ∈ es, s.resolve e.left = s.resolve e.right) :
    (s.unify es).clash = none ∧ (s.unify es).subst = s := by
  induction es with
  | nil => exact ⟨rfl, rfl⟩
  | cons e es ih =>
    rw [List.forall_mem_cons] at known
    obtain ⟨success, nothing⟩ := solve_of_resolve_eq known.1
    rw [unify_cons, success, nothing, List.append_nil]
    exact ih known.2

/-- Solving changes nothing if and only if the sides of every equation resolve to the same type
already. So it can be done again at any later time, with success and without effect. -/
theorem Reachable.unify_unchanged (reachable : s.Reachable) (es : List Equation) :
    ((s.unify es).clash = none ∧ (s.unify es).subst = s ↔
      ∀ e ∈ es, s.resolve e.left = s.resolve e.right) ∧
    ((s.unify es).clash = none → ∀ between : List Equation,
      let later := ((s.unify es).subst.unify between).subst
      (later.unify es).clash = none ∧ (later.unify es).subst = later) := by
  have ordered := reachable.ordered
  refine ⟨⟨?_, unify_of_resolve_eq⟩, fun success between => unify_of_resolve_eq fun e member => ?_⟩
  · rintro ⟨success, unchanged⟩ e member
    have solved := resolve_unify ordered success member
    rwa [unchanged] at solved
  · have solved := ordered.resolve_unify_append success between member
    rwa [(unify_append success between).1] at solved

/-- A pair whose parts are known by different names, and an equation between functions that is put
again after another one clashed. -/
theorem unify_unchanged_after_clash :
    let s := (unify [] [⟨.var 1, .var 2⟩, ⟨.var 2, .tuple [.var 3]⟩]).subst
    let known : List Equation := [⟨.tuple [.var 1, .var 4], .tuple [.tuple [.var 3], .var 4]⟩]
    let es : List Equation := [⟨.fn (.var 1) (.var 4), .fn (.var 2) (.sum "A" (.var 5))⟩]
    let later := ((s.unify es).subst.unify [⟨.var 5, .int⟩, ⟨.var 3, .var 1⟩]).subst
    (s.unify known).subst = s ∧
      later = s ++ [(4, .sum "A" (.var 5)), (5, .int)] ∧ (later.unify es).subst = later := by
  have reachable : Reachable (unify [] [⟨.var 1, .var 2⟩, ⟨.var 2, .tuple [.var 3]⟩]).subst :=
    .unify _ .empty
  have known := (reachable.unify_unchanged
    [⟨.tuple [.var 1, .var 4], .tuple [.tuple [.var 3], .var 4]⟩]).1.mpr
    (List.forall_mem_singleton.mpr (by cbv))
  have again := (reachable.unify_unchanged
    [⟨.fn (.var 1) (.var 4), .fn (.var 2) (.sum "A" (.var 5))⟩]).2 (by cbv)
    [⟨.var 5, .int⟩, ⟨.var 3, .var 1⟩]
  exact ⟨known.2, by cbv, again.2⟩

end Subst

end Monotype
