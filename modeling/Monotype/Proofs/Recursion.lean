import Monotype.Proofs.Agenda
import Monotype.Proofs.Problems

/-!
# Solving by recursion

`Subst.unify` works off an agenda. The same outcome comes from a recursion without one: two types
are made equal by making their parts equal one after the other, each part is resolved by what is
known when its turn comes, and a replacement is written into the substitution as soon as it is found.
Resolving again can make the parts that are left larger, but then fewer variables are open in them
(`Subst.Ordered.ends_each`). Main theorem: `Subst.Reachable.calls_end`.
-/

namespace Monotype

namespace Subst

/-! ### The recursion -/

mutual

/-- `s.Equates l r u`: making the types `l` and `r` equal comes to an end after finitely many calls
and leaves `u`. A variable on the right is dealt with by turning the equation round. -/
inductive Equates : Subst → Ty → Ty → Unification → Prop where
  | same (s : Subst) (v : Int) : Equates s (.var v) (.var v) { subst := s }
  | bind (s : Subst) {v : Int} {r : Ty} : v ∉ r.vars → Equates s (.var v) r { subst := s.set v r }
  | turn {s : Subst} {l : Ty} {v : Int} {u : Unification} : l.isVar = false →
    Equates s (.var v) l u → Equates s l (.var v) u
  | name (s : Subst) (n : String) : Equates s (.name n) (.name n) { subst := s }
  | fn {s : Subst} {p r q t : Ty} {u : Unification} : Unifies s [⟨p, q⟩, ⟨r, t⟩] u →
    Equates s (.fn p r) (.fn q t) u
  | tuple {s : Subst} {as bs : List Ty} {u : Unification} : as.length = bs.length →
    Unifies s (List.zipWith Equation.mk as bs) u → Equates s (.tuple as) (.tuple bs) u
  | sum {s : Subst} {l : String} {p q : Ty} {u : Unification} : Unifies s [⟨p, q⟩] u →
    Equates s (.sum l p) (.sum l q) u
  | clash (s : Subst) {c : Clash} : c.Fits →
    Equates s c.left c.right { subst := s, log := [.clashed c], clash := some c }

/-- `s.Unifies es u`: solving the equations one after the other comes to an end after finitely many
calls and leaves `u`. Both sides of an equation are resolved when its turn comes. -/
inductive Unifies : Subst → List Equation → Unification → Prop where
  | nil (s : Subst) : Unifies s [] { subst := s }
  | stop {s : Subst} {e : Equation} {es : List Equation} {l r : Ty} {u : Unification} {c : Clash} :
    s.Resolves e.left l → s.Resolves e.right r → Equates s l r u → u.clash = some c →
    Unifies s (e :: es) u
  | next {s : Subst} {e : Equation} {es : List Equation} {l r : Ty} {u u' : Unification} :
    s.Resolves e.left l → s.Resolves e.right r → Equates s l r u → u.clash = none →
    Unifies u.subst es u' →
    Unifies s (e :: es) { u' with log := u.log ++ .solved e.left e.right :: u'.log }

end

/-- A call of the recursion: for a list of equations, or for two types that are resolved. -/
inductive Call where
  | each (s : Subst) (es : List Equation)
  | one (s : Subst) (left right : Ty)

/-- `outer.Makes inner`: on the way to its outcome, `outer` makes the call `inner`. -/
inductive Call.Makes : Call → Call → Prop where
  | first {s : Subst} {e : Equation} {es : List Equation} {l r : Ty} :
    s.Resolves e.left l → s.Resolves e.right r → Makes (.each s (e :: es)) (.one s l r)
  | next {s : Subst} {e : Equation} {es : List Equation} {l r : Ty} {u : Unification} :
    s.Resolves e.left l → s.Resolves e.right r → s.Equates l r u → u.clash = none →
    Makes (.each s (e :: es)) (.each u.subst es)
  | turn {s : Subst} {l : Ty} {v : Int} : l.isVar = false →
    Makes (.one s l (.var v)) (.one s (.var v) l)
  | fn {s : Subst} {p r q t : Ty} :
    Makes (.one s (.fn p r) (.fn q t)) (.each s [⟨p, q⟩, ⟨r, t⟩])
  | tuple {s : Subst} {as bs : List Ty} : as.length = bs.length →
    Makes (.one s (.tuple as) (.tuple bs)) (.each s (List.zipWith Equation.mk as bs))
  | sum {s : Subst} {l : String} {p q : Ty} :
    Makes (.one s (.sum l p) (.sum l q)) (.each s [⟨p, q⟩])

/-- No endless chain of calls starts with this one. -/
def Call.Ends (call : Call) : Prop := Acc (fun inner outer => outer.Makes inner) call

end Subst

/-! ### What the recursion comes to -/

namespace Equation

theorem step_bind_left {v : Int} {r : Ty} (absent : v ∉ r.vars) : step ⟨.var v, r⟩ = .bind v r := by
  have different : r ≠ .var v := by
    rintro rfl
    exact absent (by simp [Ty.vars])
  have unmentioned : ¬ r.mentions v = true := by simpa using absent
  simp only [step, bindVar, if_neg different, if_neg unmentioned]

theorem step_turn {l : Ty} (shape : l.isVar = false) (v : Int) :
    step ⟨l, .var v⟩ = step ⟨.var v, l⟩ := by
  cases l with
  | var w => cases shape
  | _ => rfl

theorem step_of_fits {c : Clash} (fits : c.Fits) : step ⟨c.left, c.right⟩ = .clash c := by
  cases fits with
  | names different => simp [step, different]
  | @shapes l r left right different =>
    cases l <;> cases r <;> grind [step, Ty.isVar, Ty.kindName]
  | arity lengths => simp [step, lengths]
  | label different => simp [step, different]
  | @circular v t inside shape =>
    have different : t ≠ .var v := by
      rintro rfl
      cases shape
    have mentioned : t.mentions v = true := by simpa using inside
    simp only [step, bindVar, if_neg different, if_pos mentioned]

end Equation

namespace Subst

variable {s : Subst}

theorem set_eq_append {v : Int} {t : Ty} (absent : v ∉ s.keys) : s.set v t = s ++ [(v, t)] := by
  induction s with
  | nil => rfl
  | cons entry s ih =>
    obtain ⟨w, u⟩ := entry
    rw [keys_cons, List.mem_cons, not_or] at absent
    rw [set, if_neg (Ne.symm absent.1), ih absent.2]
    rfl

theorem Ordered.eq_sides (ordered : s.Ordered) {e : Equation} {l r : Ty}
    (left : s.Resolves e.left l) (right : s.Resolves e.right r) : ⟨l, r⟩ = e.resolve s := by
  rw [Equation.resolve, ordered.eq_resolve left, ordered.eq_resolve right]

mutual

theorem Equates.eq_extend : ∀ {s : Subst} {l r : Ty} {u : Unification}, s.Equates l r u →
    s.Ordered → s.Open ⟨l, r⟩ → u = s.extend (Equation.step ⟨l, r⟩).solve
  | _, _, _, _, .same s v, _, _ => by simp [Equation.step, Step.solve, extend]
  | _, _, _, _, .bind s absent, _, opened => by
    -- The variable is open, so nothing is written over.
    rw [Equation.step_bind_left absent, set_eq_append]
    · rfl
    · exact opened _ (by simp [Equation.vars, Ty.vars])
  | _, _, _, _, .turn shape turned, ordered, opened => by
    rw [Equation.step_turn shape]
    refine turned.eq_extend ordered fun v inside => opened v ?_
    simpa [Equation.vars, or_comm] using inside
  | _, _, _, _, .name s n, _, _ => by simp [Equation.step, Step.solve, extend]
  | _, _, _, _, .fn parts, ordered, opened => by
    rw [parts.eq_unify ordered, opened.unify_split ordered rfl]
  | _, _, _, _, .tuple lengths parts, ordered, opened => by
    rw [parts.eq_unify ordered, opened.unify_split ordered (by simp [Equation.step, lengths])]
  | _, _, _, _, .sum parts, ordered, opened => by
    rw [parts.eq_unify ordered, opened.unify_split ordered (by simp [Equation.step])]
  | _, _, _, _, .clash s fits, _, _ => by
    rw [Equation.step_of_fits fits]
    simp [Step.solve, extend]

theorem Unifies.eq_unify : ∀ {s : Subst} {es : List Equation} {u : Unification}, s.Unifies es u →
    s.Ordered → u = s.unify es
  | _, _, _, .nil s, _ => rfl
  | _, _, _, .stop left right equated clash, ordered => by
    have sides := ordered.eq_sides left right
    have outcome := equated.eq_extend ordered (sides ▸ ordered.open_resolve _)
    rw [sides] at outcome
    rw [outcome] at clash ⊢
    exact (unify_cons_of_clash _ clash).symm
  | _, _, _, .next left right equated success rest, ordered => by
    have sides := ordered.eq_sides left right
    have outcome := equated.eq_extend ordered (sides ▸ ordered.open_resolve _)
    rw [sides] at outcome
    have known := rest.eq_unify (outcome ▸ ordered.extend_step _)
    rw [known, outcome]
    rw [outcome] at success
    exact (unify_cons_of_success _ success).symm

end

/-! ### Fewer open variables or smaller types -/

/-- The variables that are still open in equations, each as often as it occurs. -/
def openVars (s : Subst) (es : List Equation) : List Int :=
  (es.map (Equation.resolve s)).flatMap Equation.vars

def openSize (s : Subst) (es : List Equation) : Nat :=
  Equation.sizeAll (es.map (Equation.resolve s))

theorem mem_openVars {es : List Equation} {v : Int} :
    v ∈ s.openVars es ↔ ∃ e ∈ es, v ∈ (e.resolve s).vars := by
  simp [openVars, List.mem_flatMap]

theorem Ordered.parts_decrease (ordered : s.Ordered) {e : Equation} {parts : List Equation}
    (split : (e.resolve s).step = .split parts) (es : List Equation) :
    s.openVars parts ⊆ s.openVars (e :: es) ∧ s.openSize parts < s.openSize (e :: es) := by
  have resolved : parts.map (Equation.resolve s) = parts := by
    refine (List.map_congr_left fun part member => ?_).trans parts.map_id
    exact ((ordered.open_resolve e).part split member).resolve
  obtain ⟨inside, smaller⟩ := Equation.step_split split
  constructor
  · intro v mem
    rw [openVars, resolved] at mem
    exact List.mem_append_left _ (inside mem)
  · rw [openSize, resolved, openSize, List.map_cons, Equation.sizeAll]
    omega

theorem vars_found (s : Subst) (e : Equation) :
    (e.resolve s).step.solve.found.vars ⊆ (e.resolve s).vars := by
  intro v known
  rw [← solve_found] at known
  exact vars_solve known

/-- What is left after the first equation is less work than all of it. If nothing was found, the
other equations are as they were; else the variables that were found are no longer open. -/
theorem Ordered.rest_decreases (ordered : s.Ordered) (e : Equation) (es : List Equation) :
    Prod.Lex (· < ·) (· < ·)
      (distinct ((s.extend (e.resolve s).step.solve).subst.openVars es),
        (s.extend (e.resolve s).step.solve).subst.openSize es)
      (distinct (s.openVars (e :: es)), s.openSize (e :: es)) := by
  have after := ordered.extend_step e
  have known := vars_found s e
  rw [extend] at after ⊢
  dsimp only at after ⊢
  generalize (e.resolve s).step.solve.found = found at after known ⊢
  cases found with
  | nil =>
    rw [List.append_nil]
    refine Prod.Lex.right' _ (distinct_le_of_subset fun v inside => ?_) ?_
    · obtain ⟨e', member, inside⟩ := mem_openVars.mp inside
      exact mem_openVars.mpr ⟨e', List.mem_cons_of_mem _ member, inside⟩
    · have positive : 0 < (e.resolve s).size := Nat.add_pos_left (Ty.size_pos _) _
      rw [openSize, openSize, List.map_cons, Equation.sizeAll]
      omega
  | cons entry found =>
    have first : entry.1 ∈ (e.resolve s).vars := known (by simp [vars])
    refine Prod.Lex.left _ _ (distinct_lt_of_subset (a := entry.1) ?_ ?_ ?_)
    · intro v inside
      obtain ⟨e', member, inside⟩ := mem_openVars.mp inside
      have settled :
          e'.resolve (s ++ entry :: found) = (e'.resolve s).resolve (entry :: found) := by
        simp only [Equation.resolve, after.resolve_append]
      rw [settled] at inside
      rcases Equation.mem_vars_resolve inside with inside | found
      · exact mem_openVars.mpr ⟨e', List.mem_cons_of_mem _ member, inside⟩
      · exact mem_openVars.mpr ⟨e, List.mem_cons_self, known found⟩
    · exact mem_openVars.mpr ⟨e, List.mem_cons_self, first⟩
    · intro inside
      obtain ⟨e', -, inside⟩ := mem_openVars.mp inside
      exact after.open_resolve e' _ inside (by simp [keys])

/-! ### The recursion ends -/

theorem exists_equates_var (s : Subst) (v : Int) (r : Ty) : ∃ u, s.Equates (.var v) r u := by
  by_cases same : r = .var v
  · subst same
    exact ⟨_, .same s v⟩
  by_cases inside : v ∈ r.vars
  · refine ⟨_, .clash s (c := ⟨.circular, .var v, r⟩) (.circular inside ?_)⟩
    cases r with
    | var w =>
      obtain rfl : v = w := by simpa [Ty.vars] using inside
      exact absurd rfl same
    | _ => rfl
  · exact ⟨_, .bind s inside⟩

/-- Two types come to an outcome if their parts do. -/
theorem exists_equates {l r : Ty}
    (parts : ∀ es, Equation.step ⟨l, r⟩ = .split es → ∃ u, s.Unifies es u) :
    ∃ u, s.Equates l r u := by
  by_cases left : l.isVar = false
  case neg =>
    cases l with
    | var v => exact exists_equates_var s v r
    | _ => exact absurd rfl left
  by_cases right : r.isVar = false
  case neg =>
    cases r with
    | var v =>
      obtain ⟨u, turned⟩ := exists_equates_var s v l
      exact ⟨u, .turn left turned⟩
    | _ => exact absurd rfl right
  by_cases kind : l.kindName = r.kindName
  case neg => exact ⟨_, .clash s (c := ⟨.mismatch, l, r⟩) (.shapes left right kind)⟩
  cases l with
  | var v => cases left
  | name a =>
    cases r with
    | name b =>
      by_cases same : a = b
      · subst same
        exact ⟨_, .name s a⟩
      · exact ⟨_, .clash s (c := ⟨.mismatch, .name a, .name b⟩) (.names same)⟩
    | _ => simp_all [Ty.kindName, Ty.isVar]
  | fn p q =>
    cases r with
    | fn p' q' =>
      obtain ⟨u, unified⟩ := parts _ rfl
      exact ⟨u, .fn unified⟩
    | _ => simp_all [Ty.kindName, Ty.isVar]
  | tuple as =>
    cases r with
    | tuple bs =>
      by_cases lengths : as.length = bs.length
      · obtain ⟨u, unified⟩ := parts (List.zipWith Equation.mk as bs)
          (by simp [Equation.step, lengths])
        exact ⟨u, .tuple lengths unified⟩
      · exact ⟨_, .clash s (c := ⟨.arity, .tuple as, .tuple bs⟩) (.arity lengths)⟩
    | _ => simp_all [Ty.kindName, Ty.isVar]
  | sum k p =>
    cases r with
    | sum m q =>
      by_cases same : k = m
      · subst same
        obtain ⟨u, unified⟩ := parts [⟨p, q⟩] (by simp [Equation.step])
        exact ⟨u, .sum unified⟩
      · exact ⟨_, .clash s (c := ⟨.label, .sum k p, .sum m q⟩) (.label same)⟩
    | _ => simp_all [Ty.kindName, Ty.isVar]

theorem ends_one {l r : Ty}
    (parts : ∀ es, Equation.step ⟨l, r⟩ = .split es → (Call.each s es).Ends) :
    (Call.one s l r).Ends := by
  have noCalls : ∀ v t, (Call.one s (.var v) t).Ends := by
    refine fun v t => ⟨_, fun call makes => ?_⟩
    cases makes with
    | turn shape => cases shape
  refine ⟨_, fun call makes => ?_⟩
  cases makes with
  | turn shape => exact noCalls _ _
  | fn => exact parts _ rfl
  | tuple lengths => exact parts _ (by simp [Equation.step, lengths])
  | sum => exact parts _ (by simp [Equation.step])

/-- There is no endless chain of calls, and an outcome is reached. With every list of equations that
is gone into there are fewer open variables, or no more of them and smaller types. -/
theorem Ordered.ends_each : ∀ {s : Subst}, s.Ordered → ∀ es,
    (Call.each s es).Ends ∧ ∃ u, s.Unifies es u
  | s, _, [] => ⟨⟨_, fun _ makes => by cases makes⟩, _, .nil s⟩
  | s, ordered, e :: es => by
    have parts : ∀ ps, (e.resolve s).step = .split ps →
        (Call.each s ps).Ends ∧ ∃ u, s.Unifies ps u := fun ps split => ordered.ends_each ps
    have one := ends_one fun ps split => (parts ps split).1
    obtain ⟨u, equated⟩ := exists_equates fun ps split => (parts ps split).2
    have outcome := equated.eq_extend ordered (ordered.open_resolve e)
    have after : u.subst.Ordered := outcome ▸ ordered.extend_step e
    have rest : (Call.each u.subst es).Ends ∧ ∃ u', u.subst.Unifies es u' := after.ends_each es
    constructor
    · refine ⟨_, fun call makes => ?_⟩
      cases makes with
      | first left right =>
        rw [ordered.eq_resolve left, ordered.eq_resolve right]
        exact one
      | next left right again success =>
        -- The first equation has one outcome only.
        rw [ordered.eq_resolve left, ordered.eq_resolve right] at again
        rw [again.eq_extend ordered (ordered.open_resolve e), ← outcome]
        exact rest.1
    · cases clash : u.clash with
      | some c => exact ⟨_, .stop (ordered.resolves _) (ordered.resolves _) equated clash⟩
      | none =>
        obtain ⟨u', unified⟩ := rest.2
        exact ⟨_, .next (ordered.resolves _) (ordered.resolves _) equated clash unified⟩
termination_by s _ es => (distinct (s.openVars es), s.openSize es)
decreasing_by
  · obtain ⟨fewer, smaller⟩ := ordered.parts_decrease split es
    exact Prod.Lex.right' _ (distinct_le_of_subset fewer) smaller
  · rw [outcome]
    exact ordered.rest_decreases e es

theorem Ordered.unifies_iff (ordered : s.Ordered) {es : List Equation} {u : Unification} :
    s.Unifies es u ↔ u = s.unify es := by
  constructor
  · intro unified
    exact unified.eq_unify ordered
  · rintro rfl
    obtain ⟨u, unified⟩ := (ordered.ends_each es).2
    rwa [← unified.eq_unify ordered]

/-- From every substitution that comes about, the recursion has no endless chain of calls, and it
comes to the outcome of `Subst.unify` and to no other. -/
theorem Reachable.calls_end (reachable : s.Reachable) (es : List Equation) :
    (Call.each s es).Ends ∧ ∀ u, s.Unifies es u ↔ u = s.unify es := by
  have ordered := reachable.ordered
  exact ⟨(ordered.ends_each es).1, fun u => ordered.unifies_iff⟩

/-- Equations that grow when they are resolved again, with variables on the right. -/
theorem calls_end_growing :
    let s := (unify [] [⟨.var 1, .fn (.var 2) (.var 2)⟩]).subst
    let es : List Equation := [
      ⟨.tuple [.var 1, .var 1], .tuple [.fn (.tuple [.var 3, .var 3]) (.var 4), .var 5]⟩,
      ⟨.int, .var 3⟩]
    (Call.each s es).Ends ∧ ∃ u, s.Unifies es u ∧ u.clash = none ∧ u.subst = [
      (1, .fn (.var 2) (.var 2)),
      (2, .tuple [.var 3, .var 3]),
      (4, .tuple [.var 3, .var 3]),
      (5, .fn (.tuple [.var 3, .var 3]) (.tuple [.var 3, .var 3])),
      (3, .int)] := by
  obtain ⟨ends, outcome⟩ := Reachable.calls_end (.unify [⟨.var 1, .fn (.var 2) (.var 2)⟩] .empty) [
    ⟨.tuple [.var 1, .var 1], .tuple [.fn (.tuple [.var 3, .var 3]) (.var 4), .var 5]⟩,
    ⟨.int, .var 3⟩]
  exact ⟨ends, _, (outcome _).mpr rfl, by cbv, by cbv⟩

end Subst

end Monotype
