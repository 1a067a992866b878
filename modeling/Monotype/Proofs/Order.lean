import Monotype.Proofs.Agenda
import Monotype.Proofs.Variant

/-!
# The order of equations

Equations that are put in another order, or with their sides exchanged, have the same solutions. So
solving them succeeds or fails alike, and what is found differs in the choice of ids only
(`Subst.Reachable.unify_rearranged`). Lists of equations that have no variable in common can be
solved in either order, and what is found is the same to the letter (`Subst.unify_independent`).
-/

namespace Monotype

namespace Equation

variable {θ : Int → Ty}

def turned (e : Equation) : Equation := ⟨e.right, e.left⟩

theorem holds_turned {e : Equation} : e.turned.Holds θ ↔ e.Holds θ := eq_comm

/-- The same equations in another order, some of them with their sides exchanged. -/
def Rearranged (es es' : List Equation) : Prop :=
  ∃ ds, es.Perm ds ∧ List.Forall₂ (fun d e => e = d ∨ e = d.turned) ds es'

theorem holds_iff_of_sides {ds es : List Equation}
    (sides : List.Forall₂ (fun d e => e = d ∨ e = d.turned) ds es) :
    (∀ d ∈ ds, d.Holds θ) ↔ ∀ e ∈ es, e.Holds θ := by
  induction sides with
  | nil => rfl
  | @cons d e ds es side _ ih =>
    rw [List.forall_mem_cons, List.forall_mem_cons]
    refine and_congr ?_ ih
    rcases side with rfl | rfl
    · rfl
    · exact holds_turned.symm

theorem Rearranged.holds_iff {es es' : List Equation} (rearranged : Rearranged es es') :
    (∀ e ∈ es, e.Holds θ) ↔ ∀ e ∈ es', e.Holds θ := by
  obtain ⟨ds, permuted, sides⟩ := rearranged
  rw [← holds_iff_of_sides sides]
  exact forall_congr' fun e => imp_congr_left permuted.mem_iff

end Equation

namespace Subst

variable {s : Subst} {es es' : List Equation}

theorem solvedBy_unify (success : (s.unify es).clash = none) {θ : Int → Ty} :
    (s.unify es).subst.SolvedBy θ ↔ s.SolvedBy θ ∧ ∀ e ∈ es, e.Holds θ := by
  rw [unify_solutions s es]
  exact (and_iff_right success).symm

theorem Ordered.unify_succeeds_iff (ordered : s.Ordered) :
    (s.unify es).clash = none ↔ ∃ θ, s.SolvedBy θ ∧ ∀ e ∈ es, e.Holds θ := by
  constructor
  · intro success
    exact ⟨_, (solvedBy_unify success).mp (ordered_unify es ordered).solvedBy_closure⟩
  · rintro ⟨θ, solved⟩
    exact ((unify_solutions s es).mp solved).1

/-- Only the solutions of equations matter for solving them. -/
theorem Ordered.unify_of_same_solutions (ordered : s.Ordered)
    (same : ∀ θ, (∀ e ∈ es, e.Holds θ) ↔ ∀ e ∈ es', e.Holds θ) :
    ((s.unify es).clash = none ↔ (s.unify es').clash = none) ∧
    ((s.unify es).clash = none → ∃ ρ : Int → Int, Function.Bijective ρ ∧
      ∀ t, (s.unify es').subst.resolve t = ((s.unify es).subst.resolve t).rename ρ) := by
  have alike : (s.unify es).clash = none ↔ (s.unify es').clash = none := by
    rw [ordered.unify_succeeds_iff, ordered.unify_succeeds_iff]
    exact exists_congr fun θ => and_congr_right fun _ => same θ
  refine ⟨alike, fun success => ?_⟩
  refine (ordered_unify es ordered).exists_rename (ordered_unify es' ordered) fun θ => ?_
  rw [solvedBy_unify success, solvedBy_unify (alike.mp success), same]

/-- The order of equations and the order of their sides make no difference to success, and to what
is found only in the choice of ids. -/
theorem Reachable.unify_rearranged (reachable : s.Reachable)
    (rearranged : Equation.Rearranged es es') :
    ((s.unify es).clash = none ↔ (s.unify es').clash = none) ∧
    ((s.unify es).clash = none → ∃ ρ : Int → Int, Function.Bijective ρ ∧
      ∀ t, (s.unify es').subst.resolve t = ((s.unify es).subst.resolve t).rename ρ) :=
  reachable.ordered.unify_of_same_solutions fun _ => rearranged.holds_iff

/-- Two equations in either order, where another variable of two is replaced. -/
theorem unify_rearranged_exchange :
    let s := (unify [] [⟨.var 5, .tuple [.var 1]⟩]).subst
    let one := s.unify [⟨.var 1, .var 2⟩, ⟨.fn (.var 2) (.var 3), .var 4⟩]
    let other := s.unify [⟨.var 4, .fn (.var 2) (.var 3)⟩, ⟨.var 2, .var 1⟩]
    one.subst = [(5, .tuple [.var 1]), (1, .var 2), (4, .fn (.var 2) (.var 3))] ∧
      other.subst = [(5, .tuple [.var 1]), (4, .fn (.var 2) (.var 3)), (2, .var 1)] ∧
      ∃ ρ : Int → Int, Function.Bijective ρ ∧
        ∀ t, other.subst.resolve t = (one.subst.resolve t).rename ρ := by
  have rearranged : Equation.Rearranged [⟨.var 1, .var 2⟩, ⟨.fn (.var 2) (.var 3), .var 4⟩]
      [⟨.var 4, .fn (.var 2) (.var 3)⟩, ⟨.var 2, .var 1⟩] :=
    ⟨_, .swap _ _ [], .cons (.inr rfl) (.cons (.inr rfl) .nil)⟩
  obtain ⟨-, alike⟩ := Reachable.unify_rearranged (.unify [⟨.var 5, .tuple [.var 1]⟩] .empty)
    rearranged
  exact ⟨by cbv, by cbv, alike (by cbv)⟩

end Subst

/-! ### Equations without a common variable -/

namespace Equation

variable {es ds : List Equation}

/-- No variable occurs in both lists. -/
def Apart (es ds : List Equation) : Prop := ∀ e ∈ es, ∀ d ∈ ds, ∀ v ∈ e.vars, v ∉ d.vars

instance : Decidable (Apart es ds) :=
  inferInstanceAs (Decidable (∀ e ∈ es, ∀ d ∈ ds, ∀ v ∈ e.vars, v ∉ d.vars))

theorem Apart.symm (apart : Apart es ds) : Apart ds es :=
  fun d right e left v inside other => apart e left d right v other inside

end Equation

namespace Subst

variable {s f : Subst} {es ds : List Equation}

theorem exists_equation_of_key {v : Int} (key : v ∈ (unify [] es).subst.keys) :
    ∃ e ∈ es, v ∈ e.vars := by
  rcases vars_unify (keys_subset_vars _ key) with known | asked
  · simp at known
  · exact asked

/-- Equations are solved as if those that have no variable in common with them had not been. -/
theorem unify_of_apart (apart : Equation.Apart es ds) :
    (unify [] es).subst.unify ds =
      { unify [] ds with subst := (unify [] es).subst ++ (unify [] ds).subst } := by
  have start : Ordered [] := trivial
  have opened : ∀ d ∈ ds, (unify [] es).subst.Open d := by
    intro d member v inside key
    obtain ⟨e, asked, other⟩ := exists_equation_of_key key
    exact apart e asked d member v other inside
  have alone : unify [] ds = extend [] (Task.solveAll (ds.map .ask)) :=
    start.unify_of_open fun _ _ _ _ => List.not_mem_nil
  rw [(ordered_unify es start).unify_of_open opened, alone]
  rfl

theorem follow_congr (same : ∀ v, s.get? v = f.get? v) (depth : Nat) :
    s.follow depth = f.follow depth := by
  induction depth with
  | zero => rfl
  | succ depth ih =>
    funext v
    rw [follow_succ, follow_succ, same, ih]

theorem resolve_congr (same : ∀ v, s.get? v = f.get? v) (length : s.length = f.length) (t : Ty) :
    s.resolve t = f.resolve t := by
  rw [resolve, resolve, closure, closure, length, follow_congr same]

theorem get?_append_comm (apart : ∀ v ∈ s.keys, v ∉ f.keys) (v : Int) :
    get? (s ++ f) v = get? (f ++ s) v := by
  rw [get?, get?, List.lookup_append, List.lookup_append]
  by_cases key : v ∈ s.keys
  · have absent : f.lookup v = none := get?_eq_none.mpr (apart v key)
    rw [absent, Option.or_none, Option.none_or]
  · have absent : s.lookup v = none := get?_eq_none.mpr key
    rw [absent, Option.or_none, Option.none_or]

/-- Lists of equations that have no variable in common can be solved in either order. What is found
has the same entries, and so types are resolved alike. -/
theorem unify_independent (apart : Equation.Apart es ds) :
    let first := unify [] es
    let second := unify [] ds
    let forth := first.subst.unify ds
    let back := second.subst.unify es
    (first.clash = none ∧ forth.clash = none ↔ second.clash = none ∧ back.clash = none) ∧
    (first.clash = none → forth.clash = none →
      forth.subst.Perm back.subst ∧ (∀ v, forth.subst.get? v = back.subst.get? v) ∧
        ∀ t, forth.subst.resolve t = back.subst.resolve t) := by
  intro first second forth back
  -- Either way, both lists are solved as if each were alone.
  have forthEq : forth = { second with subst := first.subst ++ second.subst } :=
    unify_of_apart apart
  have backEq : back = { first with subst := second.subst ++ first.subst } :=
    unify_of_apart apart.symm
  have keys : ∀ v ∈ first.subst.keys, v ∉ second.subst.keys := by
    intro v left right
    obtain ⟨e, asked, inside⟩ := exists_equation_of_key left
    obtain ⟨d, member, other⟩ := exists_equation_of_key right
    exact apart e asked d member v inside other
  rw [forthEq, backEq]
  refine ⟨and_comm, fun _ _ => ?_⟩
  have entries := get?_append_comm keys
  exact ⟨List.perm_append_comm, entries, resolve_congr entries (by simp [Nat.add_comm])⟩

/-- A function and its parameter on one side, a pair whose parts depend on each other on the other:
the entries are found in different orders. -/
theorem unify_independent_pair :
    let es : List Equation := [⟨.var 1, .fn (.var 2) .int⟩, ⟨.tuple [.var 3], .var 2⟩]
    let ds : List Equation := [⟨.tuple [.var 4, .var 5], .tuple [.sum "A" (.var 5), .unit]⟩]
    let forth := (unify [] es).subst.unify ds
    let back := (unify [] ds).subst.unify es
    Equation.Apart es ds ∧
      forth.subst = [(1, .fn (.var 2) .int), (2, .tuple [.var 3]), (4, .sum "A" (.var 5)),
        (5, .unit)] ∧
      back.subst = [(4, .sum "A" (.var 5)), (5, .unit), (1, .fn (.var 2) .int),
        (2, .tuple [.var 3])] ∧
      ∀ t, forth.subst.resolve t = back.subst.resolve t := by
  have apart : Equation.Apart [⟨.var 1, .fn (.var 2) .int⟩, ⟨.tuple [.var 3], .var 2⟩]
      [⟨.tuple [.var 4, .var 5], .tuple [.sum "A" (.var 5), .unit]⟩] := by decide
  obtain ⟨-, same⟩ := unify_independent apart
  exact ⟨apart, by cbv, by cbv, (same (by cbv) (by cbv)).2.2⟩

end Subst

end Monotype
