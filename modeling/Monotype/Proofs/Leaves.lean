import Monotype.Proofs.Scoping

/-!
# The leaves of a pattern

Names and wildcards are the leaves of a pattern at which any value can stand. Inference numbers them
from left to right, starting with the next id, and stops at the first name that stands further left
already: `Pattern.infer_leaves` says in full what it does.
-/

namespace Monotype

open Infer

/-- A place in a pattern that takes any value. -/
inductive Leaf where
  | name (span : Span) (value : String)
  | wildcard (span : Span)
deriving Repr, DecidableEq

namespace Leaf

def name? : Leaf → Option String
  | .name _ x => some x
  | .wildcard _ => none

def names (leaves : List Leaf) : List String := leaves.filterMap name?

/-- The leaves, each with its id: `n` for the first one, and one more for each that follows. -/
def number (n : Int) (leaves : List Leaf) : List (Leaf × Int) :=
  leaves.mapIdx fun k leaf => (leaf, n + k)

/-- The names among numbered leaves, each with the variable that it is numbered by. -/
def bindings (numbered : List (Leaf × Int)) : Bindings :=
  numbered.filterMap fun (leaf, v) => leaf.name?.map fun x => (x, .var v)

theorem names_append (xs ys : List Leaf) : names (xs ++ ys) = names xs ++ names ys :=
  List.filterMap_append

theorem bindings_append (xs ys : List (Leaf × Int)) :
    bindings (xs ++ ys) = bindings xs ++ bindings ys :=
  List.filterMap_append

theorem number_append (n : Int) (xs ys : List Leaf) :
    number n (xs ++ ys) = number n xs ++ number (n + xs.length) ys := by
  rw [number, number, number, List.mapIdx_append]
  congr 2
  funext k leaf
  rw [Nat.cast_add, Int.add_assoc, Int.add_comm xs.length]

theorem nodup_ids (n : Int) (leaves : List Leaf) : ((number n leaves).map (·.2)).Nodup := by
  have ids : (number n leaves).map (·.2) = (List.range leaves.length).map fun k : Nat => n + k :=
    List.ext_getElem (by simp [number]) (by simp [number])
  rw [ids]
  refine List.nodup_range.map fun k l same => ?_
  exact Int.ofNat.inj (Int.add_left_cancel same)

/-- After the leaves `before`, which can all be bound to the right of the names `seen`, comes the
first one that cannot: the name `x` at `span` is among `seen` or stands further left. -/
structure Repeats (seen : List String) (leaves before : List Leaf) (span : Span) (x : String) :
    Prop where
  split : ∃ after, leaves = before ++ .name span x :: after
  bindable : Bindable seen (names before)
  again : x ∈ seen ++ names before

theorem bindable_nil (seen : List String) : Bindable seen (names []) :=
  ⟨List.nodup_nil, fun _ member => absurd member List.not_mem_nil⟩

theorem exists_repeats {seen : List String} {leaves : List Leaf}
    (unbindable : ¬ Bindable seen (names leaves)) :
    ∃ before span x, Repeats seen leaves before span x := by
  induction leaves generalizing seen with
  | nil => exact absurd (bindable_nil seen) unbindable
  | cons leaf leaves ih =>
    cases leaf with
    | wildcard other =>
      obtain ⟨before, span, x, ⟨after, rfl⟩, bindable, again⟩ := ih unbindable
      exact ⟨.wildcard other :: before, span, x, ⟨after, rfl⟩, bindable, again⟩
    | name other y =>
      by_cases known : y ∈ seen
      · exact ⟨[], other, y, ⟨leaves, rfl⟩, bindable_nil seen, List.mem_append_left _ known⟩
      -- Further right, this name is seen as well.
      · have first : Bindable seen [y] := ⟨List.nodup_singleton y, by simpa using known⟩
        have rest : ¬ Bindable (seen ++ [y]) (names leaves) :=
          fun bindable => unbindable (bindable_append.mpr ⟨first, bindable⟩)
        obtain ⟨before, span, x, ⟨after, rfl⟩, bindable, again⟩ := ih rest
        rw [List.append_assoc] at again
        exact ⟨.name other y :: before, span, x, ⟨after, rfl⟩,
          bindable_append.mpr ⟨first, bindable⟩, again⟩

theorem Repeats.append {seen : List String} {xs ys before : List Leaf} {span : Span} {x : String}
    (repeats : Repeats seen (xs ++ ys) before span x) :
    Repeats seen xs before span x ∨ ∃ rest, before = xs ++ rest ∧ Bindable seen (names xs) ∧
      Repeats (seen ++ names xs) ys rest span x := by
  obtain ⟨⟨after, split⟩, bindable, again⟩ := repeats
  have right {rest : List Leaf} (whole : before = xs ++ rest)
      (tail : ys = rest ++ .name span x :: after) :
      Bindable seen (names xs) ∧ Repeats (seen ++ names xs) ys rest span x := by
    rw [whole, names_append] at bindable again
    rw [bindable_append] at bindable
    rw [← List.append_assoc] at again
    exact ⟨bindable.1, ⟨after, tail⟩, bindable.2, again⟩
  rcases List.append_eq_append_iff.mp split with ⟨rest, whole, tail⟩ | ⟨rest, head, tail⟩
  · exact .inr ⟨rest, whole, right whole tail⟩
  · rcases List.cons_eq_append_iff.mp tail with ⟨rfl, same⟩ | ⟨more, rfl, -⟩
    · rw [List.append_nil] at head
      have whole : before = xs ++ [] := by rw [head, List.append_nil]
      exact .inr ⟨[], whole, right whole same⟩
    · exact .inl ⟨⟨more, head⟩, bindable, again⟩

end Leaf

namespace Pattern

mutual

def leaves : Pattern → List Leaf
  | .unit _ | .int .. | .expr _ => []
  | .wildcard span => [.wildcard span]
  | .name span x => [.name span x]
  | .constructor _ _ arg => arg.leaves
  | .tuple _ elements => leavesAll elements

def leavesAll : List Pattern → List Leaf
  | [] => []
  | p :: ps => p.leaves ++ leavesAll ps

end

mutual

theorem names_leaves : ∀ p : Pattern, Leaf.names p.leaves = p.names
  | .unit _ | .int .. | .expr _ | .wildcard _ | .name .. => rfl
  | .constructor _ _ arg => names_leaves arg
  | .tuple _ ps => names_leavesAll ps

theorem names_leavesAll : ∀ ps : List Pattern, Leaf.names (leavesAll ps) = namesAll ps
  | [] => rfl
  | p :: ps => by rw [leavesAll, Leaf.names_append, names_leaves p, names_leavesAll ps, namesAll]

end

mutual

/-- `p.Mirrors t`: the type is the pattern over again, with a variable for every leaf. -/
inductive Mirrors : Pattern → Ty → Prop where
  | unit (span : Span) : Mirrors (.unit span) .unit
  | int (span : Span) (n : Int) : Mirrors (.int span n) .int
  | wildcard (span : Span) (v : Int) : Mirrors (.wildcard span) (.var v)
  | name (span : Span) (x : String) (v : Int) : Mirrors (.name span x) (.var v)
  | constructor {span : Span} {label : String} {arg : Pattern} {t : Ty} :
    Mirrors arg t → Mirrors (.constructor span label arg) (.sum label t)
  | tuple {span : Span} {ps : List Pattern} {ts : List Ty} :
    MirrorsAll ps ts → Mirrors (.tuple span ps) (.tuple ts)

inductive MirrorsAll : List Pattern → List Ty → Prop where
  | nil : MirrorsAll [] []
  | cons {p : Pattern} {ps : List Pattern} {t : Ty} {ts : List Ty} :
    Mirrors p t → MirrorsAll ps ts → MirrorsAll (p :: ps) (t :: ts)

end

/-! ### Patterns with a type -/

mutual

theorem inferFrom_leaves : ∀ (p : Pattern) {seen : List String} {s s' : Session} {t : Ty}
    {Δ : Bindings}, p.inferFrom seen s = .ok (t, Δ) s' →
    p.Mirrors t ∧ t.vars = (Leaf.number s.next p.leaves).map (·.2) ∧
      Δ = Leaf.bindings (Leaf.number s.next p.leaves) ∧
      s' = { s with next := s.next + p.leaves.length }
  | .unit span, seen, s, s', t, Δ, run => by
    simp only [inferFrom, pure_ok, Prod.mk.injEq] at run
    obtain ⟨⟨rfl, rfl⟩, rfl⟩ := run
    exact ⟨.unit span, rfl, rfl, by simp [leaves]⟩
  | .int span n, seen, s, s', t, Δ, run => by
    simp only [inferFrom, pure_ok, Prod.mk.injEq] at run
    obtain ⟨⟨rfl, rfl⟩, rfl⟩ := run
    exact ⟨.int span n, rfl, rfl, by simp [leaves]⟩
  | .wildcard span, seen, s, s', t, Δ, run => by
    simp only [inferFrom, bind_ok, fresh_ok, pure_ok, Prod.mk.injEq] at run
    obtain ⟨_, _, ⟨rfl, rfl⟩, ⟨rfl, rfl⟩, rfl⟩ := run
    exact ⟨.wildcard span _, by simp [Ty.vars, leaves, Leaf.number], rfl, rfl⟩
  | .name span x, seen, s, s', t, Δ, run => by
    unfold inferFrom at run
    split at run
    · simp [bind_ok, throw_ok] at run
    · simp only [bind_ok, fresh_ok, pure_ok, Prod.mk.injEq] at run
      obtain ⟨_, _, ⟨rfl, rfl⟩, ⟨rfl, rfl⟩, rfl⟩ := run
      exact ⟨.name span x _, by simp [Ty.vars, leaves, Leaf.number],
        by simp [leaves, Leaf.number, Leaf.bindings, Leaf.name?], rfl⟩
  | .constructor span label arg, seen, s, s', t, Δ, run => by
    simp only [inferFrom, bind_ok, pure_ok, Prod.exists, Prod.mk.injEq] at run
    obtain ⟨u, Δ, s₁, run, ⟨rfl, rfl⟩, rfl⟩ := run
    obtain ⟨mirrors, rest⟩ := inferFrom_leaves arg run
    exact ⟨.constructor mirrors, rest⟩
  | .tuple span ps, seen, s, s', t, Δ, run => by
    simp only [inferFrom, bind_ok, pure_ok, Prod.exists, Prod.mk.injEq] at run
    obtain ⟨ts, Δ, s₁, run, ⟨rfl, rfl⟩, rfl⟩ := run
    obtain ⟨mirrors, rest⟩ := inferAllFrom_leaves ps run
    exact ⟨.tuple mirrors, rest⟩
  | .expr e, seen, s, s', t, Δ, run => by simp [inferFrom, throw_ok] at run

theorem inferAllFrom_leaves : ∀ (ps : List Pattern) {seen : List String} {s s' : Session}
    {ts : List Ty} {Δ : Bindings}, inferAllFrom seen ps s = .ok (ts, Δ) s' →
    MirrorsAll ps ts ∧ Ty.varsAll ts = (Leaf.number s.next (leavesAll ps)).map (·.2) ∧
      Δ = Leaf.bindings (Leaf.number s.next (leavesAll ps)) ∧
      s' = { s with next := s.next + (leavesAll ps).length }
  | [], seen, s, s', ts, Δ, run => by
    simp only [inferAllFrom, pure_ok, Prod.mk.injEq] at run
    obtain ⟨⟨rfl, rfl⟩, rfl⟩ := run
    exact ⟨.nil, rfl, rfl, by simp [leavesAll]⟩
  | p :: ps, seen, s, s', ts, Δ, run => by
    simp only [inferAllFrom, bind_ok, pure_ok, Prod.exists, Prod.mk.injEq] at run
    obtain ⟨t, Δ, s₁, head, ts, Ε, s₂, tail, ⟨rfl, rfl⟩, rfl⟩ := run
    obtain ⟨mirrors, vars, rfl, rfl⟩ := inferFrom_leaves p head
    obtain ⟨mirrorsAll, varsAll, rfl, rfl⟩ := inferAllFrom_leaves ps tail
    refine ⟨.cons mirrors mirrorsAll, ?_, ?_, ?_⟩
    · rw [Ty.varsAll, vars, varsAll, leavesAll, Leaf.number_append, List.map_append]
    · rw [leavesAll, Leaf.number_append, Leaf.bindings_append]
    · simp [leavesAll, Int.add_assoc]

end

/-! ### Patterns that bind a name twice -/

mutual

theorem inferFrom_repeats : ∀ (p : Pattern) {seen : List String} {before : List Leaf} {span : Span}
    {x : String} (s : Session), p.proper = true → Leaf.Repeats seen p.leaves before span x →
    p.inferFrom seen s = .error (.duplicateBinding x span)
      { s with next := s.next + before.length, log := s.log ++ [.boundTwice x] }
  | .unit _, _, _, _, _, _, _, repeats => by simpa [leaves] using repeats.split
  | .int .., _, _, _, _, _, _, repeats => by simpa [leaves] using repeats.split
  | .wildcard _, _, _, _, _, _, _, repeats => by
    simpa [leaves, List.cons_eq_append_iff] using repeats.split
  | .name _ y, seen, before, _, _, s, _, repeats => by
    obtain ⟨⟨after, split⟩, -, again⟩ := repeats
    cases before with
    | cons leaf before => simp [leaves] at split
    | nil =>
      cases split
      have known : y ∈ seen := by simpa [Leaf.names] using again
      unfold inferFrom
      rw [if_pos known, List.length_nil, Nat.cast_zero, Int.add_zero]
      rfl
  | .constructor _ _ arg, seen, before, span, x, s, proper, repeats => by
    rw [inferFrom, run_bind, inferFrom_repeats arg s proper repeats]
  | .tuple _ ps, seen, before, span, x, s, proper, repeats => by
    rw [inferFrom, run_bind, inferAllFrom_repeats ps s proper repeats]
  | .expr _, _, _, _, _, _, proper, _ => by cases proper

theorem inferAllFrom_repeats : ∀ (ps : List Pattern) {seen : List String} {before : List Leaf}
    {span : Span} {x : String} (s : Session), properAll ps = true →
    Leaf.Repeats seen (leavesAll ps) before span x →
    inferAllFrom seen ps s = .error (.duplicateBinding x span)
      { s with next := s.next + before.length, log := s.log ++ [.boundTwice x] }
  | [], _, _, _, _, _, _, repeats => by simpa [leavesAll] using repeats.split
  | p :: ps, seen, before, span, x, s, proper, repeats => by
    rw [properAll, Bool.and_eq_true] at proper
    rw [inferAllFrom, run_bind]
    rcases repeats.append with inside | ⟨rest, rfl, bindable, later⟩
    -- Either the name comes again in the first pattern, or this is inferred and its names are seen.
    · rw [inferFrom_repeats p s proper.1 inside]
    · rw [names_leaves] at bindable later
      obtain ⟨t, Δ, s₁, run, bound⟩ := inferFrom_linear p s proper.1 bindable.1 bindable.2
      obtain ⟨-, -, -, rfl⟩ := inferFrom_leaves p run
      rw [← bound] at later
      rw [run]
      dsimp only
      rw [run_bind, inferAllFrom_repeats ps _ proper.2 later]
      simp [Int.add_assoc]

end

/-! ### Patterns in full -/

theorem infer_of_nodup {p : Pattern} (proper : p.proper = true) (nodup : p.names.Nodup)
    (s : Session) :
    ∃ t, p.infer s = .ok (t, Leaf.bindings (Leaf.number s.next p.leaves))
        { s with next := s.next + p.leaves.length } ∧
      p.Mirrors t ∧ t.vars = (Leaf.number s.next p.leaves).map (·.2) := by
  obtain ⟨t, Δ, s', run, -⟩ := p.inferFrom_linear s proper nodup fun _ _ => List.not_mem_nil
  obtain ⟨mirrors, vars, rfl, rfl⟩ := p.inferFrom_leaves run
  exact ⟨t, run, mirrors, vars⟩

theorem infer_of_not_nodup {p : Pattern} (proper : p.proper = true) (again : ¬ p.names.Nodup)
    (s : Session) :
    ∃ before span x, Leaf.Repeats [] p.leaves before span x ∧
      p.infer s = .error (.duplicateBinding x span)
        { s with next := s.next + before.length, log := s.log ++ [.boundTwice x] } := by
  rw [← p.names_leaves] at again
  have unbindable : ¬ Bindable [] (Leaf.names p.leaves) := fun bindable => again bindable.1
  obtain ⟨before, span, x, repeats⟩ := Leaf.exists_repeats unbindable
  exact ⟨before, span, x, repeats, p.inferFrom_repeats s proper repeats⟩

/-- Inference of a pattern succeeds if and only if its names are pairwise distinct. The type then is
the pattern over again with a variable for every leaf, the names are bound to their variables from
left to right, and the ids are those from the next one on, one for each leaf. Otherwise the first
name that stands further left already is blamed, and one id is used up for each leaf before it. -/
theorem infer_leaves {p : Pattern} (proper : p.proper = true) (s : Session) :
    ((∃ t Δ s', p.infer s = .ok (t, Δ) s') ↔ p.names.Nodup) ∧
    (p.names.Nodup → ∃ t,
      p.infer s = .ok (t, Leaf.bindings (Leaf.number s.next p.leaves))
        { s with next := s.next + p.leaves.length } ∧
      p.Mirrors t ∧ t.vars = (Leaf.number s.next p.leaves).map (·.2) ∧ t.vars.Nodup) ∧
    (¬ p.names.Nodup → ∃ before span x, Leaf.Repeats [] p.leaves before span x ∧
      p.infer s = .error (.duplicateBinding x span)
        { s with next := s.next + before.length, log := s.log ++ [.boundTwice x] }) := by
  refine ⟨⟨?_, fun nodup => ?_⟩, fun nodup => ?_, fun again => infer_of_not_nodup proper again s⟩
  · rintro ⟨t, Δ, s', run⟩
    by_contra again
    obtain ⟨_, _, _, -, failed⟩ := infer_of_not_nodup proper again s
    rw [run] at failed
    cases failed
  · obtain ⟨t, run, -⟩ := infer_of_nodup proper nodup s
    exact ⟨t, _, _, run⟩
  · obtain ⟨t, run, mirrors, vars⟩ := infer_of_nodup proper nodup s
    exact ⟨t, run, mirrors, vars, vars ▸ Leaf.nodup_ids _ _⟩

/-- A pattern with two names around a wildcard, and one in which a name comes again further in. -/
theorem infer_leaves_nested :
    let p : Pattern := .tuple .origin [.name .origin "x",
      .constructor .origin "A" (.tuple .origin [.wildcard .origin, .name .origin "y"])]
    let q : Pattern := .tuple .origin [.name .origin "x", .wildcard .origin,
      .constructor .origin "A" (.tuple .origin [.name .origin "y", .name (.ofInts 3 4) "x",
        .name .origin "y"])]
    (∃ t, p.infer { next := 7 } = .ok (t, [("x", .var 7), ("y", .var 9)]) { next := 10 } ∧
      p.Mirrors t ∧ t.vars = [7, 8, 9]) ∧
    ∃ before, Leaf.Repeats [] q.leaves before (.ofInts 3 4) "x" ∧ before.length = 3 ∧
      q.infer { next := 7 } = .error (.duplicateBinding "x" (.ofInts 3 4))
        { next := 10, log := [.boundTwice "x"] } := by
  intro p q
  constructor
  · obtain ⟨t, run, mirrors, vars, -⟩ :=
      (infer_leaves (p := p) rfl { next := 7 }).2.1 (by decide)
    exact ⟨t, run, mirrors, vars⟩
  · have known : q.infer { next := 7 } = .error (.duplicateBinding "x" (.ofInts 3 4))
        { next := 10, log := [.boundTwice "x"] } := by
      subst q
      cbv
    obtain ⟨before, span, x, repeats, run⟩ :=
      (infer_leaves (p := q) rfl { next := 7 }).2.2 (by decide)
    obtain ⟨same, session⟩ := EStateM.Result.error.inj (known.symm.trans run)
    obtain ⟨rfl, rfl⟩ := Problem.duplicateBinding.inj same
    have used : (10 : Int) = 7 + before.length := congrArg Session.next session
    exact ⟨before, repeats, by omega, known⟩

end Pattern

end Monotype
