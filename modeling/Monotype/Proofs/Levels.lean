import Mathlib.Data.List.Basic
import Monotype.Scope
import Monotype.Scope.Table

/-!
# Scopes are flat environments

A level keeps the first of several values for one name, and an inner level hides the ones around it.
Both come to the same: a name has the value of the first pair for it, when the pairs of all levels
that are entered are written one after the other, innermost level first. Main theorem:
`Tables.goAll_flat`. The way from tables to pairs leads over `Scope`, which keeps the pairs as they
were given.
-/

namespace Monotype

variable {α : Type}

/-! ### Tables of one level -/

namespace Table

theorem mem_names_iff (table : Table α) (x : String) :
    x ∈ table.entries.map (·.1) ↔ (table.get? x).isSome = true := by
  rw [get?, List.lookup_isSome_iff, List.mem_map]
  refine exists_congr fun pair => and_congr_right fun _ => ?_
  rw [beq_iff_eq, eq_comm]

theorem get?_insertIfNew (table : Table α) (pair : String × α) (x : String) :
    (table.insertIfNew pair).get? x = (table.get? x).or ([pair].lookup x) := by
  unfold insertIfNew
  split
  -- The pair is left out, and only its own name could tell: it has a value already.
  · next bound =>
    rw [mem_names_iff] at bound
    by_cases same : x = pair.1
    · rw [← same] at bound
      rw [Option.or_of_isSome bound]
    · have other : (x == pair.1) = false := by simpa using same
      rw [List.lookup_cons, other]
      simp
  · exact List.lookup_append

theorem get?_foldl_insertIfNew (pairs : List (String × α)) (table : Table α) (x : String) :
    (pairs.foldl insertIfNew table).get? x = (table.get? x).or (pairs.lookup x) := by
  induction pairs generalizing table with
  | nil => simp
  | cons pair pairs ih =>
    rw [List.foldl_cons, ih, get?_insertIfNew, Option.or_assoc, ← List.lookup_append,
      List.singleton_append]

theorem get?_ofPairs (pairs : List (String × α)) (x : String) :
    (ofPairs pairs).get? x = pairs.lookup x := by
  rw [ofPairs, get?_foldl_insertIfNew]
  rfl

end Table

/-! ### Moves -/

/-- A step from one scope to another. -/
inductive Move (α : Type) where
  /-- To a level of the pairs that is built inside the scope. -/
  | down (pairs : List (String × α))
  | up

/-- The pairs of the levels that are entered after a move, innermost level first. -/
def Move.enter : List (List (String × α)) → Move α → List (List (String × α))
  | levels, .down pairs => pairs :: levels
  | _ :: outer :: levels, .up => outer :: levels
  | levels, .up => levels

def Tables.go (tables : Tables α) : Move α → Tables α
  | .down pairs => tables.down pairs
  | .up => tables.up

namespace Scope

def go (scope : Scope α) : Move α → Scope α
  | .down pairs => scope.down pairs
  | .up => scope.up

/-- The pairs of each level, innermost level first. -/
def levels : Scope α → List (List (String × α))
  | .top names => [names]
  | .inner names outer => names :: outer.levels

/-- The scope with its levels in tables. -/
def tables : Scope α → Tables α
  | .top names => .ofPairs names none
  | .inner names outer => .ofPairs names (some outer.tables)

theorem levels_go (scope : Scope α) (move : Move α) :
    (scope.go move).levels = Move.enter scope.levels move := by
  cases move with
  | down pairs => cases scope <;> rfl
  | up =>
    cases scope with
    | top names => rfl
    | inner names outer => cases outer <;> rfl

theorem tables_go (scope : Scope α) (move : Move α) :
    (scope.go move).tables = scope.tables.go move := by
  cases move with
  | down pairs => rfl
  | up => cases scope <;> rfl

theorem levels_goAll (moves : List (Move α)) (scope : Scope α) :
    (moves.foldl go scope).levels = moves.foldl Move.enter scope.levels :=
  (List.foldl_hom levels fun scope move => (levels_go scope move).symm).symm

theorem tables_goAll (moves : List (Move α)) (scope : Scope α) :
    (moves.foldl go scope).tables = moves.foldl Tables.go scope.tables :=
  (List.foldl_hom tables fun scope move => (tables_go scope move).symm).symm

theorem get?_eq_flat (x : String) (scope : Scope α) :
    scope.get? x = scope.levels.flatten.lookup x := by
  induction scope with
  | top names => simp [get?, levels]
  | inner names outer ih =>
    rw [get?, levels, List.flatten_cons, List.lookup_append, ih]
    cases names.lookup x <;> rfl

theorem get_tables (span : Span) (x : String) (scope : Scope α) :
    scope.tables.get span x = (scope.get? x).elim (.error (.undefinedName x span)) .ok := by
  induction scope with
  | top names =>
    rw [tables, Tables.ofPairs, Tables.get, Table.get?_ofPairs, get?]
    cases names.lookup x <;> rfl
  | inner names outer ih =>
    rw [tables, Tables.ofPairs, Tables.get, Table.get?_ofPairs, get?, ih]
    cases names.lookup x <;> rfl

theorem up_tables {scope : Scope α} (atTop : scope.levels.length = 1) :
    scope.tables.up = scope.tables := by
  cases scope with
  | top names => rfl
  | inner names outer => cases outer <;> simp [levels] at atTop

end Scope

namespace Tables

theorem elim_ok {missing : Problem} {found : Option α} {a : α} :
    (found.elim (.error missing) .ok : Except Problem α) = .ok a ↔ found = some a := by
  cases found <;> simp

theorem elim_error {missing problem : Problem} {found : Option α} :
    (found.elim (.error missing) .ok : Except Problem α) = .error problem ↔
      problem = missing ∧ found = none := by
  cases found <;> simp [eq_comm]

/-- Wherever one goes down and up from a scope, a name has the value of the first pair for it among
those of the levels that are entered, innermost level first, also in the scopes of inference. A name
without such a pair is reported as undefined, with its span, and no other is. Going up leads back to
where one went down from, and nowhere from the top. A scope that is built inside another one is one
that is gone down to. -/
theorem goAll_flat (pairs : List (String × α)) (moves : List (Move α)) :
    let tables := moves.foldl go (ofPairs pairs none)
    let entered := moves.foldl Move.enter [pairs]
    (∀ span x, (∀ a, tables.get span x = .ok a ↔ entered.flatten.lookup x = some a) ∧
      ∀ problem, tables.get span x = .error problem ↔
        problem = .undefinedName x span ∧ ∀ pair ∈ entered.flatten, pair.1 ≠ x) ∧
    (∀ x, (moves.foldl Scope.go (.top pairs)).get? x = entered.flatten.lookup x) ∧
    (∀ inner, (tables.down inner).up = tables) ∧
    (entered.length = 1 → tables.up = tables) := by
  intro tables entered
  let scope := moves.foldl Scope.go (.top pairs)
  have inTables : scope.tables = tables := Scope.tables_goAll moves (.top pairs)
  have inLevels : scope.levels = entered := Scope.levels_goAll moves (.top pairs)
  have flat (x : String) : scope.get? x = entered.flatten.lookup x := by
    rw [Scope.get?_eq_flat, inLevels]
  refine ⟨fun span x => ?_, flat, fun _ => rfl, fun atTop => ?_⟩
  · have found : tables.get span x = _ := inTables ▸ scope.get_tables span x
    rw [flat] at found
    refine ⟨fun a => by rw [found, elim_ok], fun problem => ?_⟩
    rw [found, elim_error, List.lookup_eq_none_iff]
    simp only [bne_iff_ne, ne_comm]
  · rw [← inLevels] at atTop
    rw [← inTables, Scope.up_tables atTop]

/-- Names that come twice on a level, a name that is hidden for a while, and one way up too many. -/
theorem goAll_flat_hidden :
    let start : Tables Ty := ofPairs [("x", .int), ("x", .unit)] none
    let inside := [.up, .down [("y", .unit), ("y", .int)], .down [("x", .var 1)], .up].foldl go start
    let back := [.down [("y", .unit)], .up, .up].foldl go start
    inside.get .origin "x" = .ok .int ∧ inside.get .origin "y" = .ok .unit ∧
      inside.get (.ofInts 3 8) "ghost" = .error (.undefinedName "ghost" (.ofInts 3 8)) ∧
      back.get (.ofInts 0 1) "y" = .error (.undefinedName "y" (.ofInts 0 1)) ∧ back.up = back := by
  intro start inside back
  obtain ⟨found, -⟩ := goAll_flat [("x", Ty.int), ("x", .unit)]
    [.up, .down [("y", .unit), ("y", .int)], .down [("x", .var 1)], .up]
  obtain ⟨foundBack, -, -, stay⟩ := goAll_flat [("x", Ty.int), ("x", .unit)]
    [.down [("y", .unit)], .up, .up]
  exact ⟨((found _ _).1 _).mpr rfl, ((found _ _).1 _).mpr rfl,
    ((found _ _).2 _).mpr ⟨rfl, by decide⟩, ((foundBack _ _).2 _).mpr ⟨rfl, by decide⟩, stay rfl⟩

end Tables

end Monotype
