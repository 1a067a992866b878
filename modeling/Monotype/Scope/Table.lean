import Monotype.Infer.Session

/-!
Scopes that are kept in tables. The table of a level has one value for each name, the first that was
given for it. A name is looked for on one level after the other, from the innermost one outwards.
-/

namespace Monotype

/-- The names of one level with their values, in the order in which they came. -/
structure Table (α : Type) where
  entries : List (String × α) := []
  distinct : (entries.map (·.1)).Nodup := by simp
deriving Repr

namespace Table

variable {α : Type}

def get? (table : Table α) (x : String) : Option α := table.entries.lookup x

theorem distinct_concat {entries : List (String × α)} {pair : String × α}
    (distinct : (entries.map (·.1)).Nodup) (absent : pair.1 ∉ entries.map (·.1)) :
    ((entries ++ [pair]).map (·.1)).Nodup := by
  rw [List.map_append, List.nodup_append]
  refine ⟨distinct, by simp, fun x bound y same => ?_⟩
  obtain rfl : y = pair.1 := by simpa using same
  exact fun equal => absent (equal ▸ bound)

def insertIfNew (table : Table α) (pair : String × α) : Table α :=
  if bound : pair.1 ∈ table.entries.map (·.1) then table
  else ⟨table.entries ++ [pair], distinct_concat table.distinct bound⟩

def ofPairs (pairs : List (String × α)) : Table α := pairs.foldl insertIfNew {}

end Table

inductive Tables (α : Type) where
  | top (table : Table α)
  | inner (table : Table α) (outer : Tables α)
deriving Repr

namespace Tables

variable {α : Type}

def ofPairs (pairs : List (String × α)) : (outer : Option (Tables α)) → Tables α
  | none => .top (.ofPairs pairs)
  | some outer => .inner (.ofPairs pairs) outer

def down (tables : Tables α) (pairs : List (String × α)) : Tables α := ofPairs pairs (some tables)

/-- Leaves the innermost level. The top level cannot be left. -/
def up : Tables α → Tables α
  | .top table => .top table
  | .inner _ outer => outer

def get (span : Span) (x : String) : Tables α → Except Problem α
  | .top table =>
    match table.get? x with
    | some a => .ok a
    | none => .error (.undefinedName x span)
  | .inner table outer =>
    match table.get? x with
    | some a => .ok a
    | none => outer.get span x

end Tables

end Monotype
