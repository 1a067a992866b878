/-!
JSON values.
-/

namespace Monotype

/-- A JSON value. Whole numbers are told apart from numbers with a fraction or an exponent, which
are kept as they were written. -/
inductive Json where
  | null
  | bool (value : Bool)
  | int (value : Int)
  | real (literal : String)
  | string (value : String)
  | array (elements : List Json)
  | object (fields : List (String × Json))
deriving Repr, Inhabited

namespace Json

def get? (key : String) : Json → Option Json
  | .object fields => fields.lookup key
  | _ => none

/-- Writes a field: over the old one if there is one, else after all others. -/
def put (key : String) (value : Json) : List (String × Json) → List (String × Json)
  | [] => [(key, value)]
  | (k, v) :: fields => if k = key then (key, value) :: fields else (k, v) :: put key value fields

theorem sizeOf_lt_of_lookup {key : String} {value : Json} {fields : List (String × Json)}
    (h : fields.lookup key = some value) : sizeOf value < sizeOf (Json.object fields) := by
  have : sizeOf value < sizeOf fields := by
    induction fields with
    | nil => simp at h
    | cons f fs ih =>
      obtain ⟨k, v⟩ := f
      rw [List.lookup_cons] at h
      split at h
      · simp only [Option.some.injEq] at h
        subst h
        simp
        omega
      · have := ih h
        simp
        omega
  simp
  omega

theorem sizeOf_lt_of_mem {value : Json} {elements : List Json} (h : value ∈ elements) :
    sizeOf value < sizeOf (Json.array elements) := by
  have := List.sizeOf_lt_of_mem h
  simp
  omega

end Json

end Monotype
