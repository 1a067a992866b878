/-!
Monotypes: types without quantifiers. A type is a name, a variable, a function, a tuple or one
labelled arm of a variant. Assignments of types to variables act on types by `Ty.inst`.
-/

namespace Monotype

/-- A monotype. Variables are told apart by an integer id. -/
inductive Ty where
  | name (value : String)
  | var (id : Int)
  | fn (param result : Ty)
  | tuple (elements : List Ty)
  | sum (label : String) (payload : Ty)
deriving Repr, Inhabited

namespace Ty

def int : Ty := .name "Int"

def unit : Ty := .name "Unit"

/-! ### Equality -/

mutual

def beq : Ty → Ty → Bool
  | .name a, .name b => a == b
  | .var a, .var b => a == b
  | .fn a b, .fn c d => beq a c && beq b d
  | .tuple as, .tuple bs => beqAll as bs
  | .sum k a, .sum l b => k == l && beq a b
  | _, _ => false

def beqAll : List Ty → List Ty → Bool
  | [], [] => true
  | a :: as, b :: bs => beq a b && beqAll as bs
  | _, _ => false

end

mutual

theorem beq_iff : ∀ a b : Ty, beq a b = true ↔ a = b
  | .name a, b => by cases b <;> simp [beq]
  | .var a, b => by cases b <;> simp [beq]
  | .fn p r, b => by cases b <;> simp [beq, beq_iff p, beq_iff r]
  | .tuple es, b => by cases b <;> simp [beq, beqAll_iff es]
  | .sum l p, b => by cases b <;> simp [beq, beq_iff p]

theorem beqAll_iff : ∀ as bs : List Ty, beqAll as bs = true ↔ as = bs
  | [], bs => by cases bs <;> simp [beqAll]
  | a :: as, bs => by cases bs <;> simp [beqAll, beq_iff a, beqAll_iff as]

end

instance : DecidableEq Ty := fun a b => decidable_of_iff (beq a b = true) (beq_iff a b)

/-! ### Variables and size -/

mutual

/-- The variables of a type, from left to right, with repetitions. -/
def vars : Ty → List Int
  | .name _ => []
  | .var v => [v]
  | .fn p r => p.vars ++ r.vars
  | .tuple es => varsAll es
  | .sum _ p => p.vars

def varsAll : List Ty → List Int
  | [] => []
  | t :: ts => t.vars ++ varsAll ts

end

def mentions (t : Ty) (v : Int) : Bool := t.vars.contains v

@[simp] theorem mentions_iff {t : Ty} {v : Int} : t.mentions v = true ↔ v ∈ t.vars := by
  simp [mentions]

mutual

def size : Ty → Nat
  | .name _ => 1
  | .var _ => 1
  | .fn p r => p.size + r.size + 1
  | .tuple es => sizeAll es + 1
  | .sum _ p => p.size + 1

def sizeAll : List Ty → Nat
  | [] => 0
  | t :: ts => t.size + sizeAll ts

end

theorem size_pos (t : Ty) : 0 < t.size := by
  cases t <;> simp [size]

/-! ### Assignments -/

mutual

def inst (θ : Int → Ty) : Ty → Ty
  | .name n => .name n
  | .var v => θ v
  | .fn p r => .fn (p.inst θ) (r.inst θ)
  | .tuple es => .tuple (instAll θ es)
  | .sum l p => .sum l (p.inst θ)

def instAll (θ : Int → Ty) : List Ty → List Ty
  | [] => []
  | t :: ts => t.inst θ :: instAll θ ts

end

theorem instAll_eq_map (θ : Int → Ty) (ts : List Ty) : instAll θ ts = ts.map (inst θ) := by
  induction ts with
  | nil => rfl
  | cons t ts ih => simp [instAll, ih]

/-- The assignment that puts `t` for `v` and leaves every other variable alone. -/
def assign (v : Int) (t : Ty) : Int → Ty := fun w => if w = v then t else .var w

mutual

theorem mem_vars_inst (θ : Int → Ty) (w : Int) :
    ∀ t : Ty, w ∈ (t.inst θ).vars ↔ ∃ v ∈ t.vars, w ∈ (θ v).vars
  | .name n => by simp [inst, vars]
  | .var v => by simp [inst, vars]
  | .fn p r => by
    simp only [inst, vars, List.mem_append, mem_vars_inst θ w p, mem_vars_inst θ w r]
    grind
  | .tuple es => by simp only [inst, vars, mem_varsAll_instAll θ w es]
  | .sum l p => by simp only [inst, vars, mem_vars_inst θ w p]

theorem mem_varsAll_instAll (θ : Int → Ty) (w : Int) :
    ∀ ts : List Ty, w ∈ varsAll (instAll θ ts) ↔ ∃ v ∈ varsAll ts, w ∈ (θ v).vars
  | [] => by simp [instAll, varsAll]
  | t :: ts => by
    simp only [instAll, varsAll, List.mem_append, mem_vars_inst θ w t, mem_varsAll_instAll θ w ts]
    grind

end

/-- Putting `t` for `v` leaves the other variables and brings in those of `t`. -/
theorem mem_vars_assign {v w : Int} {t u : Ty} :
    w ∈ (u.inst (assign v t)).vars ↔ (v ∈ u.vars ∧ w ∈ t.vars) ∨ (w ∈ u.vars ∧ w ≠ v) := by
  rw [mem_vars_inst]
  constructor
  · rintro ⟨x, hx, hw⟩
    by_cases h : x = v
    · subst h
      exact .inl ⟨hx, by simpa [assign] using hw⟩
    · have : w = x := by simpa [assign, h, vars] using hw
      exact .inr ⟨this ▸ hx, this ▸ h⟩
  · rintro (⟨hv, hw⟩ | ⟨hw, hne⟩)
    · exact ⟨v, hv, by simpa [assign] using hw⟩
    · exact ⟨w, hw, by simp [assign, hne, vars]⟩

/-! ### Debug text -/

mutual

/-- The text of a type in the log: variables are shown by id, as in `(@1 -> Int)`. -/
def debug : Ty → String
  | .name n => n
  | .var v => "@" ++ toString v
  | .fn p r => "(" ++ p.debug ++ " -> " ++ r.debug ++ ")"
  | .tuple es => "(" ++ ", ".intercalate (debugAll es) ++ ")"
  | .sum l p => l ++ "[" ++ p.debug ++ "]"

def debugAll : List Ty → List String
  | [] => []
  | t :: ts => t.debug :: debugAll ts

end

end Ty

end Monotype
