import Monotype.Proofs.Instance
import Monotype.Subst
import Mathlib.Logic.Relation
import Mathlib.Order.WellFounded

/-!
# Chains of replacements

A substitution is *ordered* when no replacement mentions its own variable or one that was replaced
earlier. Chains of replacements then run forward through the substitution, so they come to an end
(`Ordered.wellFounded`), and `Subst.resolve` reaches it: `Ordered.resolves_iff` says that replacing
variables for as long as possible leads to the resolved type and to no other.
-/

namespace Monotype.Subst

/-! ### Variables of a substitution -/

/-- The variables of the entries, replaced or mentioned. -/
def vars (s : Subst) : List Int := s.flatMap fun entry => entry.1 :: entry.2.vars

@[simp] theorem vars_nil : vars [] = [] := rfl

@[simp] theorem vars_cons (v : Int) (t : Ty) (s : Subst) :
    vars ((v, t) :: s) = v :: (t.vars ++ s.vars) := by
  simp [vars]

@[simp] theorem vars_append (s f : Subst) : (s ++ f).vars = s.vars ++ f.vars := by
  simp [vars]

@[simp] theorem keys_nil : keys [] = [] := rfl

@[simp] theorem keys_cons (v : Int) (t : Ty) (s : Subst) : keys ((v, t) :: s) = v :: s.keys := rfl

theorem keys_subset_vars (s : Subst) : s.keys ⊆ s.vars := by
  intro v mem
  obtain ⟨entry, member, rfl⟩ := List.mem_map.mp mem
  exact List.mem_flatMap.mpr ⟨entry, member, by simp⟩

theorem vars_subset_vars {s : Subst} {v : Int} {t : Ty} (member : (v, t) ∈ s) : t.vars ⊆ s.vars := by
  intro w mem
  exact List.mem_flatMap.mpr ⟨(v, t), member, by simp [mem]⟩

/-! ### Looking up -/

theorem get?_cons (v w : Int) (t : Ty) (s : Subst) :
    get? ((v, t) :: s) w = if w = v then some t else s.get? w := by
  by_cases h : w = v
  · simp [get?, h]
  · have different : (w == v) = false := beq_eq_false_iff_ne.mpr h
    simp [get?, List.lookup_cons, different, h]

theorem mem_of_get? {s : Subst} {v : Int} {t : Ty} (found : s.get? v = some t) : (v, t) ∈ s := by
  induction s with
  | nil => simp [get?] at found
  | cons entry s ih =>
    obtain ⟨w, u⟩ := entry
    rw [get?_cons] at found
    split at found
    · next same =>
      obtain rfl := Option.some.inj found
      simp [same]
    · exact List.mem_cons_of_mem _ (ih found)

theorem get?_eq_none {s : Subst} {v : Int} : s.get? v = none ↔ v ∉ s.keys := by
  induction s with
  | nil => simp [get?]
  | cons entry s ih =>
    obtain ⟨w, u⟩ := entry
    rw [get?_cons, keys_cons, List.mem_cons, not_or, ← ih]
    split
    · simp_all
    · simp_all

/-! ### Following a variable -/

theorem follow_succ (s : Subst) (depth : Nat) (v : Int) :
    s.follow (depth + 1) v = match s.get? v with
      | none => .var v
      | some t => t.inst (s.follow depth) := rfl

theorem follow_of_not_mem_keys {s : Subst} {v : Int} (absent : v ∉ s.keys) (depth : Nat) :
    s.follow depth v = .var v := by
  cases depth with
  | zero => rfl
  | succ depth => rw [follow_succ, get?_eq_none.mpr absent]

/-- Following a variable leads to itself or to variables of the substitution. -/
theorem mem_vars_follow {s : Subst} {depth : Nat} {v w : Int}
    (mem : w ∈ (s.follow depth v).vars) : w = v ∨ w ∈ s.vars := by
  induction depth generalizing v with
  | zero => exact .inl (by simpa [follow, Ty.vars] using mem)
  | succ depth ih =>
    rw [follow_succ] at mem
    cases found : s.get? v with
    | none => exact .inl (by simpa [found, Ty.vars] using mem)
    | some t =>
      simp only [found, Ty.mem_vars_inst] at mem
      obtain ⟨x, inside, reached⟩ := mem
      rcases ih reached with rfl | known
      · exact .inr (vars_subset_vars (mem_of_get? found) inside)
      · exact .inr known

/-- An entry for a variable that occurs nowhere else changes nothing for the others. -/
theorem follow_cons_of_ne {s : Subst} {v w : Int} (t : Ty) (absent : v ∉ s.vars) (other : w ≠ v)
    (depth : Nat) : follow ((v, t) :: s) depth w = s.follow depth w := by
  induction depth generalizing w with
  | zero => rfl
  | succ depth ih =>
    rw [follow_succ, follow_succ, get?_cons, if_neg other]
    cases found : s.get? w with
    | none => rfl
    | some u =>
      refine Ty.inst_congr fun x inside => ih ?_
      rintro rfl
      exact absent (vars_subset_vars (mem_of_get? found) inside)

theorem follow_cons {s : Subst} {v : Int} {t : Ty} (own : v ∉ t.vars) (later : v ∉ s.vars)
    (depth : Nat) (w : Int) :
    follow ((v, t) :: s) (depth + 1) w =
      if w = v then t.inst (s.follow depth) else s.follow (depth + 1) w := by
  split
  · next same =>
    rw [follow_succ, get?_cons, if_pos same]
    refine Ty.inst_congr fun x inside => follow_cons_of_ne t later ?_ depth
    rintro rfl
    exact own inside
  · next other => exact follow_cons_of_ne t later other _

theorem closure_of_not_mem_keys {s : Subst} {v : Int} (absent : v ∉ s.keys) :
    s.closure v = .var v := follow_of_not_mem_keys absent _

/-- A type without replaced variables is resolved. -/
theorem resolve_eq_self {s : Subst} {t : Ty} (free : ∀ v ∈ t.vars, v ∉ s.keys) : s.resolve t = t :=
  Ty.inst_eq_self fun v mem => closure_of_not_mem_keys (free v mem)

theorem mem_vars_resolve {s : Subst} {t : Ty} {w : Int} (mem : w ∈ (s.resolve t).vars) :
    w ∈ t.vars ∨ w ∈ s.vars := by
  obtain ⟨v, inside, reached⟩ := (Ty.mem_vars_inst _ _ _).mp mem
  rcases mem_vars_follow reached with rfl | known
  · exact .inl inside
  · exact .inr known

/-! ### Ordered substitutions -/

/-- No entry mentions its own variable, and no later entry mentions it either. -/
def Ordered : Subst → Prop
  | [] => True
  | (v, t) :: s => v ∉ t.vars ∧ v ∉ vars s ∧ Ordered s

theorem ordered_append {s f : Subst} (left : s.Ordered) (right : f.Ordered)
    (apart : ∀ v ∈ s.keys, v ∉ f.vars) : (s ++ f).Ordered := by
  induction s with
  | nil => exact right
  | cons entry s ih =>
    obtain ⟨v, t⟩ := entry
    obtain ⟨own, later, left⟩ := left
    refine ⟨own, ?_, ih left fun w mem => apart w (List.mem_cons_of_mem _ mem)⟩
    change v ∉ vars (s ++ f)
    rw [vars_append, List.mem_append, not_or]
    exact ⟨later, apart v List.mem_cons_self⟩

namespace Ordered

variable {s : Subst}

/-- Following further than the substitution is long changes nothing. -/
theorem follow_eq_closure (ordered : s.Ordered) {depth : Nat} (enough : s.length ≤ depth) (w : Int) :
    s.follow depth w = s.closure w := by
  induction s generalizing depth w with
  | nil => rw [follow_of_not_mem_keys (by simp), closure_of_not_mem_keys (by simp)]
  | cons entry s ih =>
    obtain ⟨v, t⟩ := entry
    obtain ⟨own, later, rest⟩ := ordered
    obtain ⟨n, rfl⟩ : ∃ n, depth = n + 1 :=
      ⟨depth - 1, by simp only [List.length_cons] at enough; omega⟩
    have long : s.length ≤ n := Nat.le_of_succ_le_succ enough
    change _ = follow ((v, t) :: s) (s.length + 1) w
    rw [follow_cons own later, follow_cons own later, funext (ih rest long),
      ih rest (Nat.le_succ_of_le long), funext (ih rest (Nat.le_refl _)), ih rest (Nat.le_succ _)]

/-- The first variable is followed through the rest, and the others never lead back to it. -/
theorem closure_cons {v : Int} {t : Ty} (ordered : Ordered ((v, t) :: s)) (w : Int) :
    closure ((v, t) :: s) w = if w = v then s.resolve t else s.closure w := by
  obtain ⟨own, later, rest⟩ := ordered
  change follow ((v, t) :: s) (s.length + 1) w = _
  rw [follow_cons own later, rest.follow_eq_closure (Nat.le_succ _)]
  rfl

/-- A followed variable has come to its end: nothing in it is replaced. -/
theorem not_mem_keys_of_mem_closure (ordered : s.Ordered) {v w : Int}
    (mem : w ∈ (s.closure v).vars) : w ∉ s.keys := by
  induction s generalizing v w with
  | nil => simp
  | cons entry s ih =>
    obtain ⟨x, t⟩ := entry
    rw [ordered.closure_cons] at mem
    obtain ⟨own, later, rest⟩ := ordered
    -- Whatever is reached without using the first entry is not its variable.
    have apart : ∀ y, y ≠ x → w ∈ (closure s y).vars → w ∉ keys ((x, t) :: s) := by
      intro y other reached
      rw [keys_cons, List.mem_cons, not_or]
      refine ⟨?_, ih rest reached⟩
      rintro rfl
      rcases mem_vars_follow reached with rfl | known
      · exact other rfl
      · exact later known
    split at mem
    · obtain ⟨y, inside, reached⟩ := (Ty.mem_vars_inst _ _ _).mp mem
      exact apart y (fun same => own (same ▸ inside)) reached
    · next other => exact apart v other mem

theorem not_mem_keys_of_mem_resolve (ordered : s.Ordered) {t : Ty} {w : Int}
    (mem : w ∈ (s.resolve t).vars) : w ∉ s.keys := by
  obtain ⟨v, -, reached⟩ := (Ty.mem_vars_inst _ _ _).mp mem
  exact ordered.not_mem_keys_of_mem_closure reached

theorem resolve_resolve (ordered : s.Ordered) (t : Ty) :
    s.resolve (s.resolve t) = s.resolve t :=
  resolve_eq_self fun _ mem => ordered.not_mem_keys_of_mem_resolve mem

theorem resolve_cons_of_not_mem {v : Int} {t u : Ty} (ordered : Ordered ((v, t) :: s))
    (absent : v ∉ u.vars) : resolve ((v, t) :: s) u = s.resolve u := by
  refine Ty.inst_congr fun x inside => ?_
  have other : x ≠ v := fun same => absent (same ▸ inside)
  rw [ordered.closure_cons, if_neg other]

/-- A replaced variable stands for what its replacement stands for. -/
theorem closure_of_mem (ordered : s.Ordered) {v : Int} {t : Ty} (member : (v, t) ∈ s) :
    s.closure v = s.resolve t := by
  induction s with
  | nil => simp at member
  | cons entry s ih =>
    obtain ⟨x, u⟩ := entry
    have ⟨own, later, rest⟩ := ordered
    rw [ordered.closure_cons]
    rcases List.mem_cons.mp member with same | inRest
    · obtain ⟨rfl, rfl⟩ := Prod.mk.inj same
      rw [if_pos rfl, ordered.resolve_cons_of_not_mem own]
    · have other : v ≠ x := by
        rintro rfl
        exact later (keys_subset_vars s (List.mem_map_of_mem inRest))
      rw [if_neg other, ih rest inRest,
        ordered.resolve_cons_of_not_mem fun inside => later (vars_subset_vars inRest inside)]

end Ordered

/-! ### Chains end -/

/-- The replacement of `v` mentions `w`. -/
def Leads (s : Subst) (v w : Int) : Prop := ∃ t, s.get? v = some t ∧ w ∈ t.vars

/-- No variable is reached from itself by going from replacements to their variables. -/
def Acyclic (s : Subst) : Prop := ∀ v, ¬ Relation.TransGen s.Leads v v

theorem leads_cons_iff {s : Subst} {v : Int} {t : Ty} {x y : Int} :
    Leads ((v, t) :: s) x y ↔ (x = v ∧ y ∈ t.vars) ∨ (x ≠ v ∧ s.Leads x y) := by
  simp only [Leads, get?_cons]
  by_cases same : x = v
  · simp [same]
  · simp [same]

theorem mem_vars_of_leads {s : Subst} {x y : Int} (leads : s.Leads x y) : y ∈ s.vars := by
  obtain ⟨t, found, inside⟩ := leads
  exact vars_subset_vars (mem_of_get? found) inside

namespace Ordered

variable {s : Subst}

/-- There is no endless chain of replacements. The first entry's variable is reached from nowhere,
so a chain that does not start there stays in the rest. -/
theorem wellFounded (ordered : s.Ordered) : WellFounded fun w v => s.Leads v w := by
  induction s with
  | nil => exact ⟨fun v => ⟨v, fun w leads => by simp [Leads, get?] at leads⟩⟩
  | cons entry s ih =>
    obtain ⟨x, t⟩ := entry
    obtain ⟨own, later, rest⟩ := ordered
    have others : ∀ v, v ≠ x → Acc (fun w v => Leads ((x, t) :: s) v w) v := by
      intro v
      induction (ih rest).apply v with
      | intro v _ ih =>
        intro other
        refine ⟨v, fun w leads => ?_⟩
        rcases leads_cons_iff.mp leads with ⟨same, -⟩ | ⟨-, leads⟩
        · exact absurd same other
        · exact ih w leads fun same => later (same ▸ mem_vars_of_leads leads)
    refine ⟨fun v => ?_⟩
    by_cases same : v = x
    · refine ⟨v, fun w leads => ?_⟩
      rcases leads_cons_iff.mp leads with ⟨-, inside⟩ | ⟨other, -⟩
      · exact others w fun same => own (same ▸ inside)
      · exact absurd same other
    · exact others v same

theorem acyclic (ordered : s.Ordered) : s.Acyclic := by
  intro v cycle
  have ends := ordered.wellFounded.transGen
  rw [← Relation.transGen_swap] at cycle
  exact ends.irrefl.irrefl v cycle

end Ordered

/-! ### Replacing for as long as possible -/

mutual

/-- `s.Resolves t u`: replacing variables in `t`, and in what they are replaced by, comes to an end
after finitely many replacements and leaves `u`. -/
inductive Resolves (s : Subst) : Ty → Ty → Prop where
  | name (n : String) : Resolves s (.name n) (.name n)
  | unknown {v : Int} : s.get? v = none → Resolves s (.var v) (.var v)
  | replaced {v : Int} {t u : Ty} : s.get? v = some t → Resolves s t u → Resolves s (.var v) u
  | fn {p r p' r' : Ty} : Resolves s p p' → Resolves s r r' → Resolves s (.fn p r) (.fn p' r')
  | tuple {es es' : List Ty} : ResolvesAll s es es' → Resolves s (.tuple es) (.tuple es')
  | sum {l : String} {p p' : Ty} : Resolves s p p' → Resolves s (.sum l p) (.sum l p')

inductive ResolvesAll (s : Subst) : List Ty → List Ty → Prop where
  | nil : ResolvesAll s [] []
  | cons {t t' : Ty} {ts ts' : List Ty} :
    Resolves s t t' → ResolvesAll s ts ts' → ResolvesAll s (t :: ts) (t' :: ts')

end

mutual

theorem resolves_of_vars {s : Subst} : ∀ {t : Ty},
    (∀ v ∈ t.vars, s.Resolves (.var v) (s.closure v)) → s.Resolves t (s.resolve t)
  | .name n, _ => .name n
  | .var v, ends => ends v (by simp [Ty.vars])
  | .fn p r, ends => by
    simp only [Ty.vars, List.mem_append] at ends
    exact .fn (resolves_of_vars fun v mem => ends v (.inl mem))
      (resolves_of_vars fun v mem => ends v (.inr mem))
  | .tuple _, ends => .tuple (resolvesAll_of_vars ends)
  | .sum _ p, ends => .sum (resolves_of_vars (t := p) ends)

theorem resolvesAll_of_vars {s : Subst} : ∀ {ts : List Ty},
    (∀ v ∈ Ty.varsAll ts, s.Resolves (.var v) (s.closure v)) →
      s.ResolvesAll ts (Ty.instAll s.closure ts)
  | [], _ => .nil
  | t :: ts, ends => by
    simp only [Ty.varsAll, List.mem_append] at ends
    exact .cons (resolves_of_vars fun v mem => ends v (.inl mem))
      (resolvesAll_of_vars fun v mem => ends v (.inr mem))

end

namespace Ordered

variable {s : Subst}

theorem resolves (ordered : s.Ordered) (t : Ty) : s.Resolves t (s.resolve t) := by
  -- The induction is along chains of replacements, which end.
  have ends : ∀ v, s.Resolves (.var v) (s.closure v) := by
    intro v
    induction v using ordered.wellFounded.induction with
    | _ v ih =>
      cases found : s.get? v with
      | none =>
        rw [closure_of_not_mem_keys (get?_eq_none.mp found)]
        exact .unknown found
      | some t =>
        rw [ordered.closure_of_mem (mem_of_get? found)]
        exact .replaced found (resolves_of_vars fun w inside => ih w ⟨t, found, inside⟩)
  exact resolves_of_vars fun v _ => ends v

mutual

theorem eq_resolve (ordered : s.Ordered) : ∀ {t u : Ty}, s.Resolves t u → u = s.resolve t
  | _, _, .name _ => rfl
  | _, _, .unknown absent => (closure_of_not_mem_keys (get?_eq_none.mp absent)).symm
  | _, _, .replaced found rest =>
    (eq_resolve ordered rest).trans (ordered.closure_of_mem (mem_of_get? found)).symm
  | _, _, .fn param result => by rw [eq_resolve ordered param, eq_resolve ordered result]; rfl
  | _, _, .tuple elements => by rw [eq_instAll ordered elements]; rfl
  | _, _, .sum payload => by rw [eq_resolve ordered payload]; rfl

theorem eq_instAll (ordered : s.Ordered) :
    ∀ {ts us : List Ty}, s.ResolvesAll ts us → us = Ty.instAll s.closure ts
  | _, _, .nil => rfl
  | _, _, .cons head tail => by rw [eq_resolve ordered head, eq_instAll ordered tail]; rfl

end

/-- Replacing for as long as possible leads to the resolved type and to no other. -/
theorem resolves_iff (ordered : s.Ordered) {t u : Ty} : s.Resolves t u ↔ u = s.resolve t :=
  ⟨ordered.eq_resolve, fun same => same ▸ ordered.resolves t⟩

end Ordered

end Monotype.Subst
