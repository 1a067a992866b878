import Monotype.Event
import Monotype.Unify.Distinct

/-!
Solving equations between types. `Task.solveAll` works off an agenda of equations whose types are
fully resolved: an equation is dropped, taken apart, turned into a replacement, or found to clash. A
replacement is made in the rest of the agenda at once, so one variable fewer occurs there, and the
agenda comes to an end. `Subst.unify` resolves each equation when its turn comes, solves it, and
keeps the replacements found before a clash.
-/

namespace Monotype

structure Equation where
  left : Ty
  right : Ty
deriving Repr, DecidableEq, Inhabited

inductive Step where
  | done
  | bind (v : Int) (t : Ty)
  | split (parts : List Equation)
  | clash (clash : Clash)
deriving Repr, DecidableEq

namespace Equation

def vars (e : Equation) : List Int := e.left.vars ++ e.right.vars

def size (e : Equation) : Nat := e.left.size + e.right.size

def sizeAll : List Equation → Nat
  | [] => 0
  | e :: es => e.size + sizeAll es

def inst (θ : Int → Ty) (e : Equation) : Equation := ⟨e.left.inst θ, e.right.inst θ⟩

def resolve (s : Subst) (e : Equation) : Equation := ⟨s.resolve e.left, s.resolve e.right⟩

def bindVar (v : Int) (t : Ty) : Step :=
  if t.mentions v then .clash ⟨.circular, .var v, t⟩ else .bind v t

/-- Takes a first look at an equation. A variable on the left is bound before one on the right. -/
def step (e : Equation) : Step :=
  match e.left, e.right with
  | .var a, r => if r = .var a then .done else bindVar a r
  | l, .var b => bindVar b l
  | .name a, .name b => if a = b then .done else .clash ⟨.mismatch, e.left, e.right⟩
  | .fn p r, .fn q s => .split [⟨p, q⟩, ⟨r, s⟩]
  | .tuple as, .tuple bs =>
    if as.length = bs.length then .split (List.zipWith Equation.mk as bs)
    else .clash ⟨.arity, e.left, e.right⟩
  | .sum k p, .sum l q => if k = l then .split [⟨p, q⟩] else .clash ⟨.label, e.left, e.right⟩
  | _, _ => .clash ⟨.mismatch, e.left, e.right⟩

theorem bindVar_eq_bind {a v : Int} {t u : Ty} (h : bindVar a t = .bind v u) :
    v = a ∧ u = t ∧ a ∉ t.vars := by
  unfold bindVar at h
  split at h
  · simp at h
  · next hm =>
    simp only [Step.bind.injEq] at h
    exact ⟨h.1.symm, h.2.symm, by simpa using hm⟩

theorem bindVar_ne_split {a : Int} {t : Ty} {parts : List Equation} :
    bindVar a t ≠ .split parts := by
  unfold bindVar
  split <;> simp

/-- A replacement is for a variable of the equation, by a part of it without that variable. -/
theorem step_bind {e : Equation} {v : Int} {t : Ty} (h : e.step = .bind v t) :
    v ∈ e.vars ∧ v ∉ t.vars ∧ t.vars ⊆ e.vars := by
  obtain ⟨l, r⟩ := e
  unfold step at h
  simp only at h
  split at h
  · split at h
    · simp at h
    · obtain ⟨rfl, rfl, hn⟩ := bindVar_eq_bind h
      exact ⟨by simp [vars, Ty.vars], hn, by simp [vars]⟩
  · obtain ⟨rfl, rfl, hn⟩ := bindVar_eq_bind h
    exact ⟨by simp [vars, Ty.vars], hn, by simp [vars]⟩
  all_goals first | (split at h <;> simp at h) | simp at h

theorem vars_zipWith : ∀ {as bs : List Ty} {w : Int},
    w ∈ (List.zipWith Equation.mk as bs).flatMap vars → w ∈ Ty.varsAll as ++ Ty.varsAll bs
  | [], _, _, h => by simp at h
  | _ :: _, [], _, h => by simp at h
  | a :: as, b :: bs, w, h => by
    simp only [List.zipWith_cons_cons, List.flatMap_cons, List.mem_append] at h
    rcases h with h | h
    · simp only [vars, List.mem_append] at h
      grind [Ty.varsAll]
    · have := vars_zipWith h
      grind [Ty.varsAll]

theorem size_zipWith : ∀ as bs : List Ty,
    sizeAll (List.zipWith Equation.mk as bs) ≤ Ty.sizeAll as + Ty.sizeAll bs
  | [], _ => by simp [sizeAll]
  | _ :: _, [] => by simp [sizeAll]
  | a :: as, b :: bs => by
    have := size_zipWith as bs
    simp only [List.zipWith_cons_cons, sizeAll, size, Ty.sizeAll]
    omega

/-- The parts of an equation have no variables of their own and are smaller taken together. -/
theorem step_split {e : Equation} {parts : List Equation} (h : e.step = .split parts) :
    parts.flatMap vars ⊆ e.vars ∧ sizeAll parts + 2 ≤ e.size := by
  obtain ⟨l, r⟩ := e
  unfold step at h
  simp only at h
  split at h
  · split at h
    · simp at h
    · exact absurd h bindVar_ne_split
  · exact absurd h bindVar_ne_split
  · split at h <;> simp at h
  · simp only [Step.split.injEq] at h
    subst h
    constructor
    · intro w hw
      simp only [List.flatMap_cons, List.flatMap_nil, vars, Ty.vars] at hw ⊢
      grind
    · simp only [sizeAll, size, Ty.size]
      omega
  · split at h
    · simp only [Step.split.injEq] at h
      subst h
      refine ⟨fun w hw => by simpa [vars, Ty.vars] using vars_zipWith hw, ?_⟩
      rename_i as bs _
      have := size_zipWith as bs
      simp only [size, Ty.size] at this ⊢
      omega
    · simp at h
  · split at h
    · simp only [Step.split.injEq] at h
      subst h
      constructor
      · intro w hw
        simpa [vars, Ty.vars] using hw
      · simp only [sizeAll, size, Ty.size]
        omega
    · simp at h
  · simp at h

end Equation

/-! ### The agenda -/

/-- An entry of the agenda. `asked` is the equation as it was put, `now` has every replacement that
was found since. -/
inductive Task where
  | solve (asked now : Equation)
  | close (asked : Equation)
deriving Repr, DecidableEq

namespace Task

def ask (e : Equation) : Task := .solve e e

def assign (v : Int) (t : Ty) : Task → Task
  | .solve asked now => .solve asked (now.inst (Ty.assign v t))
  | .close asked => .close asked

def assignAll (v : Int) (t : Ty) (agenda : List Task) : List Task := agenda.map (assign v t)

def vars : Task → List Int
  | .solve _ now => now.vars
  | .close _ => []

/-- The work in an entry. An equation weighs more than its parts and its own closing together. -/
def weight : Task → Nat
  | .solve _ now => 2 * now.size
  | .close _ => 1

def total : List Task → Nat
  | [] => 0
  | task :: agenda => task.weight + total agenda

theorem total_append (a b : List Task) : total (a ++ b) = total a + total b := by
  induction a with
  | nil => simp [total]
  | cons task a ih =>
    simp only [List.cons_append, total, ih]
    omega

theorem total_map_ask (parts : List Equation) :
    total (parts.map ask) = 2 * Equation.sizeAll parts := by
  induction parts with
  | nil => rfl
  | cons e es ih =>
    simp only [List.map_cons, total, ih, ask, weight, Equation.sizeAll]
    omega

theorem vars_map_ask (parts : List Equation) :
    (parts.map ask).flatMap vars = parts.flatMap Equation.vars := by
  simp [List.flatMap_map, ask, vars]

theorem mem_vars_assignAll {v w : Int} {t : Ty} {agenda : List Task}
    (h : w ∈ (assignAll v t agenda).flatMap vars) :
    w ∈ t.vars ∨ (w ∈ agenda.flatMap vars ∧ w ≠ v) := by
  simp only [assignAll, List.flatMap_map, List.mem_flatMap] at h ⊢
  obtain ⟨task, hmem, hw⟩ := h
  cases task with
  | solve asked now =>
    simp only [assign, vars, Equation.vars, Equation.inst, List.mem_append, Ty.mem_vars_assign] at hw
    by_cases ht : w ∈ t.vars
    · exact .inl ht
    · exact .inr ⟨⟨.solve asked now, hmem, by simp only [vars, Equation.vars]; grind⟩, by grind⟩
  | close asked => simp [assign, vars] at hw

end Task

/-- What came of an agenda: the replacements found, in order, the log, and the clash that ended it
early, if one did. -/
structure Solution where
  found : Subst := []
  log : List Event := []
  clash : Option Clash := none
deriving Repr, DecidableEq, Inhabited

namespace Solution

def bind (v : Int) (t : Ty) (s : Solution) : Solution := { s with found := (v, t) :: s.found }

def tell (e : Event) (s : Solution) : Solution := { s with log := e :: s.log }

end Solution

/-- Works off an agenda from the front. The parts of an equation come before what stood behind it,
and an equation is closed when its parts are solved. -/
def Task.solveAll : List Task → Solution
  | [] => {}
  | .close e :: rest => (solveAll rest).tell (.solved e.left e.right)
  | .solve asked now :: rest =>
    match _h : now.step with
    | .done => solveAll (.close asked :: rest)
    | .bind v t => (solveAll (.close asked :: assignAll v t rest)).bind v t
    | .split parts => solveAll (parts.map ask ++ .close asked :: rest)
    | .clash c => { log := [.clashed c], clash := some c }
termination_by agenda => (distinct (agenda.flatMap vars), total agenda)
decreasing_by
  · simp only [List.flatMap_cons, vars, List.nil_append, total, weight]
    exact Prod.Lex.right _ (by omega)
  · have hsub : rest.flatMap vars ⊆ (Task.solve asked now :: rest).flatMap vars := by
      simp
    have := Nat.lt_or_eq_of_le (distinct_le_of_subset hsub)
    have hpos : 0 < now.size := Nat.add_pos_left (Ty.size_pos _) _
    simp only [List.flatMap_cons, vars, List.nil_append, total, weight] at this ⊢
    rcases this with hlt | heq
    · exact Prod.Lex.left _ _ hlt
    · rw [heq]
      exact Prod.Lex.right _ (by omega)
  · obtain ⟨hv, hn, hsub⟩ := Equation.step_bind _h
    apply Prod.Lex.left
    simp only [List.flatMap_cons, vars, List.nil_append]
    apply distinct_lt_of_subset (a := v)
    · intro w hw
      rcases mem_vars_assignAll hw with hw | hw
      · simp [hsub hw]
      · simp [hw.1]
    · simp [hv]
    · intro hw
      rcases mem_vars_assignAll hw with hw | hw
      · exact hn hw
      · exact hw.2 rfl
  · obtain ⟨hsub, hsize⟩ := Equation.step_split _h
    have hle : distinct ((parts.map ask ++ Task.close asked :: rest).flatMap vars)
        ≤ distinct ((Task.solve asked now :: rest).flatMap vars) := by
      apply distinct_le_of_subset
      intro w hw
      simp only [List.flatMap_append, List.flatMap_cons, vars_map_ask, vars, List.mem_append] at hw ⊢
      rcases hw with hw | hw | hw
      · exact .inl (hsub hw)
      · simp at hw
      · exact .inr hw
    rcases Nat.lt_or_eq_of_le hle with hlt | heq
    · exact Prod.Lex.left _ _ hlt
    · rw [heq]
      apply Prod.Lex.right
      simp only [total_append, total_map_ask, total, weight]
      omega

/-! ### Extending a substitution -/

structure Unification where
  subst : Subst
  log : List Event := []
  clash : Option Clash := none
deriving Repr, DecidableEq, Inhabited

/-- Solves equations one after the other. Each is resolved by what is known when its turn comes, and
what was found before a clash stays. -/
def Subst.unify (s : Subst) : List Equation → Unification
  | [] => { subst := s }
  | e :: es =>
    let first := Task.solveAll [.solve e (e.resolve s)]
    match first.clash with
    | some c => { subst := s ++ first.found, log := first.log, clash := some c }
    | none =>
      let rest := unify (s ++ first.found) es
      { rest with log := first.log ++ rest.log }

end Monotype
