import Monotype.Proofs.Soundness
import Monotype.Proofs.Supply

/-!
# Inferred types are the most general ones

Whenever an expression has a type, inference finds one, and the type that it has is an instance of
the one that is found. The proof follows a run with an assignment that solves all that is known so
far. Where the run gives out an id, the derivation says which type the assignment has to give it
(`Expr.infer_complete`). Main theorem: `Expr.inferType_complete`.
-/

namespace Monotype

open Infer

/-! ### Sessions with a solution -/

/-- An assignment that solves what is known, in a session where every id that the scope or the
replacements mention was given out. -/
structure Session.Fits (scope : Scope Ty) (s : Session) (θ : Int → Ty) : Prop where
  below : ∀ v ∈ scope.bindings.vars, v < s.next
  settled : s.Settled
  solved : s.subst.SolvedBy θ

namespace Session.Fits

variable {scope : Scope Ty} {s s' : Session} {θ η : Int → Ty}

theorem bindings (fits : s.Fits scope θ) (same : SameBelow s.next η θ) :
    scope.bindings.inst η = scope.bindings.inst θ :=
  same.bindings fits.below

theorem change (fits : s.Fits scope θ) (same : SameBelow s.next η θ) : s.subst.SolvedBy η :=
  fits.solved.congr fun v known => same v (fits.settled v known)

theorem infer (fits : s.Fits scope θ) {e : Expr} {t : Ty} (run : e.infer scope s = .ok t s')
    (solved : s'.subst.SolvedBy η) : (∀ v ∈ t.vars, v < s'.next) ∧ s'.Fits scope η := by
  have ⟨inside, settled⟩ := Expr.infer_settled run fits.below fits.settled
  have le := (Expr.infer_extends run).next_le
  exact ⟨inside, fun v mem => Int.lt_of_lt_of_le (fits.below v mem) le, settled, solved⟩

theorem unify (fits : s.Fits scope θ) (span : Option Span) (es : List Equation)
    (below : ∀ e ∈ es, ∀ v ∈ e.vars, v < s.next) (equal : ∀ e ∈ es, e.Holds θ) :
    ∃ s', Infer.unify span es s = .ok () s' ∧ s'.Fits scope θ := by
  obtain ⟨s', run, solved⟩ := unify_complete span es fits.solved equal
  have within := (fits.settled.within (Int.le_refl _)).unify below run
  have same := unify_next run
  refine ⟨s', run, ?_, ?_, solved⟩
  · rw [same]
    exact fits.below
  · unfold Settled
    rw [same]
    exact within.known

theorem up {Δ : Bindings} (fits : s.Fits (scope.down Δ) θ) : s.Fits scope θ := by
  refine ⟨fun v mem => fits.below v ?_, fits.settled, fits.solved⟩
  rw [Scope.bindings_down, Bindings.vars, List.flatMap_append]
  exact List.mem_append_right _ mem

/-- A pattern is given the type that it has in a derivation by choosing the ids given out for it. -/
theorem pattern (fits : s.Fits scope θ) {p : Pattern} {τ : Ty} {Ε : Bindings} (binds : p.Binds τ Ε) :
    ∃ t Δ s' η, p.infer s = .ok (t, Δ) s' ∧ t.inst η = τ ∧ SameBelow s.next η θ ∧
      (∀ v ∈ t.vars, v < s'.next) ∧ s'.Fits (scope.down Δ) η ∧
      (scope.down Δ).bindings.inst η = Ε ++ scope.bindings.inst θ := by
  obtain ⟨t, Δ, s', η, run, typed, bound, same⟩ :=
    p.inferFrom_complete s θ binds.1 binds.2 (fun _ _ => List.not_mem_nil)
  have le := (p.infer_extending.of_ok run).next_le
  have ⟨inside, boundInside, within⟩ := (fits.settled.within le).pattern run (Int.le_refl _)
  have below : ∀ v ∈ scope.bindings.vars, v < s'.next :=
    fun v mem => Int.lt_of_lt_of_le (fits.below v mem) le
  have solved : s'.subst.SolvedBy η := by
    rw [(p.inferFrom_sound run).1.subst_eq]
    exact fits.change same
  refine ⟨t, Δ, s', η, run, typed, same, inside,
    ⟨Scope.allowed_down below boundInside, within.known, solved⟩, ?_⟩
  rw [Scope.bindings_down, Bindings.inst_append, bound, fits.bindings same]

end Session.Fits

/-! ### Runs along a derivation -/

mutual

theorem Expr.infer_complete : ∀ (e : Expr) {scope : Scope Ty} {s : Session} {θ : Int → Ty} {σ : Ty},
    HasType (scope.bindings.inst θ) e σ → s.Fits scope θ →
    ∃ t s' η, e.infer scope s = .ok t s' ∧ t.inst η = σ ∧ s'.subst.SolvedBy η ∧ SameBelow s.next η θ
  | .unit span, scope, s, θ, _, .unit _, fits => ⟨.unit, s, θ, rfl, rfl, fits.solved, .refl _ θ⟩
  | .int span n, scope, s, θ, _, .int _ _, fits => ⟨.int, s, θ, rfl, rfl, fits.solved, .refl _ θ⟩
  | .name span x, scope, s, θ, σ, .name bound, fits => by
    rw [Bindings.lookup_inst, ← Scope.get?_eq_lookup] at bound
    obtain ⟨u, found, rfl⟩ := Option.map_eq_some_iff.mp bound
    refine ⟨s.subst.resolve u, s, θ, ?_, fits.solved.inst_resolve u, fits.solved, .refl _ θ⟩
    exact Expr.infer_name_ok.mpr ⟨u, found, rfl, rfl⟩
  | .tuple span es, scope, s, θ, _, .tuple typed, fits => by
    obtain ⟨ts, s', η, run, rfl, solved, same⟩ := inferAll_complete es typed fits
    refine ⟨s'.subst.resolve (.tuple ts), s', η, ?_, solved.inst_resolve _, solved, same⟩
    simp only [Expr.infer, bind_ok, resolve_ok]
    exact ⟨ts, s', run, rfl, rfl⟩
  | .binop span op l r, scope, s, θ, _, .binop left right, fits => by
    obtain ⟨lt, s₁, η₁, leftRun, leftTyped, solved₁, same₁⟩ := infer_complete l left fits
    have ⟨leftBelow, fits₁⟩ := fits.infer leftRun solved₁
    rw [← fits.bindings same₁] at right
    obtain ⟨rt, s₂, η₂, rightRun, rightTyped, solved₂, same₂⟩ := infer_complete r right fits₁
    rw [← same₂.inst leftBelow] at leftTyped
    obtain ⟨s₃, unified, solved₃⟩ := unify_complete span [⟨lt, .int⟩, ⟨rt, .int⟩] solved₂ (by
      simp only [List.forall_mem_cons]
      exact ⟨leftTyped, rightTyped, by simp⟩)
    refine ⟨.int, s₃, η₂, ?_, rfl, solved₃, same₂.trans same₁ (infer_extends leftRun).next_le⟩
    simp only [Expr.infer, bind_ok, pure_ok]
    exact ⟨lt, s₁, leftRun, rt, s₂, rightRun, (), s₃, unified, trivial, rfl⟩
  | .apply span f a, scope, s, θ, σ, .apply func arg, fits => by
    obtain ⟨argTy, s₁, η₁, argRun, rfl, solved₁, same₁⟩ := infer_complete a arg fits
    have ⟨argBelow, fits₁⟩ := fits.infer argRun solved₁
    rw [← fits.bindings same₁] at func
    obtain ⟨funcTy, s₂, η₂, funcRun, funcTyped, solved₂, same₂⟩ := infer_complete f func fits₁
    have ⟨funcBelow, fits₂⟩ := fits₁.infer funcRun solved₂
    have le₁ := (infer_extends argRun).next_le
    have le₂ := (infer_extends funcRun).next_le
    -- The id that is given out for the result stands for the type in the derivation.
    have same₃ := SameBelow.update s₂.next η₂ σ
    have chosen : Function.update η₂ s₂.next σ s₂.next = σ := Function.update_self ..
    have same := same₃.trans same₂ le₂
    obtain ⟨s₃, unified, solved₃⟩ := unify_complete (s := { s₂ with next := s₂.next + 1 }) span
      [⟨.fn argTy (.var s₂.next), funcTy⟩] (fits₂.change same₃) (by
        rw [List.forall_mem_singleton, Equation.Holds, Ty.inst, Ty.inst, chosen, same.inst argBelow,
          same₃.inst funcBelow, funcTyped])
    refine ⟨s₃.subst.resolve (.var s₂.next), s₃, _, ?_, ?_, solved₃, same.trans same₁ le₁⟩
    · simp only [Expr.infer, bind_ok, fresh_ok, resolve_ok]
      exact ⟨argTy, s₁, argRun, funcTy, s₂, funcRun, _, _, ⟨rfl, rfl⟩, (), s₃, unified, rfl, rfl⟩
    · rw [solved₃.inst_resolve, Ty.inst, chosen]
  | .constructor span label a, scope, s, θ, _, .constructor typed, fits => by
    obtain ⟨t, s', η, run, rfl, solved, same⟩ := infer_complete a typed fits
    refine ⟨s'.subst.resolve (.sum label t), s', η, ?_, solved.inst_resolve _, solved, same⟩
    simp only [Expr.infer, bind_ok, resolve_ok]
    exact ⟨t, s', run, rfl, rfl⟩
  | .function span p b, scope, s, θ, _, .function binds body, fits => by
    obtain ⟨paramTy, Δ, s₁, η₁, paramRun, rfl, same₁, paramBelow, fits₁, inside⟩ := fits.pattern binds
    rw [← inside] at body
    obtain ⟨bodyTy, s₂, η₂, bodyRun, rfl, solved₂, same₂⟩ := infer_complete b body fits₁
    have le := (p.infer_extending.of_ok paramRun).next_le
    refine ⟨s₂.subst.resolve (.fn paramTy bodyTy), s₂, η₂, ?_, ?_, solved₂, same₂.trans same₁ le⟩
    · simp only [Expr.infer, bind_ok, resolve_ok, Prod.exists]
      exact ⟨paramTy, Δ, s₁, paramRun, bodyTy, s₂, bodyRun, rfl, rfl⟩
    · rw [solved₂.inst_resolve, Ty.inst, same₂.inst paramBelow]
  | .cond span p c a, scope, s, θ, σ, .cond pred cons alt, fits => by
    obtain ⟨predTy, s₁, η₁, predRun, predTyped, solved₁, same₁⟩ := infer_complete p pred fits
    have ⟨predBelow, fits₁⟩ := fits.infer predRun solved₁
    rw [← fits.bindings same₁] at cons alt
    obtain ⟨consTy, s₂, η₂, consRun, consTyped, solved₂, same₂⟩ := infer_complete c cons fits₁
    have ⟨consBelow, fits₂⟩ := fits₁.infer consRun solved₂
    rw [← fits₁.bindings same₂] at alt
    obtain ⟨altTy, s₃, η₃, altRun, altTyped, solved₃, same₃⟩ := infer_complete a alt fits₂
    have le₁ := (infer_extends predRun).next_le
    have same := same₃.trans same₂ (infer_extends consRun).next_le
    rw [← same.inst predBelow] at predTyped
    rw [← same₃.inst consBelow] at consTyped
    obtain ⟨s₄, unified, solved₄⟩ := unify_complete span [⟨predTy, .int⟩, ⟨consTy, altTy⟩] solved₃ (by
      simp only [List.forall_mem_cons]
      exact ⟨predTyped, consTyped.trans altTyped.symm, by simp⟩)
    refine ⟨s₄.subst.resolve consTy, s₄, η₃, ?_, ?_, solved₄, same.trans same₁ le₁⟩
    · simp only [Expr.infer, bind_ok, resolve_ok]
      exact ⟨predTy, s₁, predRun, consTy, s₂, consRun, altTy, s₃, altRun, (), s₄, unified, rfl, rfl⟩
    · rw [solved₄.inst_resolve, consTyped]
  | .letIn span p v b, scope, s, θ, σ, .letIn binds value body, fits => by
    obtain ⟨targetTy, Δ, s₁, η₁, targetRun, targetTyped, same₁, targetBelow, fits₁, inside⟩ :=
      fits.pattern binds
    rw [← inside] at value body
    obtain ⟨valueTy, s₂, η₂, valueRun, valueTyped, solved₂, same₂⟩ := infer_complete v value fits₁
    have ⟨valueBelow, fits₂⟩ := fits₁.infer valueRun solved₂
    have le₁ := (p.infer_extending.of_ok targetRun).next_le
    have le₂ := (infer_extends valueRun).next_le
    rw [← same₂.inst targetBelow] at targetTyped
    obtain ⟨s₃, unified, fits₃⟩ := fits₂.unify span [⟨targetTy, valueTy⟩]
      (by
        rw [List.forall_mem_singleton, Equation.forall_mem_vars]
        exact ⟨fun v mem => Int.lt_of_lt_of_le (targetBelow v mem) le₂, valueBelow⟩)
      (by
        rw [List.forall_mem_singleton]
        exact targetTyped.trans valueTyped.symm)
    rw [← fits₁.bindings same₂] at body
    obtain ⟨bodyTy, s₄, η₄, bodyRun, rfl, solved₄, same₄⟩ := infer_complete b body fits₃
    rw [unify_next unified] at same₄
    refine ⟨s₄.subst.resolve bodyTy, s₄, η₄, ?_, solved₄.inst_resolve _, solved₄,
      (same₄.trans same₂ le₂).trans same₁ le₁⟩
    simp only [Expr.infer, bind_ok, resolve_ok, Prod.exists]
    exact ⟨targetTy, Δ, s₁, targetRun, valueTy, s₂, valueRun, (), s₃, unified, bodyTy, s₄, bodyRun,
      rfl, rfl⟩
  | .matchOn span e [], scope, s, θ, σ, .matchOn _ nonempty _, fits => (nonempty rfl).elim
  | .matchOn span e ((p, b) :: rest), scope, s, θ, σ, .matchOn subject _ (.cons binds body others),
    fits => by
    obtain ⟨subjectTy, s₁, η₁, subjectRun, subjectTyped, solved₁, same₁⟩ :=
      infer_complete e subject fits
    have ⟨subjectBelow, fits₁⟩ := fits.infer subjectRun solved₁
    obtain ⟨patTy, Δ, s₂, η₂, patRun, patTyped, same₂, patBelow, fits₂, inside⟩ := fits₁.pattern binds
    rw [← fits.bindings same₁, ← inside] at body
    obtain ⟨bodyTy, s₃, η₃, bodyRun, bodyTyped, solved₃, same₃⟩ := infer_complete b body fits₂
    have ⟨bodyBelow, fits₃⟩ := fits₂.infer bodyRun solved₃
    have le₁ := (infer_extends subjectRun).next_le
    have le₂ := (p.infer_extending.of_ok patRun).next_le
    have le₃ := (infer_extends bodyRun).next_le
    have same := same₃.trans same₂ le₂
    rw [← fits.bindings same₁, ← fits₁.bindings same] at others
    obtain ⟨types, s₄, η₄, restRun, alike, solved₄, same₄⟩ :=
      inferCases_complete rest others fits₃.up
    rw [← (same₄.trans same (le₂.trans le₃)).inst subjectBelow] at subjectTyped
    rw [← (same₄.trans same₃ le₃).inst patBelow] at patTyped
    rw [← same₄.inst bodyBelow] at bodyTyped
    obtain ⟨s₅, unified, solved₅⟩ := unify_complete span
      (caseEquations (patTy, bodyTy) types subjectTy) solved₄ (by
        rw [holds_caseEquations, patTyped, bodyTyped]
        exact ⟨alike, subjectTyped⟩)
    refine ⟨s₅.subst.resolve bodyTy, s₅, η₄, ?_, ?_, solved₅,
      (same₄.trans same (le₂.trans le₃)).trans same₁ le₁⟩
    · simp only [Expr.infer, bind_ok, resolve_ok, Prod.exists]
      exact ⟨subjectTy, s₁, subjectRun, patTy, Δ, s₂, patRun, bodyTy, s₃, bodyRun, types, s₄, restRun,
        (), s₅, unified, rfl, rfl⟩
    · rw [solved₅.inst_resolve, bodyTyped]

theorem Expr.inferAll_complete : ∀ (es : List Expr) {scope : Scope Ty} {s : Session} {θ : Int → Ty}
    {σs : List Ty}, HaveTypes (scope.bindings.inst θ) es σs → s.Fits scope θ →
    ∃ ts s' η, Expr.inferAll scope es s = .ok ts s' ∧ Ty.instAll η ts = σs ∧ s'.subst.SolvedBy η ∧
      SameBelow s.next η θ
  | [], scope, s, θ, _, .nil, fits => ⟨[], s, θ, rfl, rfl, fits.solved, .refl _ θ⟩
  | e :: es, scope, s, θ, _, .cons head tail, fits => by
    obtain ⟨t, s₁, η₁, headRun, rfl, solved₁, same₁⟩ := infer_complete e head fits
    have ⟨below, fits₁⟩ := fits.infer headRun solved₁
    rw [← fits.bindings same₁] at tail
    obtain ⟨ts, s₂, η₂, tailRun, rfl, solved₂, same₂⟩ := inferAll_complete es tail fits₁
    have le := (infer_extends headRun).next_le
    refine ⟨t :: ts, s₂, η₂, ?_, ?_, solved₂, same₂.trans same₁ le⟩
    · simp only [Expr.inferAll, bind_ok, pure_ok]
      exact ⟨t, s₁, headRun, ts, s₂, tailRun, rfl, rfl⟩
    · rw [Ty.instAll, same₂.inst below]

theorem Expr.inferCases_complete : ∀ (cases : List (Pattern × Expr)) {scope : Scope Ty} {s : Session}
    {θ : Int → Ty} {τ σ : Ty}, CasesHaveType (scope.bindings.inst θ) cases τ σ → s.Fits scope θ →
    ∃ types s' η, Expr.inferCases scope cases s = .ok types s' ∧
      (∀ case ∈ types, case.1.inst η = τ ∧ case.2.inst η = σ) ∧ s'.subst.SolvedBy η ∧
      SameBelow s.next η θ
  | [], scope, s, θ, _, _, .nil, fits => ⟨[], s, θ, rfl, by simp, fits.solved, .refl _ θ⟩
  | (p, b) :: cases, scope, s, θ, τ, σ, .cons binds body rest, fits => by
    obtain ⟨patTy, Δ, s₁, η₁, patRun, patTyped, same₁, patBelow, fits₁, inside⟩ := fits.pattern binds
    rw [← inside] at body
    obtain ⟨bodyTy, s₂, η₂, bodyRun, bodyTyped, solved₂, same₂⟩ := infer_complete b body fits₁
    have ⟨bodyBelow, fits₂⟩ := fits₁.infer bodyRun solved₂
    have le₁ := (p.infer_extending.of_ok patRun).next_le
    have le₂ := (infer_extends bodyRun).next_le
    have same := same₂.trans same₁ le₁
    rw [← fits.bindings same] at rest
    obtain ⟨types, s₃, η₃, restRun, alike, solved₃, same₃⟩ :=
      inferCases_complete cases rest fits₂.up
    rw [← (same₃.trans same₂ le₂).inst patBelow] at patTyped
    rw [← same₃.inst bodyBelow] at bodyTyped
    refine ⟨(patTy, bodyTy) :: types, s₃, η₃, ?_, ?_, solved₃, same₃.trans same (le₁.trans le₂)⟩
    · simp only [Expr.inferCases, bind_ok, pure_ok, Prod.exists]
      exact ⟨patTy, Δ, s₁, patRun, bodyTy, s₂, bodyRun, types, s₃, restRun, rfl, rfl⟩
    · exact List.forall_mem_cons.mpr ⟨⟨patTyped, bodyTyped⟩, alike⟩

end

/-! ### Whole expressions -/

theorem Session.fits_start {env : Bindings} {first : Int} (below : ∀ v ∈ env.vars, v < first)
    (θ : Int → Ty) : Session.Fits (.top env) { next := first } θ :=
  ⟨below, by simp [Settled], Subst.solvedBy_nil⟩

/-- If some instance of the environment gives an expression a type, then inference succeeds, and the
type comes from the inferred one by choosing the variables that are not those of the environment. So
where inference fails, the expression has no type under any instance of the environment. -/
theorem Expr.inferType_complete (e : Expr) {env : Bindings} {first : Int}
    (below : ∀ v ∈ env.vars, v < first) :
    (∀ θ σ, HasType (env.inst θ) e σ → ∃ t final η,
      e.inferType env { next := first } = .ok t final ∧ t.inst η = σ ∧ ∀ v < first, η v = θ v) ∧
    (∀ problem final, e.inferType env { next := first } = .error problem final →
      ∀ θ σ, ¬ HasType (env.inst θ) e σ) := by
  have found : ∀ θ σ, HasType (env.inst θ) e σ → ∃ t final η,
      e.inferType env { next := first } = .ok t final ∧ t.inst η = σ ∧ ∀ v < first, η v = θ v := by
    intro θ σ typed
    change HasType ((Scope.top env).bindings.inst θ) e σ at typed
    obtain ⟨t, s₁, η, run, rfl, -, same⟩ := Expr.infer_complete e typed (Session.fits_start below θ)
    exact ⟨t, _, η, Expr.inferType_ok.mpr ⟨s₁, run, rfl⟩, rfl, same⟩
  refine ⟨found, fun problem final failed θ σ typed => ?_⟩
  obtain ⟨t, _, _, run, -⟩ := found θ σ typed
  rw [failed] at run
  cases run

/-- A recursive function that applies a name of unknown type to its own result, and a function that
applies its parameter to itself. -/
theorem Expr.inferType_complete_recursion :
    let e : Expr := .letIn .origin (.name .origin "f")
      (.function .origin (.name .origin "x") (.apply .origin (.name .origin "y")
        (.apply .origin (.name .origin "f") (.name .origin "x"))))
      (.name .origin "f")
    let t : Ty := .fn (.var 2) (.var 4)
    (∃ final η, e.inferType [("y", .var 0)] { next := 1 } = .ok t final ∧
      t.inst η = .fn .unit .int ∧ ∀ v < 1, η v = .fn .int .int) ∧
    ∀ σ, ¬ HasType [] (.function .origin (.name .origin "x")
      (.apply .origin (.name .origin "x") (.name .origin "x"))) σ := by
  intro e t
  constructor
  · have typed : HasType (Bindings.inst (fun _ => .fn .int .int) [("y", .var 0)]) e
        (.fn .unit .int) := by
      refine .letIn (t := .fn .unit .int) ⟨.name _ _ _, by simp⟩ ?_ (.name rfl)
      refine .function ⟨.name _ _ _, by simp⟩ (.apply (t := .int) (.name rfl) ?_)
      exact .apply (t := .unit) (.name rfl) (.name rfl)
    have inferred : ∃ final, e.inferType [("y", .var 0)] { next := 1 } = .ok t final := by
      subst e t
      refine ⟨?_, ?run⟩
      case run =>
        cbv
        rfl
    obtain ⟨final, run⟩ := inferred
    have below : ∀ v ∈ Bindings.vars [("y", .var 0)], v < 1 := by decide
    obtain ⟨_, _, η, found, chosen, same⟩ := (Expr.inferType_complete e below).1 _ _ typed
    rw [run] at found
    cases found
    exact ⟨final, η, run, chosen, same⟩
  · have failed : Expr.inferType [] (.function .origin (.name .origin "x")
        (.apply .origin (.name .origin "x") (.name .origin "x"))) { next := 1 } =
        .error (.clash ⟨.circular, .var 1, .fn (.var 1) (.var 2)⟩ (some .origin))
          { next := 3, log := [.clashed ⟨.circular, .var 1, .fn (.var 1) (.var 2)⟩] } := by
      cbv
    exact (Expr.inferType_complete _ (by decide)).2 _ _ failed .var

end Monotype
