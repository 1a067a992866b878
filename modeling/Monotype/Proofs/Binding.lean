import Monotype.Proofs.Principal
import Monotype.Proofs.Scoping

/-!
# The binding forms

A match with one case, an applied function and a `let` whose value does not use the bound names all
bind a pattern to a value in a body, and they have the same types. So the same is inferred for them
up to the ids of variables (`Expr.binding_forms_agree`), although the parts are visited in different
orders and solved at different times.
-/

namespace Monotype

/-! ### Names that do not occur -/

theorem Bindings.lookup_append_of_notMem {Δ Γ : Bindings} {x : String}
    (absent : x ∉ Δ.map (·.1)) : (Δ ++ Γ).lookup x = Γ.lookup x := by
  have unbound : Δ.lookup x = none := by
    rw [List.lookup_eq_none_iff]
    intro b member
    have different : x ≠ b.1 := by
      rintro rfl
      exact absent (List.mem_map_of_mem member)
    simpa using different
  rw [List.lookup_append, unbound, Option.none_or]

/-- The types of an expression depend on its free names only. -/
theorem HasType.of_freeNames {Γ Γ' : Bindings} {e : Expr} {t : Ty} (typed : HasType Γ e t)
    (proper : e.proper = true) (agree : ∀ x ∈ e.freeNames, Γ.lookup x = Γ'.lookup x) :
    HasType Γ' e t := by
  -- Inference cannot tell the bindings apart. It counts from above their variables, which are kept.
  obtain ⟨top, bound⟩ := (Γ.vars ++ Γ'.vars).toFinset.exists_le
  have below : ∀ v ∈ Γ.vars ++ Γ'.vars, v < top + 1 := by
    intro v member
    have le := bound v (List.mem_toFinset.mpr member)
    omega
  rw [List.forall_mem_append] at below
  rw [← Γ.inst_var] at typed
  obtain ⟨u, s, η, run, rfl, solved, same⟩ :=
    Expr.infer_complete e typed (Session.fits_start below.1 .var)
  rw [e.infer_eq_of_freeNames agree] at run
  have again := Expr.infer_sound e proper run η solved
  have kept : Γ'.inst η = Γ' := by
    rw [same.bindings below.2, Γ'.inst_var]
  change HasType (Γ'.inst η) e _ at again
  rwa [kept] at again

/-! ### What the forms have in common -/

/-- The body has the type when the pattern is bound to the value, which does not see the names. -/
def BindingHasType (Γ : Bindings) (p : Pattern) (v b : Expr) (u : Ty) : Prop :=
  ∃ t Δ, p.Binds t Δ ∧ HasType Γ v t ∧ HasType (Δ ++ Γ) b u

section Forms

variable {Γ : Bindings} {p : Pattern} {v b : Expr} {u : Ty}

theorem hasType_matchOn {span : Span} :
    HasType Γ (.matchOn span v [(p, b)]) u ↔ BindingHasType Γ p v b u := by
  constructor
  · intro typed
    cases typed with
    | matchOn subject nonempty cases =>
      cases cases with
      | cons binds body rest => exact ⟨_, _, binds, subject, body⟩
  · rintro ⟨t, Δ, binds, value, body⟩
    exact .matchOn value (List.cons_ne_nil _ _) (.cons binds body .nil)

theorem hasType_apply {span inner : Span} :
    HasType Γ (.apply span (.function inner p b) v) u ↔ BindingHasType Γ p v b u := by
  constructor
  · intro typed
    cases typed with
    | apply func arg =>
      cases func with
      | function binds body => exact ⟨_, _, binds, arg, body⟩
  · rintro ⟨t, Δ, binds, value, body⟩
    exact .apply (.function binds body) value

theorem hasType_letIn {span : Span} (proper : v.proper = true)
    (apart : ∀ x ∈ p.names, x ∉ v.freeNames) :
    HasType Γ (.letIn span p v b) u ↔ BindingHasType Γ p v b u := by
  have unseen {t : Ty} {Δ : Bindings} (binds : p.Binds t Δ) :
      ∀ x ∈ v.freeNames, (Δ ++ Γ).lookup x = Γ.lookup x := by
    intro x free
    apply Bindings.lookup_append_of_notMem
    rw [binds.1.names]
    exact fun bound => apart x bound free
  constructor
  · intro typed
    cases typed with
    | letIn binds value body =>
      exact ⟨_, _, binds, value.of_freeNames proper (unseen binds), body⟩
  · rintro ⟨t, Δ, binds, value, body⟩
    exact .letIn binds (value.of_freeNames proper fun x free => (unseen binds x free).symm) body

end Forms

/-- A match with one case is typed like a function that is applied to the subject, and so is a `let`
whose value does not use the names that it binds. -/
theorem Expr.binding_forms_agree {p : Pattern} {v b : Expr} (value : v.proper = true)
    (body : b.proper = true) {env : Bindings} (closed : env.vars = []) (span inner outer : Span) :
    TypedAlike env (.matchOn span v [(p, b)]) (.apply outer (.function inner p b) v) ∧
      ((∀ x ∈ p.names, x ∉ v.freeNames) →
        TypedAlike env (.letIn span p v b) (.apply outer (.function inner p b) v)) := by
  have applied : (Expr.apply outer (.function inner p b) v).proper = true := by
    simp [Expr.proper, value, body]
  constructor
  · have matched : (Expr.matchOn span v [(p, b)]).proper = true := by
      simp [Expr.proper, Expr.properCases, value, body]
    refine typedAlike_of_hasType closed matched applied fun σ => ?_
    rw [hasType_matchOn, hasType_apply]
  · intro apart
    have bound : (Expr.letIn span p v b).proper = true := by
      simp [Expr.proper, value, body]
    refine typedAlike_of_hasType closed bound applied fun σ => ?_
    rw [hasType_letIn value apart, hasType_apply]

/-- A pair of the identity and a given number is taken apart, and the identity remains. -/
theorem Expr.binding_forms_agree_pair :
    let p : Pattern := .tuple .origin [.name .origin "f", .wildcard .origin]
    let v : Expr := .tuple .origin
      [.function .origin (.name .origin "y") (.name .origin "y"), .name .origin "k"]
    let b : Expr := .name .origin "f"
    let call : Expr := .apply .origin (.function .origin p b) v
    (∃ t s, call.inferType [("k", .int)] { next := 0 } = .ok t s) ∧
      TypedAlike [("k", .int)] (.matchOn .origin v [(p, b)]) call ∧
      (∀ x ∈ p.names, x ∉ v.freeNames) ∧ TypedAlike [("k", .int)] (.letIn .origin p v b) call := by
  intro p v b call
  have apart : ∀ x ∈ p.names, x ∉ v.freeNames := by decide
  have typed : HasType [("k", .int)] call (.fn .unit .unit) := by
    have value : HasType [("k", .int)] v (.tuple [.fn .unit .unit, .int]) :=
      .tuple (.cons (.function ⟨.name _ _ _, by simp⟩ (.name rfl)) (.cons (.name rfl) .nil))
    have binds : p.Binds (.tuple [.fn .unit .unit, .int]) [("f", .fn .unit .unit)] :=
      ⟨.tuple (.cons (.name _ _ _) (.cons (.wildcard _ _) .nil)), by simp⟩
    exact .apply (.function binds (.name rfl)) value
  obtain ⟨t, s, -, run, -⟩ := inferType_isOk rfl typed 0
  have agree := Expr.binding_forms_agree (p := p) (v := v) (b := b) rfl rfl
    (Eq.refl (Bindings.vars [("k", .int)])) .origin .origin .origin
  exact ⟨⟨t, s, run⟩, agree.1, apart, agree.2 apart⟩

end Monotype
