import Monotype.Proofs.Session
import Monotype.Proofs.Typing

/-!
# Types of patterns

Inference gives a pattern the most general of its types: every instance of it is one
(`Pattern.inferFrom_sound`), and every type comes from it by choosing its variables
(`Pattern.inferFrom_complete`).
-/

namespace Monotype

open Infer

/-- What is known about a pattern, or a list of them, with the variables `vs` in its type, that was
inferred between two sessions to the right of the names `seen`. -/
structure Pattern.Inferred (seen : List String) (vs : List Int) (Δ : Bindings) (s s' : Session) :
    Prop where
  subst_eq : s'.subst = s.subst
  nodup : (Δ.map (·.1)).Nodup
  unseen : ∀ x ∈ Δ.map (·.1), x ∉ seen
  fresh : ∀ v ∈ vs ++ Δ.vars, s.next ≤ v ∧ v < s'.next

theorem Pattern.Inferred.cons {seen : List String} {vs ws : List Int} {Δ Ε : Bindings}
    {s s₁ s' : Session} (first : Pattern.Inferred seen vs Δ s s₁)
    (second : Pattern.Inferred (seen ++ Δ.map (·.1)) ws Ε s₁ s')
    (before : s.next ≤ s₁.next) (after : s₁.next ≤ s'.next) :
    Pattern.Inferred seen (vs ++ ws) (Δ ++ Ε) s s' where
  subst_eq := second.subst_eq.trans first.subst_eq
  nodup := by
    rw [List.map_append]
    refine first.nodup.append second.nodup fun x left right => ?_
    exact second.unseen x right (List.mem_append_right _ left)
  unseen := by
    intro x member
    rw [List.map_append] at member
    rcases List.mem_append.mp member with left | right
    · exact first.unseen x left
    · exact fun known => second.unseen x right (List.mem_append_left _ known)
  fresh := by
    intro v member
    have one := first.fresh v
    have two := second.fresh v
    simp only [Bindings.vars, List.flatMap_append, List.mem_append] at member one two
    rcases member with (member | member) | (member | member)
    · have := one (.inl member)
      omega
    · have := two (.inl member)
      omega
    · have := one (.inr member)
      omega
    · have := two (.inr member)
      omega

mutual

/-- Every instance of the inferred type is a type of the pattern. -/
theorem Pattern.inferFrom_sound : ∀ (p : Pattern) {seen : List String} {s s' : Session} {t : Ty}
    {Δ : Bindings}, p.inferFrom seen s = .ok (t, Δ) s' →
    Pattern.Inferred seen t.vars Δ s s' ∧ ∀ θ, p.HasType (t.inst θ) (Δ.inst θ)
  | .unit span, seen, s, s', t, Δ, run => by
    simp only [Pattern.inferFrom, pure_ok, Prod.mk.injEq] at run
    obtain ⟨⟨rfl, rfl⟩, rfl⟩ := run
    exact ⟨⟨rfl, by simp, by simp, by simp [Ty.unit, Ty.vars, Bindings.vars]⟩, fun θ => .unit span⟩
  | .int span n, seen, s, s', t, Δ, run => by
    simp only [Pattern.inferFrom, pure_ok, Prod.mk.injEq] at run
    obtain ⟨⟨rfl, rfl⟩, rfl⟩ := run
    exact ⟨⟨rfl, by simp, by simp, by simp [Ty.int, Ty.vars, Bindings.vars]⟩, fun θ => .int span n⟩
  | .wildcard span, seen, s, s', t, Δ, run => by
    simp only [Pattern.inferFrom, bind_ok, fresh_ok, pure_ok, Prod.mk.injEq] at run
    obtain ⟨_, _, ⟨rfl, rfl⟩, ⟨rfl, rfl⟩, rfl⟩ := run
    refine ⟨⟨rfl, by simp, by simp, ?_⟩, fun θ => .wildcard span _⟩
    intro v member
    obtain rfl : v = s.next := by simpa [Ty.vars, Bindings.vars] using member
    exact ⟨Int.le_refl _, Int.lt_succ _⟩
  | .name span x, seen, s, s', t, Δ, run => by
    unfold Pattern.inferFrom at run
    split at run
    · simp [bind_ok, throw_ok] at run
    · next unseen =>
      simp only [bind_ok, fresh_ok, pure_ok, Prod.mk.injEq] at run
      obtain ⟨_, _, ⟨rfl, rfl⟩, ⟨rfl, rfl⟩, rfl⟩ := run
      refine ⟨⟨rfl, by simp, by simpa using unseen, ?_⟩, fun θ => .name span x _⟩
      intro v member
      obtain rfl : v = s.next := by simpa [Ty.vars, Bindings.vars] using member
      exact ⟨Int.le_refl _, Int.lt_succ _⟩
  | .constructor span label arg, seen, s, s', t, Δ, run => by
    simp only [Pattern.inferFrom, bind_ok, pure_ok, Prod.exists, Prod.mk.injEq] at run
    obtain ⟨u, Δ, s₁, run, ⟨rfl, rfl⟩, rfl⟩ := run
    obtain ⟨inferred, typed⟩ := inferFrom_sound arg run
    exact ⟨inferred, fun θ => .constructor (typed θ)⟩
  | .tuple span ps, seen, s, s', t, Δ, run => by
    simp only [Pattern.inferFrom, bind_ok, pure_ok, Prod.exists, Prod.mk.injEq] at run
    obtain ⟨ts, Δ, s₁, run, ⟨rfl, rfl⟩, rfl⟩ := run
    obtain ⟨inferred, typed⟩ := inferAllFrom_sound ps run
    exact ⟨inferred, fun θ => .tuple (typed θ)⟩
  | .expr e, seen, s, s', t, Δ, run => by simp [Pattern.inferFrom, throw_ok] at run

theorem Pattern.inferAllFrom_sound : ∀ (ps : List Pattern) {seen : List String} {s s' : Session}
    {ts : List Ty} {Δ : Bindings}, Pattern.inferAllFrom seen ps s = .ok (ts, Δ) s' →
    Pattern.Inferred seen (Ty.varsAll ts) Δ s s' ∧
      ∀ θ, Pattern.HaveTypes ps (Ty.instAll θ ts) (Δ.inst θ)
  | [], seen, s, s', ts, Δ, run => by
    simp only [Pattern.inferAllFrom, pure_ok, Prod.mk.injEq] at run
    obtain ⟨⟨rfl, rfl⟩, rfl⟩ := run
    exact ⟨⟨rfl, by simp, by simp, by simp [Ty.varsAll, Bindings.vars]⟩, fun θ => .nil⟩
  | p :: ps, seen, s, s', ts, Δ, run => by
    simp only [Pattern.inferAllFrom, bind_ok, pure_ok, Prod.exists, Prod.mk.injEq] at run
    obtain ⟨t, Δ, s₁, head, ts, Ε, s₂, tail, ⟨rfl, rfl⟩, rfl⟩ := run
    obtain ⟨first, typed⟩ := inferFrom_sound p head
    obtain ⟨second, allTyped⟩ := inferAllFrom_sound ps tail
    have before := ((p.inferFrom_extending seen).of_ok head).next_le
    have after := ((Pattern.inferAllFrom_extending _ ps).of_ok tail).next_le
    refine ⟨first.cons second before after, fun θ => ?_⟩
    rw [Bindings.inst_append]
    exact .cons (typed θ) (allTyped θ)

end

theorem Pattern.infer_binds {p : Pattern} {s s' : Session} {t : Ty} {Δ : Bindings}
    (run : p.infer s = .ok (t, Δ) s') (θ : Int → Ty) : p.Binds (t.inst θ) (Δ.inst θ) := by
  obtain ⟨inferred, typed⟩ := p.inferFrom_sound run
  refine ⟨typed θ, ?_⟩
  rw [Bindings.map_fst_inst]
  exact inferred.nodup

/-! ### Choosing the variables -/

/-- Both assignments are the same for ids below `n`. -/
def SameBelow (n : Int) (θ η : Int → Ty) : Prop := ∀ v < n, θ v = η v

namespace SameBelow

variable {n m : Int} {θ η ζ : Int → Ty}

theorem refl (n : Int) (θ : Int → Ty) : SameBelow n θ θ := fun _ _ => rfl

theorem trans (first : SameBelow m θ η) (second : SameBelow n η ζ) (le : n ≤ m) :
    SameBelow n θ ζ :=
  fun v below => (first v (Int.lt_of_lt_of_le below le)).trans (second v below)

theorem update (n : Int) (θ : Int → Ty) (t : Ty) : SameBelow n (Function.update θ n t) θ :=
  fun _ below => Function.update_of_ne (Int.ne_of_lt below) _ _

theorem inst (same : SameBelow n θ η) {t : Ty} (below : ∀ v ∈ t.vars, v < n) :
    t.inst θ = t.inst η :=
  Ty.inst_congr fun v inside => same v (below v inside)

theorem bindings (same : SameBelow n θ η) {Γ : Bindings} (below : ∀ v ∈ Γ.vars, v < n) :
    Γ.inst θ = Γ.inst η :=
  Bindings.inst_congr fun v inside => same v (below v inside)

end SameBelow

mutual

/-- Every type of the pattern is an instance of the inferred one. The instance leaves the variables
alone that were there before. -/
theorem Pattern.inferFrom_complete : ∀ (p : Pattern) {seen : List String} {τ : Ty} {Ε : Bindings}
    (s : Session) (θ : Int → Ty), p.HasType τ Ε → (Ε.map (·.1)).Nodup →
    (∀ x ∈ Ε.map (·.1), x ∉ seen) →
    ∃ t Δ s' η, p.inferFrom seen s = .ok (t, Δ) s' ∧ t.inst η = τ ∧ Δ.inst η = Ε ∧
      SameBelow s.next η θ
  | .unit span, seen, _, _, s, θ, .unit _, _, _ => ⟨.unit, [], s, θ, rfl, rfl, rfl, .refl _ θ⟩
  | .int span n, seen, _, _, s, θ, .int _ _, _, _ => ⟨.int, [], s, θ, rfl, rfl, rfl, .refl _ θ⟩
  | .wildcard span, seen, _, _, s, θ, .wildcard _ τ, _, _ =>
    ⟨.var s.next, [], _, Function.update θ s.next τ, rfl, Function.update_self _ _ _, rfl,
      .update _ θ τ⟩
  | .name span x, seen, _, _, s, θ, .name _ _ τ, _, unseen => by
    have chosen : (Ty.var s.next).inst (Function.update θ s.next τ) = τ :=
      Function.update_self _ _ _
    refine ⟨.var s.next, [(x, .var s.next)], { s with next := s.next + 1 },
      Function.update θ s.next τ, ?_, chosen, ?_, .update _ θ τ⟩
    · unfold Pattern.inferFrom
      rw [if_neg (unseen x (by simp))]
      rfl
    · simp [Bindings.inst, chosen]
  | .constructor span label arg, seen, _, _, s, θ, .constructor typed, nodup, unseen => by
    obtain ⟨t, Δ, s', η, run, rfl, rfl, same⟩ := inferFrom_complete arg s θ typed nodup unseen
    refine ⟨.sum label t, Δ, s', η, ?_, rfl, rfl, same⟩
    simp only [Pattern.inferFrom, bind_ok, pure_ok, Prod.exists]
    exact ⟨t, Δ, s', run, rfl, rfl⟩
  | .tuple span ps, seen, _, _, s, θ, .tuple typed, nodup, unseen => by
    obtain ⟨ts, Δ, s', η, run, rfl, rfl, same⟩ := inferAllFrom_complete ps s θ typed nodup unseen
    refine ⟨.tuple ts, Δ, s', η, ?_, rfl, rfl, same⟩
    simp only [Pattern.inferFrom, bind_ok, pure_ok, Prod.exists]
    exact ⟨ts, Δ, s', run, rfl, rfl⟩

theorem Pattern.inferAllFrom_complete : ∀ (ps : List Pattern) {seen : List String} {τs : List Ty}
    {Ε : Bindings} (s : Session) (θ : Int → Ty), Pattern.HaveTypes ps τs Ε →
    (Ε.map (·.1)).Nodup → (∀ x ∈ Ε.map (·.1), x ∉ seen) →
    ∃ ts Δ s' η, Pattern.inferAllFrom seen ps s = .ok (ts, Δ) s' ∧ Ty.instAll η ts = τs ∧
      Δ.inst η = Ε ∧ SameBelow s.next η θ
  | [], seen, _, _, s, θ, .nil, _, _ => ⟨[], [], s, θ, rfl, rfl, rfl, .refl _ θ⟩
  | p :: ps, seen, _, _, s, θ, @Pattern.HaveTypes.cons _ _ _ _ _ Δ₂ head tail, nodup, unseen => by
    rw [List.map_append] at nodup unseen
    have ⟨nodup₁, nodup₂, apart⟩ := List.nodup_append.mp nodup
    obtain ⟨t, Δ, s₁, η, run₁, rfl, rfl, same₁⟩ := inferFrom_complete p s θ head nodup₁
      fun x member => unseen x (List.mem_append_left _ member)
    have unseen₂ : ∀ x ∈ Δ₂.map (·.1), x ∉ seen ++ Δ.map (·.1) := by
      intro x member known
      rcases List.mem_append.mp known with known | known
      · exact unseen x (List.mem_append_right _ member) known
      · rw [← Bindings.map_fst_inst η] at known
        exact apart x known x member rfl
    obtain ⟨ts, Ε, s₂, ζ, run₂, rfl, rfl, same₂⟩ := inferAllFrom_complete ps s₁ η tail nodup₂ unseen₂
    -- The variables of the first pattern are older than those of the others.
    have older := (inferFrom_sound p run₁).1.fresh
    have same : t.inst ζ = t.inst η := same₂.inst fun v inside =>
      (older v (List.mem_append_left _ inside)).2
    have sameBound : Δ.inst ζ = Δ.inst η := same₂.bindings fun v inside =>
      (older v (List.mem_append_right _ inside)).2
    have le := ((p.inferFrom_extending seen).of_ok run₁).next_le
    refine ⟨t :: ts, Δ ++ Ε, s₂, ζ, ?_, ?_, ?_, same₂.trans same₁ le⟩
    · simp only [Pattern.inferAllFrom, bind_ok, pure_ok, Prod.exists]
      exact ⟨t, Δ, s₁, run₁, ts, Ε, s₂, run₂, rfl, rfl⟩
    · rw [Ty.instAll, same]
    · rw [Bindings.inst_append, sameBound]

end

end Monotype
