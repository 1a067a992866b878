import Monotype.Ty

/-!
# Instances of types

When two assignments agree on a type, how instances compose, and why no assignment makes a variable
equal to a larger type that contains it (`inst_ne_of_mem_vars`).
-/

namespace Monotype.Ty

/-! ### Agreement and composition -/

mutual

/-- Only the values at the variables of a type matter for its instance. -/
theorem inst_congr {θ η : Int → Ty} : ∀ {t : Ty}, (∀ v ∈ t.vars, θ v = η v) → t.inst θ = t.inst η
  | .name _, _ => rfl
  | .var v, agree => agree v (by simp [vars])
  | .fn p r, agree => by
    simp only [vars, List.mem_append] at agree
    rw [inst, inst, inst_congr fun v hv => agree v (.inl hv),
      inst_congr fun v hv => agree v (.inr hv)]
  | .tuple es, agree => by rw [inst, inst, instAll_congr agree]
  | .sum l p, agree => by rw [inst, inst, inst_congr (t := p) agree]

theorem instAll_congr {θ η : Int → Ty} :
    ∀ {ts : List Ty}, (∀ v ∈ varsAll ts, θ v = η v) → instAll θ ts = instAll η ts
  | [], _ => rfl
  | t :: ts, agree => by
    simp only [varsAll, List.mem_append] at agree
    rw [instAll, instAll, inst_congr fun v hv => agree v (.inl hv),
      instAll_congr fun v hv => agree v (.inr hv)]

end

mutual

/-- An instance of a type shows the values at all of its variables. -/
theorem eq_of_inst_eq {θ η : Int → Ty} : ∀ {t : Ty}, t.inst θ = t.inst η → ∀ v ∈ t.vars, θ v = η v
  | .name _, _, v, mem => by simp [vars] at mem
  | .var w, same, v, mem => by
    obtain rfl : v = w := by simpa [vars] using mem
    exact same
  | .fn p r, same, v, mem => by
    simp only [inst, fn.injEq] at same
    simp only [vars, List.mem_append] at mem
    rcases mem with mem | mem
    · exact eq_of_inst_eq same.1 v mem
    · exact eq_of_inst_eq same.2 v mem
  | .tuple es, same, v, mem => by
    simp only [inst, tuple.injEq] at same
    exact eq_of_instAll_eq same v mem
  | .sum l p, same, v, mem => by
    simp only [inst, sum.injEq] at same
    exact eq_of_inst_eq (t := p) same.2 v mem

theorem eq_of_instAll_eq {θ η : Int → Ty} :
    ∀ {ts : List Ty}, instAll θ ts = instAll η ts → ∀ v ∈ varsAll ts, θ v = η v
  | [], _, v, mem => by simp [varsAll] at mem
  | t :: ts, same, v, mem => by
    simp only [instAll, List.cons.injEq] at same
    simp only [varsAll, List.mem_append] at mem
    rcases mem with mem | mem
    · exact eq_of_inst_eq same.1 v mem
    · exact eq_of_instAll_eq same.2 v mem

end

mutual

@[simp] theorem inst_var : ∀ t : Ty, t.inst .var = t
  | .name _ => rfl
  | .var _ => rfl
  | .fn p r => by rw [inst, inst_var p, inst_var r]
  | .tuple es => by rw [inst, instAll_var es]
  | .sum l p => by rw [inst, inst_var p]

@[simp] theorem instAll_var : ∀ ts : List Ty, instAll .var ts = ts
  | [] => rfl
  | t :: ts => by rw [instAll, inst_var t, instAll_var ts]

end

mutual

theorem inst_inst (θ η : Int → Ty) : ∀ t : Ty, (t.inst θ).inst η = t.inst fun v => (θ v).inst η
  | .name _ => rfl
  | .var _ => rfl
  | .fn p r => by simp only [inst, inst_inst θ η p, inst_inst θ η r]
  | .tuple es => by simp only [inst, instAll_instAll θ η es]
  | .sum l p => by simp only [inst, inst_inst θ η p]

theorem instAll_instAll (θ η : Int → Ty) :
    ∀ ts : List Ty, instAll η (instAll θ ts) = instAll (fun v => (θ v).inst η) ts
  | [] => rfl
  | t :: ts => by simp only [instAll, inst_inst θ η t, instAll_instAll θ η ts]

end

/-- An assignment that leaves the variables of a type alone leaves the type alone. -/
theorem inst_eq_self {θ : Int → Ty} {t : Ty} (fixed : ∀ v ∈ t.vars, θ v = .var v) :
    t.inst θ = t :=
  (inst_congr fixed).trans (inst_var t)

/-- Replacing `v` by `t` is absorbed by an assignment under which both are the same. -/
theorem inst_assign {θ : Int → Ty} {v : Int} {t : Ty} (same : θ v = t.inst θ) (u : Ty) :
    (u.inst (assign v t)).inst θ = u.inst θ := by
  rw [inst_inst]
  refine inst_congr fun w _ => ?_
  by_cases h : w = v
  · subst h
    simpa [assign] using same.symm
  · simp [assign, h, inst]

/-! ### Size -/

mutual

/-- The image of a variable is no larger than the instance of a type that contains it. -/
theorem size_le_size_inst (θ : Int → Ty) {v : Int} :
    ∀ {t : Ty}, v ∈ t.vars → (θ v).size ≤ (t.inst θ).size
  | .name _, mem => by simp [vars] at mem
  | .var w, mem => by
    obtain rfl : v = w := by simpa [vars] using mem
    exact Nat.le_refl _
  | .fn p r, mem => by
    simp only [vars, List.mem_append] at mem
    simp only [inst, size]
    rcases mem with mem | mem
    · have := size_le_size_inst θ mem
      omega
    · have := size_le_size_inst θ mem
      omega
  | .tuple es, mem => by
    have := size_le_sizeAll_instAll θ (show v ∈ varsAll es from mem)
    simp only [inst, size]
    omega
  | .sum l p, mem => by
    have := size_le_size_inst θ (show v ∈ p.vars from mem)
    simp only [inst, size]
    omega

theorem size_le_sizeAll_instAll (θ : Int → Ty) {v : Int} :
    ∀ {ts : List Ty}, v ∈ varsAll ts → (θ v).size ≤ sizeAll (instAll θ ts)
  | [], mem => by simp [varsAll] at mem
  | t :: ts, mem => by
    simp only [varsAll, List.mem_append] at mem
    simp only [instAll, sizeAll]
    rcases mem with mem | mem
    · have := size_le_size_inst θ mem
      omega
    · have := size_le_sizeAll_instAll θ mem
      omega

end

/-- No assignment makes a variable equal to a larger type that contains it. -/
theorem inst_ne_of_mem_vars (θ : Int → Ty) {v : Int} {t : Ty} (mem : v ∈ t.vars)
    (larger : t ≠ .var v) : θ v ≠ t.inst θ := by
  intro same
  have size := congrArg Ty.size same
  cases t with
  | name n => simp [vars] at mem
  | var w =>
    obtain rfl : v = w := by simpa [vars] using mem
    exact larger rfl
  | fn p r =>
    simp only [vars, List.mem_append] at mem
    simp only [inst, Ty.size] at size
    rcases mem with mem | mem
    · have := size_le_size_inst θ mem
      omega
    · have := size_le_size_inst θ mem
      omega
  | tuple es =>
    have := size_le_sizeAll_instAll θ (show v ∈ varsAll es from mem)
    simp only [inst, Ty.size] at size
    omega
  | sum l p =>
    have := size_le_size_inst θ (show v ∈ p.vars from mem)
    simp only [inst, Ty.size] at size
    omega

end Monotype.Ty
