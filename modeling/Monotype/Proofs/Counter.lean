import Monotype.Proofs.Pipeline

/-!
# The counter of variables does not show

Ids are counted on from one inference to the next. Where the counting starts is of no importance: what
comes of an inference is the same with all ids moved, and no text that is made from it tells the
difference. Main theorem: `Expr.inferType_counter`.
-/

namespace Monotype

/-- Inference that counts from `m` comes to what it comes to when it counts from `n`, moved by their
difference, and uses up as many ids. So the type has the same text, a problem has the same report in
every format, and a check says the same. -/
theorem Expr.inferType_counter (e : Expr) {env : Bindings} (closed : env.vars = []) (n m : Int) :
    let moved := fun v => v + (m - n)
    (∀ t final, e.inferType env { next := n } = .ok t final →
      e.inferType env { next := m } = .ok (t.rename moved) (final.shift (m - n)) ∧
        (final.shift (m - n)).next - m = final.next - n ∧ (t.rename moved).text = t.text) ∧
    (∀ problem final, e.inferType env { next := n } = .error problem final →
      e.inferType env { next := m } = .error (problem.rename moved) (final.shift (m - n)) ∧
        (final.shift (m - n)).next - m = final.next - n ∧ ∀ format source path,
          Report.text format (.problem (problem.rename moved)) source path =
            Report.text format (.problem problem) source path) ∧
    ∀ {ω : Type} (reader : Reader) (config : Config ω) (program) (document) (log₁ log₂),
      ∃ text log₁' log₂', Check.run config program document n reader log₁ = .ok text log₁' ∧
        Check.run config program document m reader log₂ = .ok text log₂' := by
  intro moved
  have injective : Function.Injective moved := add_left_injective (m - n)
  have start : n + (m - n) = m := by omega
  have used (final : Session) : (final.shift (m - n)).next - m = final.next - n := by
    change final.next + (m - n) - m = _
    omega
  have shifted : e.inferType env { next := n + (m - n) } = Infer.shift (m - n) (Ty.rename moved)
      (e.inferType env { next := n }) := e.inferType_shifts closed { next := n }
  rw [start] at shifted
  refine ⟨fun t final run => ?_, fun problem final run => ?_, ?_⟩
  · rw [run] at shifted
    exact ⟨shifted, used final, Ty.text_rename injective t⟩
  · rw [run] at shifted
    exact ⟨shifted, used final, fun format => Report.text_rename injective format problem⟩
  · intro ω reader config program document log₁ log₂
    have alike := Check.run_alike reader (m - n) config program document n log₁ log₂
    rwa [start] at alike

/-- A function of two variables, and a function that is applied to itself. -/
theorem Expr.inferType_counter_forty :
    let x := Expr.name .origin "x"
    (∃ final, Expr.inferType [("k", .int)] (.function .origin (.name .origin "x")
        (.function .origin (.name .origin "y") x)) { next := 40 } =
          .ok (.fn (.var 40) (.fn (.var 41) (.var 40))) final ∧ final.next = 42) ∧
    ∃ final, Expr.inferType [("k", .int)] (.function .origin (.name .origin "x")
        (.apply .origin x x)) { next := 40 } =
      .error (.clash ⟨.circular, .var 40, .fn (.var 40) (.var 41)⟩ (some .origin)) final := by
  intro x
  constructor
  · have run : Expr.inferType [("k", .int)] (.function .origin (.name .origin "x")
        (.function .origin (.name .origin "y") x)) { next := 1 } =
          .ok (.fn (.var 1) (.fn (.var 2) (.var 1))) { next := 3, log := [.solution []] } := by
      subst x
      cbv
    exact ⟨_, ((inferType_counter _ rfl 1 40).1 _ _ run).1, rfl⟩
  · have run : Expr.inferType [("k", .int)] (.function .origin (.name .origin "x")
        (.apply .origin x x)) { next := 1 } =
          .error (.clash ⟨.circular, .var 1, .fn (.var 1) (.var 2)⟩ (some .origin))
            { next := 3, log := [.clashed ⟨.circular, .var 1, .fn (.var 1) (.var 2)⟩] } := by
      subst x
      cbv
    exact ⟨_, ((inferType_counter _ rfl 1 40).2.1 _ _ run).1⟩

end Monotype
