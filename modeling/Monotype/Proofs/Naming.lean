import Monotype.Proofs.Shift
import Monotype.Report

/-!
# Texts do not show ids

Variables are named in the order in which they are met, so types that differ in the ids of variables
only have the same text (`Ty.text_rename`), and so have reports about them (`Report.text_rename`).
-/

namespace Monotype

variable {ρ : Int → Int} {α β : Type}

/-! ### Types -/

namespace Names

def rename (ρ : Int → Int) (names : Names) : Names := names.map fun entry => (ρ entry.1, entry.2)

/-- Under renamed names, `y` says what `x` says. -/
def Renames (ρ : Int → Int) (x y : StateM Names α) : Prop :=
  ∀ names, y (names.rename ρ) = ((x names).1, (x names).2.rename ρ)

theorem Renames.bind {x y : StateM Names α} {f g : α → StateM Names β} (first : Renames ρ x y)
    (second : ∀ a, Renames ρ (f a) (g a)) : Renames ρ (x >>= f) (y >>= g) := by
  intro names
  have rest : (y >>= g) (names.rename ρ) = g (y (names.rename ρ)).1 (y (names.rename ρ)).2 := rfl
  rw [rest, first names]
  exact second _ _

theorem Renames.run_eq {x y : StateM Names α} (renames : Renames ρ x y) :
    (y.run []).1 = (x.run []).1 := by
  have run := congrArg Prod.fst (renames [])
  exact run

theorem renames_pure (a : α) : Renames ρ (pure a) (pure a) := fun _ => rfl

theorem renames_give (injective : Function.Injective ρ) (v : Int) :
    Renames ρ (give v) (give (ρ v)) := by
  intro names
  have found : (names.rename ρ).lookup (ρ v) = names.lookup v :=
    (lookup_rename injective id names v).trans (Option.map_id_apply)
  have length : (names.rename ρ).length = names.length := List.length_map _
  unfold give
  rw [found, length]
  cases names.lookup v with
  | some name => rfl
  | none =>
    dsimp only
    rw [rename, rename, List.map_append]
    rfl

end Names

open Names

namespace Ty

mutual

theorem showWith_renames (injective : Function.Injective ρ) : ∀ (t : Ty) (bracket : Bool),
    Renames ρ (t.showWith bracket) ((t.rename ρ).showWith bracket)
  | .name _, _ => renames_pure _
  | .var v, _ => renames_give injective v
  | .fn p r, _ => (showWith_renames injective p true).bind fun _ =>
      (showWith_renames injective r false).bind fun _ => renames_pure _
  | .tuple es, _ => by
    rw [rename_tuple]
    exact (showAll_renames injective es).bind fun _ => renames_pure _
  | .sum _ p, _ => (showWith_renames injective p false).bind fun _ => renames_pure _

theorem showAll_renames (injective : Function.Injective ρ) : ∀ ts : List Ty,
    Renames ρ (showAll ts) (showAll (ts.map (rename ρ)))
  | [] => renames_pure _
  | t :: ts => (showWith_renames injective t false).bind fun _ =>
      (showAll_renames injective ts).bind fun _ => renames_pure _

end

/-- The text of a type does not depend on the ids of its variables. -/
theorem text_rename (injective : Function.Injective ρ) (t : Ty) : (t.rename ρ).text = t.text :=
  (showWith_renames injective t false).run_eq

theorem arity_rename (ρ : Int → Int) (t : Ty) : (t.rename ρ).arity = t.arity := by
  cases t with
  | tuple es => rw [rename_tuple, arity, arity, List.length_map]
  | _ => rfl

theorem label_rename (ρ : Int → Int) (t : Ty) : (t.rename ρ).label = t.label := by
  cases t with
  | _ => rfl

end Ty

/-! ### Reports -/

namespace Clash

theorem texts_rename (injective : Function.Injective ρ) (c : Clash) :
    (c.rename ρ).texts = c.texts :=
  Renames.run_eq ((Ty.showWith_renames injective c.left false).bind fun _ =>
    (Ty.showWith_renames injective c.right false).bind fun _ => renames_pure _)

theorem explain_rename (injective : Function.Injective ρ) (c : Clash) :
    (c.rename ρ).explain = c.explain := by
  unfold explain
  rw [texts_rename injective]
  simp only [rename, Ty.arity_rename, Ty.label_rename]

end Clash

namespace Report

theorem toJson_rename (injective : Function.Injective ρ) (path : String) (problem : Problem) :
    toJson path (.problem (problem.rename ρ)) = toJson path (.problem problem) := by
  cases problem with
  | clash c span =>
    change Except.ok (Json.object ([_, _, ("left", .string (c.rename ρ).texts.1),
      ("right", .string (c.rename ρ).texts.2)] ++ _)) = _
    rw [Clash.texts_rename injective]
    rfl
  | _ => rfl

theorem toAlert_rename (injective : Function.Injective ρ) (path : String) (problem : Problem) :
    toAlert path (.problem (problem.rename ρ)) = toAlert path (.problem problem) := by
  cases problem with
  | clash c span => rw [Problem.rename, toAlert, toAlert, Clash.explain_rename injective]
  | _ => rfl

theorem toLong_rename (injective : Function.Injective ρ) (source path : String) (problem : Problem) :
    toLong source path (.problem (problem.rename ρ)) = toLong source path (.problem problem) := by
  cases problem with
  | clash c span => rw [Problem.rename, toLong, toLong, Clash.explain_rename injective]
  | _ => rfl

/-- A report on a problem does not depend on the ids of variables, whatever its format is. -/
theorem text_rename (injective : Function.Injective ρ) (format : Format) (problem : Problem)
    (source path : String) :
    text format (.problem (problem.rename ρ)) source path =
      text format (.problem problem) source path := by
  cases format with
  | json => rw [text, text, toJson_rename injective]
  | long => rw [text, text, toLong_rename injective]
  | short => rw [text, text, toAlert_rename injective]

end Report

def Failure.rename (ρ : Int → Int) : Failure → Failure
  | .problem p => .problem (p.rename ρ)
  | f => f

theorem Report.write_rename (injective : Function.Injective ρ) (format : Format) (f : Failure)
    (source path : String) : write format (f.rename ρ) source path = write format f source path := by
  cases f with
  | problem problem => exact text_rename injective format problem source path
  | _ => rfl

end Monotype
