import Monotype.Infer
import Monotype.Ty.Draft

/-!
Solving and inference when types are given as drafts. A draft may be written down anywhere; it is a
misuse to need the type that an incomplete one stands for.
-/

namespace Monotype

/-- A substitution that is written by hand. Incomplete entries are kept apart: a blank entry counts
as none, and any other one must not be met. -/
structure Sheet where
  subst : Subst := []
  drafts : List (Int × Draft) := []
deriving Repr, Inhabited

namespace Sheet

def set (v : Int) (d : Draft) (sheet : Sheet) : Sheet :=
  let drafts := sheet.drafts.filter (·.1 ≠ v)
  match d.complete? with
  | some t => { subst := sheet.subst.set v t, drafts }
  | none => { subst := sheet.subst.filter (·.1 ≠ v), drafts := drafts ++ [(v, d)] }

/-- Whether following a variable leads to a blank. -/
def spoils (sheet : Sheet) (v : Int) : Bool :=
  match sheet.drafts.lookup v with
  | none | some .blank => false
  | some _ => true

def resolve (sheet : Sheet) (d : Draft) : Except Misuse Ty :=
  match d.complete? with
  | none => .error .blankResolved
  | some t =>
    let r := sheet.subst.resolve t
    if r.vars.any sheet.spoils then .error .blankResolved else .ok r

/-- Solves equations between drafts one after the other, up to the first that fails. -/
def unify (sheet : Sheet) (log : List Event) :
    List (Draft × Draft) → Except (Clash ⊕ Misuse) Unit × Sheet × List Event
  | [] => (.ok (), sheet, log)
  | (left, right) :: rest =>
    match sheet.resolve left, sheet.resolve right, left.complete?, right.complete? with
    | .ok _, .ok _, some l, some r =>
      let u := sheet.subst.unify [⟨l, r⟩]
      let sheet := { subst := u.subst, drafts := sheet.drafts.filter (·.1 ∉ u.subst.keys) }
      match u.clash with
      | none => sheet.unify (log ++ u.log) rest
      | some c => (.error (.inl c), sheet, log ++ u.log)
    | _, _, _, _ => (.error (.inr .blankResolved), sheet, log)

def entries (sheet : Sheet) : List (Int × (Ty ⊕ Draft)) :=
  sheet.subst.map (fun (v, t) => (v, .inl t)) ++ sheet.drafts.map (fun (v, d) => (v, .inr d))

end Sheet

/-- The part of an environment that can be used: of each name the first type, if it is complete. -/
def usableBindings (env : List (String × Draft)) : Bindings :=
  env.filterMap fun (x, d) => do
    let _ ← (← env.lookup x).complete?
    return (x, ← d.complete?)

/-- Runs inference under an environment of drafts. A name whose type is incomplete is as good as
undefined, but using it is a misuse. -/
def Infer.withDrafts {α : Type} (env : List (String × Draft)) (run : Bindings → Infer α) :
    EStateM (Problem ⊕ Misuse) Session α := fun s =>
  match run (usableBindings env) s with
  | .ok a s => .ok a s
  | .error (.undefinedName x span) s =>
    if (env.lookup x).isSome then .error (.inr .blankResolved) s
    else .error (.inl (.undefinedName x span)) s
  | .error p s => .error (.inl p) s

end Monotype
