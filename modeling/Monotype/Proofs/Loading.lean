import Monotype.Document
import Monotype.Proofs.Problems
import Monotype.Tree.Printer

/-!
# Trees that are read

What is read from a document is well formed (`Document.load_wellFormed`), and a well-formed tree can
be printed (`Expr.textAt_ok`).
-/

namespace Monotype

/-! ### Reading -/

namespace Document

variable {α β : Type} {P : α → Prop} {Q : β → Prop}

theorem bind_ok {x : Except Fault α} {f : α → Except Fault β} {b : β} :
    x >>= f = .ok b ↔ ∃ a, x = .ok a ∧ f a = .ok b := by
  cases x with
  | error fault => simp [bind, Except.bind]
  | ok a => simp [bind, Except.bind]

theorem pure_ok {a b : α} : (pure a : Except Fault α) = .ok b ↔ a = b := by
  simp [pure, Except.pure]

theorem mapError_ok {ε : Type} {f : Fault → ε} {x : Except Fault α} {a : α} :
    x.mapError f = .ok a ↔ x = .ok a := by
  cases x with
  | error fault => simp [Except.mapError]
  | ok b => simp [Except.mapError]

theorem within_ok {step : Place.Step} {x : Except Fault α} {a : α} :
    within step x = .ok a ↔ x = .ok a :=
  mapError_ok

theorem report_ok {path : String} {x : Except Fault α} {a : α} :
    report path x = .ok a ↔ x = .ok a :=
  mapError_ok

/-- Whatever is read has the property. -/
def Yields (P : α → Prop) (x : Except Fault α) : Prop := ∀ a, x = .ok a → P a

theorem yields_any (x : Except Fault α) : Yields (fun _ => True) x := fun _ _ => trivial

theorem yields_pure {a : α} (holds : P a) : Yields P (pure a) := by
  rintro b same
  cases same
  exact holds

theorem yields_throw (fault : Fault) : Yields P (throw fault) := fun _ same => by cases same

theorem Yields.bind {x : Except Fault α} {f : α → Except Fault β} (first : Yields P x)
    (second : ∀ a, P a → Yields Q (f a)) : Yields Q (x >>= f) := by
  intro b same
  obtain ⟨a, read, rest⟩ := bind_ok.mp same
  exact second a (first a read) b rest

theorem Yields.within {x : Except Fault α} (holds : Yields P x) (step : Place.Step) :
    Yields P (within step x) :=
  fun a same => holds a (within_ok.mp same)

/-- A part of a node is read, and then the rest. -/
theorem yields_part {v : Json} {key : String} {read : Json → Except Fault α}
    {f : α → Except Fault β} (reads : ∀ u, sizeOf u < sizeOf v → Yields P (read u))
    (rest : ∀ a, P a → Yields Q (f a)) :
    Yields Q (do
      let ⟨u, _⟩ ← field key v
      let a ← within (.key key) (read u)
      f a) :=
  (yields_any _).bind fun ⟨u, smaller⟩ _ => ((reads u smaller).within _).bind rest

/-- The parts in an array are read, and then the rest. -/
theorem yields_parts {v : Json} {key : String} {read : List Json → Except Fault α}
    {f : α → Except Fault β} (reads : ∀ us, sizeOf us < sizeOf v → Yields P (read us))
    (rest : ∀ a, P a → Yields Q (f a)) :
    Yields Q (do
      let ⟨us, _⟩ ← array key v
      let a ← within (.key key) (read us)
      f a) :=
  (yields_any _).bind fun ⟨us, smaller⟩ _ => ((reads us smaller).within _).bind rest

end Document

open Document

mutual

theorem Pattern.ofJson_proper (v : Json) :
    Yields (fun p => p.proper = true) (Pattern.ofJson v) := by
  rw [Pattern.ofJson]
  refine (yields_any _).bind fun k _ => ?_
  split
  · exact (yields_any _).bind fun s _ => (yields_any _).bind fun label _ =>
      yields_part (fun u _ => Pattern.ofJson_proper u) fun p proper => yields_pure proper
  · exact (yields_any _).bind fun s _ => (yields_any _).bind fun n _ => yields_pure rfl
  · exact (yields_any _).bind fun s _ => (yields_any _).bind fun x _ => yields_pure rfl
  · exact (yields_any _).bind fun s _ =>
      yields_parts (fun us _ => Pattern.allOfJson_proper 0 us) fun ps proper => yields_pure proper
  · exact (yields_any _).bind fun s _ => yields_pure rfl
  · exact (yields_any _).bind fun s _ => yields_pure rfl
  · exact yields_throw _
termination_by sizeOf v

theorem Pattern.allOfJson_proper (index : Nat) (vs : List Json) :
    Yields (fun ps => Pattern.properAll ps = true) (Pattern.allOfJson index vs) := by
  cases vs with
  | nil =>
    rw [Pattern.allOfJson]
    exact yields_pure rfl
  | cons v vs =>
    rw [Pattern.allOfJson]
    exact ((Pattern.ofJson_proper v).within _).bind fun p proper =>
      (Pattern.allOfJson_proper (index + 1) vs).bind fun ps others =>
        yields_pure (Bool.and_eq_true_iff.mpr ⟨proper, others⟩)
termination_by sizeOf vs

end

mutual

theorem Expr.ofJson_wellFormed (v : Json) :
    Yields (fun e => e.wellFormed = true) (Expr.ofJson v) := by
  have part (u : Json) (smaller : sizeOf u < sizeOf v) := Expr.ofJson_wellFormed u
  rw [Expr.ofJson]
  refine (yields_any _).bind fun k _ => ?_
  split
  · exact (yields_any _).bind fun s _ => yields_part part fun f func =>
      yields_part part fun a arg => yields_pure (Bool.and_eq_true_iff.mpr ⟨func, arg⟩)
  · exact (yields_any _).bind fun s _ => (yields_any _).bind fun operator _ =>
      yields_part part fun l left => yields_part part fun r right =>
        yields_pure (Bool.and_eq_true_iff.mpr ⟨left, right⟩)
  · exact (yields_any _).bind fun s _ => yields_part part fun p pred =>
      yields_part part fun c cons => yields_part part fun a alt =>
        yields_pure (by simp only [Expr.wellFormed, pred, cons, alt, Bool.and_self])
  · exact (yields_any _).bind fun s _ => (yields_any _).bind fun label _ =>
      yields_part part fun a arg => yields_pure arg
  · exact (yields_any _).bind fun s _ =>
      yields_part (fun u _ => Pattern.ofJson_proper u) fun p param =>
        yields_part part fun b body => yields_pure (Bool.and_eq_true_iff.mpr ⟨param, body⟩)
  · exact (yields_any _).bind fun s _ => (yields_any _).bind fun n _ => yields_pure rfl
  · exact (yields_any _).bind fun s _ =>
      yields_part (fun u _ => Pattern.ofJson_proper u) fun p target =>
        yields_part part fun v value => yields_part part fun b body =>
        yields_pure (by simp only [Expr.wellFormed, target, value, body, Bool.and_self])
  · refine (yields_any _).bind fun s _ => yields_part part fun e subject =>
      yields_parts (fun us _ => Expr.casesOfJson_wellFormed 0 us) fun cs cases => ?_
    by_cases empty : cs.isEmpty = true
    · rw [if_pos empty]
      exact (yields_throw _).bind fun _ (holds : False) => holds.elim
    · rw [if_neg empty]
      exact yields_pure (by simp [Expr.wellFormed, subject, cases, empty])
  · exact (yields_any _).bind fun s _ => (yields_any _).bind fun x _ => yields_pure rfl
  · exact (yields_any _).bind fun s _ =>
      yields_parts (fun us _ => Expr.allOfJson_wellFormed 0 us) fun es formed => yields_pure formed
  · exact (yields_any _).bind fun s _ => yields_pure rfl
  · exact yields_throw _
termination_by sizeOf v

theorem Expr.allOfJson_wellFormed (index : Nat) (vs : List Json) :
    Yields (fun es => Expr.wellFormedAll es = true) (Expr.allOfJson index vs) := by
  cases vs with
  | nil =>
    rw [Expr.allOfJson]
    exact yields_pure rfl
  | cons v vs =>
    rw [Expr.allOfJson]
    exact ((Expr.ofJson_wellFormed v).within _).bind fun e formed =>
      (Expr.allOfJson_wellFormed (index + 1) vs).bind fun es others =>
        yields_pure (Bool.and_eq_true_iff.mpr ⟨formed, others⟩)
termination_by sizeOf vs

theorem Expr.casesOfJson_wellFormed (index : Nat) (vs : List Json) :
    Yields (fun cases => Expr.wellFormedCases cases = true) (Expr.casesOfJson index vs) := by
  unfold Expr.casesOfJson
  split
  · exact yields_pure rfl
  · next binder body rest =>
    exact (((Pattern.ofJson_proper binder).within _).within _).bind fun p binder =>
      (((Expr.ofJson_wellFormed body).within _).within _).bind fun b body =>
        (Expr.casesOfJson_wellFormed (index + 1) rest).bind fun cases others =>
          yields_pure (by simp only [Expr.wellFormedCases, binder, body, others, Bool.and_self])
  · exact yields_throw _
termination_by sizeOf vs

end

theorem Document.load_wellFormed {text : String} {parse : String → Except String Json} {e : Expr}
    (loaded : Document.load text parse = .ok e) : e.wellFormed = true := by
  unfold Document.load at loaded
  split at loaded
  · cases loaded
  · next v parsed => exact Expr.ofJson_wellFormed v e (report_ok.mp loaded)

/-! ### Printing -/

mutual

theorem Pattern.text_ok : ∀ p : Pattern, p.proper = true → ∃ text, p.text = .ok text
  | .unit _, _ => ⟨_, rfl⟩
  | .int .., _ => ⟨_, rfl⟩
  | .wildcard _, _ => ⟨_, rfl⟩
  | .name .., _ => ⟨_, rfl⟩
  | .constructor _ _ arg, proper => by
    obtain ⟨inner, printed⟩ := Pattern.text_ok arg proper
    rw [Pattern.text, printed]
    exact ⟨_, rfl⟩
  | .tuple _ ps, proper => by
    obtain ⟨texts, printed⟩ := Pattern.textAll_ok ps proper
    rw [Pattern.text, printed]
    exact ⟨_, rfl⟩
  | .expr _, proper => by cases proper

theorem Pattern.textAll_ok : ∀ ps : List Pattern, Pattern.properAll ps = true →
    ∃ texts, Pattern.textAll ps = .ok texts
  | [], _ => ⟨_, rfl⟩
  | p :: ps, proper => by
    rw [Pattern.properAll, Bool.and_eq_true] at proper
    obtain ⟨first, printed⟩ := Pattern.text_ok p proper.1
    obtain ⟨rest, others⟩ := Pattern.textAll_ok ps proper.2
    rw [Pattern.textAll, printed, others]
    exact ⟨_, rfl⟩

end

theorem Pattern.textAt_ok {p : Pattern} (proper : p.proper = true) (level : Nat) :
    ∃ text, p.textAt level = .ok text := by
  obtain ⟨text, printed⟩ := Pattern.text_ok p proper
  cases p with
  | expr e => cases proper
  | _ => exact ⟨text, by rw [Pattern.textAt, printed]; simp⟩

mutual

/-- A well-formed tree has a text on every level. -/
theorem Expr.textAt_ok : ∀ (e : Expr) (level : Nat), e.wellFormed = true →
    ∃ text, e.textAt level = .ok text
  | .unit _, _, _ => ⟨_, rfl⟩
  | .int .., _, _ => ⟨_, rfl⟩
  | .name .., _, _ => ⟨_, rfl⟩
  | .tuple _ es, level, formed => by
    obtain ⟨elements, printed⟩ := Expr.textAll_ok es level formed
    rw [Expr.textAt, printed]
    exact ⟨_, rfl⟩
  | .binop _ _ l r, level, formed => by
    rw [Expr.wellFormed, Bool.and_eq_true] at formed
    obtain ⟨left, printedLeft⟩ := Expr.textAt_ok l level formed.1
    obtain ⟨right, printedRight⟩ := Expr.textAt_ok r level formed.2
    rw [Expr.textAt, printedLeft, printedRight]
    exact ⟨_, rfl⟩
  | .apply _ f a, level, formed => by
    rw [Expr.wellFormed, Bool.and_eq_true] at formed
    obtain ⟨func, printedFunc⟩ := Expr.textAt_ok f level formed.1
    obtain ⟨arg, printedArg⟩ := Expr.textAt_ok a level formed.2
    rw [Expr.textAt, printedFunc, printedArg]
    exact ⟨_, rfl⟩
  | .constructor _ _ a, level, formed => by
    obtain ⟨arg, printed⟩ := Expr.textAt_ok a level formed
    rw [Expr.textAt, printed]
    exact ⟨_, rfl⟩
  | .function _ p b, level, formed => by
    rw [Expr.wellFormed, Bool.and_eq_true] at formed
    obtain ⟨param, printedParam⟩ := Pattern.textAt_ok formed.1 level
    obtain ⟨body, printedBody⟩ := Expr.textAt_ok b level formed.2
    rw [Expr.textAt, printedParam, printedBody]
    exact ⟨_, rfl⟩
  | .cond _ p c a, level, formed => by
    rw [Expr.wellFormed, Bool.and_eq_true, Bool.and_eq_true] at formed
    obtain ⟨pred, printedPred⟩ := Expr.textAt_ok p level formed.1.1
    obtain ⟨cons, printedCons⟩ := Expr.textAt_ok c level formed.1.2
    obtain ⟨alt, printedAlt⟩ := Expr.textAt_ok a level formed.2
    rw [Expr.textAt, printedPred, printedCons, printedAlt]
    exact ⟨_, rfl⟩
  | .letIn _ p v b, level, formed => by
    rw [Expr.wellFormed, Bool.and_eq_true, Bool.and_eq_true] at formed
    obtain ⟨target, printedTarget⟩ := Pattern.textAt_ok formed.1.1 level
    obtain ⟨value, printedValue⟩ := Expr.textAt_ok v (level + 1) formed.1.2
    obtain ⟨body, printedBody⟩ := Expr.textAt_ok b level formed.2
    rw [Expr.textAt, printedValue, printedBody, printedTarget]
    exact ⟨_, rfl⟩
  | .matchOn _ e cases, level, formed => by
    rw [Expr.wellFormed, Bool.and_eq_true, Bool.and_eq_true] at formed
    obtain ⟨subject, printedSubject⟩ := Expr.textAt_ok e level formed.1.1
    obtain ⟨texts, printedCases⟩ := Expr.textCases_ok cases (level + 1) formed.2
    rw [Expr.textAt, printedCases, printedSubject]
    exact ⟨_, rfl⟩
  | .pattern _, _, formed => by cases formed

theorem Expr.textAll_ok : ∀ (es : List Expr) (level : Nat), Expr.wellFormedAll es = true →
    ∃ texts, Expr.textAll level es = .ok texts
  | [], _, _ => ⟨_, rfl⟩
  | e :: es, level, formed => by
    rw [Expr.wellFormedAll, Bool.and_eq_true] at formed
    obtain ⟨first, printedFirst⟩ := Expr.textAt_ok e level formed.1
    obtain ⟨rest, printedRest⟩ := Expr.textAll_ok es level formed.2
    rw [Expr.textAll, printedFirst, printedRest]
    exact ⟨_, rfl⟩

theorem Expr.textCases_ok : ∀ (cases : List (Pattern × Expr)) (level : Nat),
    Expr.wellFormedCases cases = true → ∃ text, Expr.textCases level cases = .ok text
  | [], _, _ => ⟨_, rfl⟩
  | (p, b) :: cases, level, formed => by
    rw [Expr.wellFormedCases, Bool.and_eq_true, Bool.and_eq_true] at formed
    obtain ⟨binder, printedBinder⟩ := Pattern.textAt_ok formed.1.1 level
    obtain ⟨body, printedBody⟩ := Expr.textAt_ok b level formed.1.2
    obtain ⟨rest, printedRest⟩ := Expr.textCases_ok cases level formed.2
    rw [Expr.textCases, printedBinder, printedBody, printedRest]
    exact ⟨_, rfl⟩

end

end Monotype
