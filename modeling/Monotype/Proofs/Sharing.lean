import Monotype.Proofs.Letters
import Monotype.Proofs.Outcome

/-!
# Types that share their names

When types are shown one after the other under the same names, a name stays with its variable and no
other variable gets it, so different types have different texts (`Ty.Consistent`). Solving equations
makes no names and labels of its own (`Subst.Plain.unify_clash`), so this holds of the types of a clash
(`Ty.shared_texts_tell`).
-/

namespace Monotype

open Names

namespace Ty

/-! ### One call after the other -/

/-- Shows types under names that they share, each with brackets or without. -/
def showEach : List (Bool × Ty) → StateM Names (List String)
  | [] => return []
  | (bracket, t) :: calls => do
    let text ← t.showWith bracket
    return text :: (← showEach calls)

/-- The texts when no names are given at first. -/
def sharedTexts (calls : List (Bool × Ty)) : List String := ((showEach calls).run []).1

def sharedNames (calls : List (Bool × Ty)) : Names := ((showEach calls).run []).2

/-- Each text is that of its type under the names. -/
def EachShownAs (calls : List (Bool × Ty)) (names : Names) (texts : List String) : Prop :=
  List.Forall₂ (fun call text => call.2.ShownAs call.1 names text) calls texts

theorem showEach_shows : ∀ calls : List (Bool × Ty), Shows (showEach calls) (EachShownAs calls)
  | [] => shows_pure fun _ => .nil
  | (bracket, t) :: calls => by
    rw [showEach]
    exact (showWith_shows t bracket).bind fun text => (showEach_shows calls).bind fun texts =>
      shows_pure fun last rest first => .cons first rest

theorem showEach_append (calls more : List (Bool × Ty)) (names : Names) :
    (showEach (calls ++ more) names).2 = (showEach more (showEach calls names).2).2 := by
  induction calls generalizing names with
  | nil => rfl
  | cons call calls ih => exact ih _

theorem shared_shown (calls : List (Bool × Ty)) :
    (sharedNames calls).Numbered ∧ EachShownAs calls (sharedNames calls) (sharedTexts calls) := by
  obtain ⟨texts, names, run, -, numbered, shown⟩ := showEach_shows calls [] numbered_nil
  have first : sharedTexts calls = texts := congrArg Prod.fst run
  have second : sharedNames calls = names := congrArg Prod.snd run
  rw [first, second]
  exact ⟨numbered, shown names (List.prefix_refl names)⟩

theorem sharedNames_grows (calls more : List (Bool × Ty)) :
    sharedNames calls <+: sharedNames (calls ++ more) := by
  have later : sharedNames (calls ++ more) = (showEach more (sharedNames calls)).2 :=
    showEach_append calls more []
  obtain ⟨texts, names, run, grows, -, -⟩ := showEach_shows more _ (shared_shown calls).1
  rw [later, run]
  exact grows

theorem ShownAs.eq_iff {t u : Ty} {bracket : Bool} {names : Names} {text text' : String}
    (shown : t.ShownAs bracket names text) (shown' : u.ShownAs bracket names text')
    (numbered : names.Numbered) (words : t.plain = true) (words' : u.plain = true) :
    text = text' ↔ t = u := by
  constructor
  · rintro rfl
    obtain ⟨owner, owns⟩ := numbered.exists_owner
    rw [← shown.rename_eq shown' numbered numbered words words' owns, shown.rename_owner owns]
  · rintro rfl
    exact String.toList_inj.mp (shown.same.trans shown'.same.symm)

theorem EachShownAs.at_place {calls : List (Bool × Ty)} {names : Names} {texts : List String}
    (shown : EachShownAs calls names texts) {i : Nat} {call : Bool × Ty}
    (place : calls[i]? = some call) :
    ∃ text, texts[i]? = some text ∧ call.2.ShownAs call.1 names text := by
  induction shown generalizing i with
  | nil => cases place
  | cons first rest ih =>
    cases i with
    | zero =>
      obtain rfl : _ = call := Option.some.inj place
      exact ⟨_, rfl, first⟩
    | succ i => exact ih place

/-- Under shared names, variables keep their names, no two have the same one, and so types have the
same text, in brackets or not, if and only if they are equal. -/
structure Consistent (calls : List (Bool × Ty)) : Prop where
  named : ∀ call ∈ calls, ∀ v ∈ call.2.vars, ∃ n, (sharedNames calls).lookup v = some n
  kept : ∀ more v n, (sharedNames calls).lookup v = some n →
    (sharedNames (calls ++ more)).lookup v = some n
  distinct : ∀ v w n, (sharedNames calls).lookup v = some n →
    (sharedNames calls).lookup w = some n → v = w
  tells : ∀ (i j : Nat) (bracket : Bool) (t u : Ty), calls[i]? = some (bracket, t) →
    calls[j]? = some (bracket, u) → t.plain = true → u.plain = true →
    ∃ text text', (sharedTexts calls)[i]? = some text ∧ (sharedTexts calls)[j]? = some text' ∧
      (text = text' ↔ t = u)

theorem consistent (calls : List (Bool × Ty)) : Consistent calls where
  named call member v inside := by
    obtain ⟨i, place⟩ := List.mem_iff_getElem?.mp member
    obtain ⟨text, -, shown⟩ := (shared_shown calls).2.at_place place
    exact shown.given v inside
  kept more v n found := lookup_of_grows (sharedNames_grows calls more) found
  distinct v w n left right := (shared_shown calls).1.lookup_injective left right
  tells i j bracket t u first second words words' := by
    obtain ⟨numbered, shown⟩ := shared_shown calls
    obtain ⟨text, left, this⟩ := shown.at_place first
    obtain ⟨text', right, that⟩ := shown.at_place second
    exact ⟨text, text', left, right, this.eq_iff that numbered words words'⟩

/-! ### Solving -/

mutual

theorem plain_inst {θ : Int → Ty} (values : ∀ v, (θ v).plain = true) : ∀ {t : Ty},
    t.plain = true → (t.inst θ).plain = true
  | .name _, words => words
  | .var v, _ => values v
  | .fn p r, words => by
    obtain ⟨param, result⟩ := plain_fn.mp words
    rw [inst]
    exact plain_fn.mpr ⟨plain_inst values param, plain_inst values result⟩
  | .tuple es, words => plainAll_inst values words
  | .sum l p, words => by
    obtain ⟨label, payload⟩ := plain_sum.mp words
    rw [inst]
    exact plain_sum.mpr ⟨label, plain_inst values payload⟩

theorem plainAll_inst {θ : Int → Ty} (values : ∀ v, (θ v).plain = true) : ∀ {ts : List Ty},
    plainAll ts = true → plainAll (instAll θ ts) = true
  | [], _ => rfl
  | t :: ts, words => by
    obtain ⟨head, tail⟩ := plainAll_cons.mp words
    rw [instAll]
    exact plainAll_cons.mpr ⟨plain_inst values head, plainAll_inst values tail⟩

end

end Ty

def Equation.Plain (e : Equation) : Prop := e.left.plain = true ∧ e.right.plain = true

def Subst.Plain (s : Subst) : Prop := ∀ entry ∈ s, entry.2.plain = true

def Step.Plain : Step → Prop
  | .done => True
  | .bind _ t => t.plain = true
  | .split parts => ∀ e ∈ parts, e.Plain
  | .clash c => Equation.Plain ⟨c.left, c.right⟩

namespace Equation

theorem bindVar_plain (v : Int) {t : Ty} (words : t.plain = true) : (bindVar v t).Plain := by
  unfold bindVar
  split
  · exact ⟨rfl, words⟩
  · exact words

theorem zipWith_plain : ∀ {as bs : List Ty}, Ty.plainAll as = true → Ty.plainAll bs = true →
    ∀ e ∈ List.zipWith Equation.mk as bs, e.Plain
  | [], _, _, _ => by simp
  | _ :: _, [], _, _ => by simp
  | a :: as, b :: bs, left, right => by
    obtain ⟨head, tail⟩ := Ty.plainAll_cons.mp left
    obtain ⟨head', tail'⟩ := Ty.plainAll_cons.mp right
    exact List.forall_mem_cons.mpr ⟨⟨head, head'⟩, zipWith_plain tail tail'⟩

theorem step_plain {e : Equation} (words : e.Plain) : e.step.Plain := by
  obtain ⟨l, r⟩ := e
  unfold step
  dsimp only
  split
  · split
    · trivial
    · exact bindVar_plain _ words.2
  · exact bindVar_plain _ words.1
  · split
    · trivial
    · exact words
  · obtain ⟨param, result⟩ := Ty.plain_fn.mp words.1
    obtain ⟨param', result'⟩ := Ty.plain_fn.mp words.2
    exact List.forall_mem_cons.mpr ⟨⟨param, param'⟩, List.forall_mem_singleton.mpr ⟨result, result'⟩⟩
  · split
    · exact zipWith_plain words.1 words.2
    · exact words
  · split
    · exact List.forall_mem_singleton.mpr ⟨(Ty.plain_sum.mp words.1).2, (Ty.plain_sum.mp words.2).2⟩
    · exact words
  · exact words

end Equation

namespace Task

def Plain : Task → Prop
  | .solve _ now => now.Plain
  | .close _ => True

theorem assignAll_plain {v : Int} {t : Ty} (value : t.plain = true) {agenda : List Task}
    (words : ∀ task ∈ agenda, task.Plain) : ∀ task ∈ assignAll v t agenda, task.Plain := by
  have values (w : Int) : (Ty.assign v t w).plain = true := by
    unfold Ty.assign
    split
    · exact value
    · rfl
  refine List.forall_mem_map.mpr fun task member => ?_
  cases task with
  | solve asked now =>
    obtain ⟨left, right⟩ := words _ member
    exact ⟨Ty.plain_inst values left, Ty.plain_inst values right⟩
  | close asked => trivial

theorem solveAll_plain {agenda : List Task} (words : ∀ task ∈ agenda, task.Plain) :
    (solveAll agenda).found.Plain ∧
      ∀ c, (solveAll agenda).clash = some c → Equation.Plain ⟨c.left, c.right⟩ := by
  fun_induction solveAll agenda with
  | case1 => exact ⟨fun _ => by simp, fun _ => by simp⟩
  | case2 e rest ih => exact ih (List.forall_mem_cons.mp words).2
  | case3 asked now rest done ih =>
    rw [List.forall_mem_cons] at words
    exact ih (List.forall_mem_cons.mpr ⟨trivial, words.2⟩)
  | case4 asked now rest v t bound ih =>
    rw [List.forall_mem_cons] at words
    -- The replacement is a side of the equation, and is made in the rest of the agenda.
    have value := Equation.step_plain words.1
    rw [bound] at value
    obtain ⟨found, clash⟩ :=
      ih (List.forall_mem_cons.mpr ⟨trivial, assignAll_plain value words.2⟩)
    exact ⟨List.forall_mem_cons.mpr ⟨value, found⟩, clash⟩
  | case5 asked now rest parts split ih =>
    rw [List.forall_mem_cons] at words
    have pieces := Equation.step_plain words.1
    rw [split] at pieces
    exact ih (List.forall_mem_append.mpr ⟨List.forall_mem_map.mpr pieces,
      List.forall_mem_cons.mpr ⟨trivial, words.2⟩⟩)
  | case6 asked now rest d step =>
    have sides := Equation.step_plain (List.forall_mem_cons.mp words).1
    rw [step] at sides
    refine ⟨fun _ => by simp, fun c same => ?_⟩
    obtain rfl : d = c := Option.some.inj same
    exact sides

end Task

namespace Subst

variable {s : Subst}

theorem Plain.follow (known : s.Plain) (depth : Nat) (v : Int) :
    (s.follow depth v).plain = true := by
  induction depth generalizing v with
  | zero => rfl
  | succ depth ih =>
    rw [follow_succ]
    cases found : s.get? v with
    | none => rfl
    | some t => exact Ty.plain_inst ih (known _ (mem_of_get? found))

theorem Plain.resolve (known : s.Plain) {e : Equation} (words : e.Plain) : (e.resolve s).Plain :=
  ⟨Ty.plain_inst (known.follow _) words.1, Ty.plain_inst (known.follow _) words.2⟩

theorem Plain.solve (known : s.Plain) {e : Equation} (words : e.Plain) : (s.solve e).found.Plain ∧
    ∀ c, (s.solve e).clash = some c → Equation.Plain ⟨c.left, c.right⟩ := by
  apply Task.solveAll_plain
  rw [List.forall_mem_singleton]
  exact known.resolve words

theorem Plain.unify_clash (known : s.Plain) {es : List Equation} (words : ∀ e ∈ es, e.Plain)
    {c : Clash} (clash : (s.unify es).clash = some c) : Equation.Plain ⟨c.left, c.right⟩ := by
  induction es generalizing s with
  | nil => cases clash
  | cons e es ih =>
    rw [List.forall_mem_cons] at words
    obtain ⟨found, sides⟩ := known.solve words.1
    rw [unify_cons] at clash
    cases first : (s.solve e).clash with
    | some d =>
      rw [first] at clash
      exact sides c (first.trans clash)
    | none =>
      rw [first] at clash
      exact ih (List.forall_mem_append.mpr ⟨known, found⟩) words.2 clash

end Subst

/-! ### The types of a clash -/

theorem Clash.texts_eq (c : Clash) :
    Ty.sharedTexts [(false, c.left), (false, c.right)] = [c.texts.1, c.texts.2] := rfl

theorem Clash.texts_ne {c : Clash} (fits : c.Fits) (words : Equation.Plain ⟨c.left, c.right⟩) :
    c.texts.1 ≠ c.texts.2 := by
  have unequal : c.left ≠ c.right := by
    have unequal := fits.inst_ne .var
    rwa [Ty.inst_var, Ty.inst_var] at unequal
  obtain ⟨text, text', first, second, tells⟩ :=
    (Ty.consistent [(false, c.left), (false, c.right)]).tells 0 1 false c.left c.right rfl rfl
      words.1 words.2
  rw [texts_eq] at first second
  obtain rfl : c.texts.1 = text := Option.some.inj first
  obtain rfl : c.texts.2 = text' := Option.some.inj second
  exact fun same => unequal (tells.mp same)

/-- Types that are shown under the same names are told apart by their texts, and so are the types of
every clash. -/
theorem Ty.shared_texts_tell :
    (∀ calls : List (Bool × Ty), Consistent calls) ∧
    ∀ (span : Option Span) (es : List Equation) (s s' : Session) (problem : Problem),
      s.subst.Plain → (∀ e ∈ es, e.Plain) → Infer.unify span es s = .error problem s' →
      ∃ c, problem = .clash c span ∧ c.texts.1 ≠ c.texts.2 := by
  refine ⟨consistent, fun span es s s' problem known words run => ?_⟩
  obtain ⟨c, clash, rfl, -⟩ := Infer.unify_error.mp run
  exact ⟨c, rfl, c.texts_ne (Subst.unify_clash clash) (known.unify_clash words clash)⟩

/-- Functions shown in both directions, and a variable inside its own value, found out after a
replacement was made. -/
theorem Ty.shared_texts_tell_circular :
    let calls : List (Bool × Ty) :=
      [(false, .fn (.var 5) (.var 3)), (true, .var 3), (false, .fn (.var 3) (.var 5))]
    let s : Session := { subst := [(1, .tuple [.var 2, .var 3])] }
    let es : List Equation := [⟨.var 3, .sum "A" (.var 1)⟩]
    let c : Clash := ⟨.circular, .var 3, .sum "A" (.tuple [.var 2, .var 3])⟩
    sharedTexts calls = ["a -> b", "b", "b -> a"] ∧ Consistent calls ∧
    (∃ s', Infer.unify none es s = .error (.clash c none) s') ∧
    c.texts = ("a", "A[(b, a)]") ∧ c.texts.1 ≠ c.texts.2 := by
  intro calls s es c
  have clash : (s.subst.unify es).clash = some c := by cbv
  have run : Infer.unify none es s = .error (.clash c none) _ :=
    Infer.unify_error.mpr ⟨c, clash, rfl, rfl⟩
  have known : s.subst.Plain := List.forall_mem_singleton.mpr rfl
  have words : ∀ e ∈ es, e.Plain := List.forall_mem_singleton.mpr ⟨rfl, rfl⟩
  obtain ⟨d, same, unequal⟩ := shared_texts_tell.2 none es s _ _ known words run
  obtain rfl : c = d := (Problem.clash.inj same).1
  exact ⟨by cbv, shared_texts_tell.1 calls, ⟨_, run⟩, by cbv, unequal⟩

/-- A label with brackets in it can make the types of a clash look the same. -/
example :
    let es : List Equation := [⟨.fn (.sum "A" .unit) (.sum "B" .int), .sum "A[Unit] -> B" .int⟩]
    (Subst.unify [] es).clash.map Clash.texts = some ("A[Unit] -> B[Int]", "A[Unit] -> B[Int]") := by
  cbv

end Monotype
