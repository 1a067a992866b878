import Monotype.Proofs.Collect
import Monotype.Proofs.Words
import Monotype.Tree.Indent

/-!
# Printing at a level of indentation

Printing keeps the level at hand balanced, so its text is that of a tree at this level
(`Expr.print_follows`), and a deeper level moves all lines but the first to the right
(`Expr.textAt_add`). Main theorem: `Expr.print_indented`.
-/

namespace Monotype

/-! ### Texts that are indented -/

namespace Text

/-- Whether the text has no ends of lines. -/
def unbroken (text : String) : Bool := '\n' ∉ text.toList

/-- The character, with as many blanks behind it as `k` levels have if it ends a line. -/
def indentChar (k : Nat) (c : Char) : List Char :=
  if c = '\n' then '\n' :: List.replicate (2 * k) ' ' else [c]

/-- The text with two blanks for each of `k` levels behind every end of a line. -/
def indent (k : Nat) (text : String) : String :=
  String.ofList (text.toList.flatMap (indentChar k))

theorem toList_indent (k : Nat) (text : String) :
    (indent k text).toList = text.toList.flatMap (indentChar k) := String.toList_ofList

theorem indent_append (k : Nat) (s t : String) : indent k (s ++ t) = indent k s ++ indent k t := by
  apply String.toList_inj.mp
  simp only [toList_indent, String.toList_append, List.flatMap_append]

theorem flatMap_indentChar_eq_self (k : Nat) {cs : List Char} (unbroken : '\n' ∉ cs) :
    cs.flatMap (indentChar k) = cs := by
  induction cs with
  | nil => rfl
  | cons c cs ih =>
    rw [List.mem_cons, not_or] at unbroken
    rw [List.flatMap_cons, ih unbroken.2, indentChar, if_neg (Ne.symm unbroken.1)]
    rfl

theorem indent_eq_self (k : Nat) {text : String} (unbroken : unbroken text = true) :
    indent k text = text := by
  apply String.toList_inj.mp
  rw [toList_indent, flatMap_indentChar_eq_self k (of_decide_eq_true unbroken)]

theorem unbroken_toString (n : Int) : unbroken (toString n) = true := by
  have digits (m : Nat) : '\n' ∉ (toString m).toList := not_mem_toString (by decide) m
  apply decide_eq_true
  cases n with
  | ofNat m => exact digits m
  | negSucc m =>
    rw [toList_negSucc, List.mem_cons, not_or]
    exact ⟨by decide, digits (m + 1)⟩

theorem toList_newLine (level : Nat) :
    (newLine level).toList = '\n' :: List.replicate (2 * level) ' ' := by
  rw [newLine, String.toList_append, String.toList_join]
  induction level with
  | zero => rfl
  | succ level ih =>
    rw [List.replicate_succ', List.flatMap_append, ← List.append_assoc, ih, Nat.mul_succ,
      List.replicate_add]
    rfl

theorem indent_newLine (k level : Nat) : indent k (newLine level) = newLine (level + k) := by
  apply String.toList_inj.mp
  have blanks : '\n' ∉ List.replicate (2 * level) ' ' := by simp
  rw [toList_indent, toList_newLine, toList_newLine, List.flatMap_cons,
    flatMap_indentChar_eq_self k blanks, indentChar, if_pos rfl, List.cons_append,
    List.replicate_append_replicate]
  congr 2
  omega

theorem indent_intercalate (k : Nat) {s : String} (unbroken : unbroken s = true)
    (texts : List String) :
    indent k (s.intercalate texts) = s.intercalate (texts.map (indent k)) := by
  induction texts with
  | nil => rfl
  | cons text texts ih =>
    cases texts with
    | nil => simp only [String.intercalate_singleton, List.map_cons, List.map_nil]
    | cons next texts =>
      rw [String.intercalate_cons_cons, indent_append, indent_append, indent_eq_self k unbroken, ih]
      exact (String.intercalate_cons_cons ..).symm

end Text

/-! ### Trees that are indented -/

mutual

/-- Whether no name, label or operator has an end of a line. -/
def Expr.unbroken : Expr → Bool
  | .unit _ | .int .. => true
  | .name _ x => Text.unbroken x
  | .tuple _ es => Expr.unbrokenAll es
  | .binop _ operator l r => Text.unbroken operator && l.unbroken && r.unbroken
  | .apply _ f a => f.unbroken && a.unbroken
  | .constructor _ label a => Text.unbroken label && a.unbroken
  | .function _ p b => p.unbroken && b.unbroken
  | .cond _ p c a => p.unbroken && c.unbroken && a.unbroken
  | .letIn _ t v b => t.unbroken && v.unbroken && b.unbroken
  | .matchOn _ s cases => s.unbroken && Expr.unbrokenCases cases
  | .pattern p => p.unbroken

def Pattern.unbroken : Pattern → Bool
  | .unit _ | .int .. | .wildcard _ => true
  | .name _ x => Text.unbroken x
  | .constructor _ label a => Text.unbroken label && a.unbroken
  | .tuple _ ps => Pattern.unbrokenAll ps
  | .expr e => e.unbroken

def Expr.unbrokenAll : List Expr → Bool
  | [] => true
  | e :: es => e.unbroken && Expr.unbrokenAll es

def Pattern.unbrokenAll : List Pattern → Bool
  | [] => true
  | p :: ps => p.unbroken && Pattern.unbrokenAll ps

def Expr.unbrokenCases : List (Pattern × Expr) → Bool
  | [] => true
  | (binder, body) :: cases => binder.unbroken && body.unbroken && Expr.unbrokenCases cases

end

mutual

/-- Whether no expression stands inside a pattern. One may stand in the place of a whole pattern,
and a pattern in the place of an expression. -/
def Expr.printable : Expr → Bool
  | .unit _ | .int .. | .name .. => true
  | .tuple _ es => Expr.printableAll es
  | .binop _ _ l r => l.printable && r.printable
  | .apply _ f a => f.printable && a.printable
  | .constructor _ _ a => a.printable
  | .function _ p b => p.printable && b.printable
  | .cond _ p c a => p.printable && c.printable && a.printable
  | .letIn _ t v b => t.printable && v.printable && b.printable
  | .matchOn _ s cases => s.printable && Expr.printableCases cases
  | .pattern p => p.printable

def Pattern.printable : Pattern → Bool
  | .expr e => e.printable
  | p => p.proper

def Expr.printableAll : List Expr → Bool
  | [] => true
  | e :: es => e.printable && Expr.printableAll es

def Expr.printableCases : List (Pattern × Expr) → Bool
  | [] => true
  | (binder, body) :: cases => binder.printable && body.printable && Expr.printableCases cases

end

/-- Both succeed, and the second result is the first one under `f`. -/
def Carries {α β : Type} (f : α → β) (x : Except Misuse α) (y : Except Misuse β) : Prop :=
  ∃ a, x = .ok a ∧ y = .ok (f a)

namespace Carries

variable {α β γ δ : Type} {f : α → β} {g : γ → δ}

theorem pure {a : α} {b : β} (carried : f a = b) : Carries f (Pure.pure a) (Pure.pure b) :=
  ⟨a, rfl, congrArg Except.ok carried.symm⟩

theorem bind {x : Except Misuse α} {y : Except Misuse β} {m : α → Except Misuse γ}
    {n : β → Except Misuse δ} (first : Carries f x y) (rest : ∀ a, Carries g (m a) (n (f a))) :
    Carries g (x >>= m) (y >>= n) := by
  obtain ⟨a, rfl, rfl⟩ := first
  exact rest a

end Carries

section

open Text

variable (k : Nat)

mutual

theorem Pattern.text_indented : ∀ p : Pattern, p.proper = true → p.unbroken = true →
    Carries (indent k) p.text p.text
  | .unit _, _, _ => .pure (indent_eq_self k (by decide))
  | .int _ n, _, _ => .pure (indent_eq_self k (unbroken_toString n))
  | .wildcard _, _, _ => .pure (indent_eq_self k (by decide))
  | .name .., _, unbroken => .pure (indent_eq_self k unbroken)
  | .constructor _ label arg, proper, unbroken => by
    rw [Pattern.unbroken, Bool.and_eq_true] at unbroken
    have kept := indent_eq_self k unbroken.1
    rw [Pattern.text]
    refine (Pattern.text_indented arg proper unbroken.2).bind fun inner => .pure ?_
    cases arg <;> simp (disch := decide) only [indent_append, indent_eq_self, kept]
  | .tuple _ ps, proper, unbroken => by
    rw [Pattern.text]
    refine (Pattern.textAll_indented ps proper unbroken).bind fun texts => .pure ?_
    simp (disch := decide) only [indent_append, indent_eq_self, indent_intercalate]

theorem Pattern.textAll_indented : ∀ ps : List Pattern, Pattern.properAll ps = true →
    Pattern.unbrokenAll ps = true →
    Carries (List.map (indent k)) (Pattern.textAll ps) (Pattern.textAll ps)
  | [], _, _ => .pure rfl
  | p :: ps, proper, unbroken => by
    rw [Pattern.properAll, Bool.and_eq_true] at proper
    rw [Pattern.unbrokenAll, Bool.and_eq_true] at unbroken
    rw [Pattern.textAll]
    exact (Pattern.text_indented p proper.1 unbroken.1).bind fun first =>
      (Pattern.textAll_indented ps proper.2 unbroken.2).bind fun texts => .pure rfl

end

mutual

/-- A tree printed `k` levels deeper has its text indented by `k` levels. -/
theorem Expr.textAt_add : ∀ (e : Expr) (level : Nat), e.printable = true → e.unbroken = true →
    Carries (indent k) (e.textAt level) (e.textAt (level + k))
  | .unit _, _, _, _ => .pure (indent_eq_self k (by decide))
  | .int _ n, _, _, _ => .pure (indent_eq_self k (unbroken_toString n))
  | .name .., _, _, unbroken => .pure (indent_eq_self k unbroken)
  | .tuple _ es, level, printable, unbroken => by
    rw [Expr.textAt, Expr.textAt]
    refine (Expr.textAll_add es level printable unbroken).bind fun texts => .pure ?_
    simp (disch := decide) only [indent_append, indent_eq_self, indent_intercalate]
  | .binop _ operator l r, level, printable, unbroken => by
    simp only [Expr.printable, Expr.unbroken, Bool.and_eq_true] at printable unbroken
    have kept := indent_eq_self k unbroken.1.1
    rw [Expr.textAt, Expr.textAt]
    refine (Expr.textAt_add l level printable.1 unbroken.1.2).bind fun left =>
      (Expr.textAt_add r level printable.2 unbroken.2).bind fun right => .pure ?_
    simp (disch := decide) only [indent_append, indent_eq_self, kept]
  | .apply _ f a, level, printable, unbroken => by
    simp only [Expr.printable, Expr.unbroken, Bool.and_eq_true] at printable unbroken
    rw [Expr.textAt, Expr.textAt]
    refine (Expr.textAt_add f level printable.1 unbroken.1).bind fun func =>
      (Expr.textAt_add a level printable.2 unbroken.2).bind fun arg => .pure ?_
    simp (disch := decide) only [indent_append, indent_eq_self]
  | .constructor _ label a, level, printable, unbroken => by
    rw [Expr.unbroken, Bool.and_eq_true] at unbroken
    have kept := indent_eq_self k unbroken.1
    rw [Expr.textAt, Expr.textAt]
    refine (Expr.textAt_add a level printable unbroken.2).bind fun arg => .pure ?_
    simp (disch := decide) only [indent_append, indent_eq_self, kept]
  | .function _ p b, level, printable, unbroken => by
    simp only [Expr.printable, Expr.unbroken, Bool.and_eq_true] at printable unbroken
    rw [Expr.textAt, Expr.textAt]
    refine (Pattern.textAt_add p level printable.1 unbroken.1).bind fun param =>
      (Expr.textAt_add b level printable.2 unbroken.2).bind fun body => .pure ?_
    simp (disch := decide) only [indent_append, indent_eq_self]
  | .cond _ p c a, level, printable, unbroken => by
    simp only [Expr.printable, Expr.unbroken, Bool.and_eq_true] at printable unbroken
    rw [Expr.textAt, Expr.textAt]
    refine (Expr.textAt_add p level printable.1.1 unbroken.1.1).bind fun pred =>
      (Expr.textAt_add c level printable.1.2 unbroken.1.2).bind fun cons =>
      (Expr.textAt_add a level printable.2 unbroken.2).bind fun alt => .pure ?_
    simp (disch := decide) only [indent_append, indent_eq_self]
  | .letIn _ t v b, level, printable, unbroken => by
    simp only [Expr.printable, Expr.unbroken, Bool.and_eq_true] at printable unbroken
    rw [Expr.textAt, Expr.textAt, Nat.add_right_comm]
    refine (Expr.textAt_add v (level + 1) printable.1.2 unbroken.1.2).bind fun value =>
      (Expr.textAt_add b level printable.2 unbroken.2).bind fun body =>
      (Pattern.textAt_add t level printable.1.1 unbroken.1.1).bind fun target => .pure ?_
    simp (disch := decide) only [indent_append, indent_eq_self, indent_newLine]
  | .matchOn _ s cases, level, printable, unbroken => by
    simp only [Expr.printable, Expr.unbroken, Bool.and_eq_true] at printable unbroken
    rw [Expr.textAt, Expr.textAt, Nat.add_right_comm]
    refine (Expr.textCases_add cases (level + 1) printable.2 unbroken.2).bind fun cases =>
      (Expr.textAt_add s level printable.1 unbroken.1).bind fun subject => .pure ?_
    simp (disch := decide) only [indent_append, indent_eq_self]
  | .pattern p, level, printable, unbroken => Pattern.textAt_add p level printable unbroken

theorem Pattern.textAt_add (p : Pattern) (level : Nat) (printable : p.printable = true)
    (unbroken : p.unbroken = true) :
    Carries (indent k) (p.textAt level) (p.textAt (level + k)) := by
  cases p with
  | expr e => exact Expr.textAt_add e level printable unbroken
  | _ => exact Pattern.text_indented k _ printable unbroken

theorem Expr.textAll_add : ∀ (es : List Expr) (level : Nat), Expr.printableAll es = true →
    Expr.unbrokenAll es = true →
    Carries (List.map (indent k)) (Expr.textAll level es) (Expr.textAll (level + k) es)
  | [], _, _, _ => .pure rfl
  | e :: es, level, printable, unbroken => by
    rw [Expr.printableAll, Bool.and_eq_true] at printable
    rw [Expr.unbrokenAll, Bool.and_eq_true] at unbroken
    rw [Expr.textAll, Expr.textAll]
    exact (Expr.textAt_add e level printable.1 unbroken.1).bind fun first =>
      (Expr.textAll_add es level printable.2 unbroken.2).bind fun texts => .pure rfl

theorem Expr.textCases_add : ∀ (cases : List (Pattern × Expr)) (level : Nat),
    Expr.printableCases cases = true → Expr.unbrokenCases cases = true →
    Carries (indent k) (Expr.textCases level cases) (Expr.textCases (level + k) cases)
  | [], _, _, _ => .pure rfl
  | (binder, body) :: cases, level, printable, unbroken => by
    simp only [Expr.printableCases, Expr.unbrokenCases, Bool.and_eq_true] at printable unbroken
    rw [Expr.textCases, Expr.textCases]
    refine (Pattern.textAt_add binder level printable.1.1 unbroken.1.1).bind fun p =>
      (Expr.textAt_add body level printable.1.2 unbroken.1.2).bind fun b =>
      (Expr.textCases_add cases level printable.2 unbroken.2).bind fun others => .pure ?_
    simp (disch := decide) only [indent_append, indent_eq_self, indent_newLine]

end

end

/-! ### The level at hand -/

namespace Print

variable {α β : Type} {level : Nat}

theorem deeper_run (x : Print α) (level : Int) :
    Print.deeper x level = match x (level + 1) with
      | .ok a left => .ok a (left - 1)
      | .error misuse left => .error misuse left := by
  rw [Print.deeper]
  cases run : x (level + 1) <;> simp only [modify, modifyGet, MonadStateOf.modifyGet,
    EStateM.modifyGet, Bind.bind, EStateM.bind, Pure.pure, EStateM.pure, run]

/-- Printing from the level ends as the result says, and back at the level if it succeeds. -/
def Follows (level : Nat) (x : Print α) : Except Misuse α → Prop
  | .ok a => x level = .ok a level
  | .error misuse => ∃ left, x level = .error misuse left

namespace Follows

theorem pure (a : α) : Follows level (Pure.pure a) (Pure.pure a) := rfl

theorem lift (result : Except Misuse α) : Follows level (Print.lift result) result :=
  match result with
  | .ok _ => rfl
  | .error _ => ⟨level, rfl⟩

theorem bind {x : Print α} {result : Except Misuse α} {m : α → Print β} {n : α → Except Misuse β}
    (first : Follows level x result) (rest : ∀ a, Follows level (m a) (n a)) :
    Follows level (x >>= m) (result >>= n) := by
  cases result with
  | error misuse =>
    obtain ⟨left, run⟩ := first
    exact ⟨left, by simp only [Bind.bind, EStateM.bind, run]⟩
  | ok a =>
    have run : (x >>= m) level = m a level := by
      rw [Follows] at first
      simp only [Bind.bind, EStateM.bind, first]
    have rest : Follows level (m a) (Except.ok a >>= n) := rest a
    cases ended : Except.ok a >>= n with
    | ok b =>
      rw [ended] at rest
      exact run.trans rest
    | error misuse =>
      rw [ended] at rest
      obtain ⟨left, stopped⟩ := rest
      exact ⟨left, run.trans stopped⟩

theorem startLine {m : String → Print α} {result : Except Misuse α}
    (rest : Follows level (m (newLine level)) result) :
    Follows level (Print.startLine >>= m) result := rest

theorem deeper {x : Print α} {result : Except Misuse α} (inner : Follows (level + 1) x result) :
    Follows level (Print.deeper x) result := by
  cases result with
  | ok a =>
    have run : x ((level : Int) + 1) = .ok a ((level : Int) + 1) := inner
    rw [Follows, deeper_run, run]
    exact congrArg (EStateM.Result.ok a) (Int.add_sub_cancel ..)
  | error misuse =>
    obtain ⟨left, run⟩ := inner
    have run : x ((level : Int) + 1) = .error misuse left := run
    exact ⟨left, by rw [deeper_run, run]⟩

end Follows

end Print

mutual

/-- Printing from a level gives the text on the level. -/
theorem Expr.print_follows : ∀ (e : Expr) (level : Nat), Print.Follows level e.print (e.textAt level)
  | .unit _, _ => .pure _
  | .int .., _ => .pure _
  | .name .., _ => .pure _
  | .tuple _ es, level => by
    rw [Expr.print, Expr.textAt]
    exact (Expr.printAll_follows es level).bind fun _ => .pure _
  | .binop _ _ l r, level => by
    rw [Expr.print, Expr.textAt]
    exact (Expr.print_follows l level).bind fun _ => (Expr.print_follows r level).bind fun _ => .pure _
  | .apply _ f a, level => by
    rw [Expr.print, Expr.textAt]
    exact (Expr.print_follows f level).bind fun _ => (Expr.print_follows a level).bind fun _ => .pure _
  | .constructor _ _ a, level => by
    rw [Expr.print, Expr.textAt]
    exact (Expr.print_follows a level).bind fun _ => .pure _
  | .function _ p b, level => by
    rw [Expr.print, Expr.textAt]
    exact (Pattern.print_follows p level).bind fun _ =>
      (Expr.print_follows b level).bind fun _ => .pure _
  | .cond _ p c a, level => by
    rw [Expr.print, Expr.textAt]
    exact (Expr.print_follows p level).bind fun _ => (Expr.print_follows c level).bind fun _ =>
      (Expr.print_follows a level).bind fun _ => .pure _
  | .letIn _ t v b, level => by
    rw [Expr.print, Expr.textAt]
    exact (Expr.print_follows v (level + 1)).deeper.bind fun _ =>
      (Expr.print_follows b level).bind fun _ => .startLine
        ((Pattern.print_follows t level).bind fun _ => .pure _)
  | .matchOn _ s cases, level => by
    rw [Expr.print, Expr.textAt]
    have lines : Print.Follows level
        (Print.deeper (Print.startLine >>= fun line => Expr.printCases line cases))
        (Expr.textCases (level + 1) cases) :=
      .deeper (.startLine (Expr.printCases_follows cases (level + 1)))
    exact lines.bind fun _ => (Expr.print_follows s level).bind fun _ => .pure _
  | .pattern p, level => Pattern.print_follows p level

theorem Pattern.print_follows (p : Pattern) (level : Nat) :
    Print.Follows level p.print (p.textAt level) := by
  have shown : Print.Follows level (Print.lift p.text) p.text := .lift _
  cases p with
  | expr e => exact Expr.print_follows e level
  | _ => exact shown

theorem Expr.printAll_follows : ∀ (es : List Expr) (level : Nat),
    Print.Follows level (Expr.printAll es) (Expr.textAll level es)
  | [], _ => .pure _
  | e :: es, level => by
    rw [Expr.printAll, Expr.textAll]
    exact (Expr.print_follows e level).bind fun _ =>
      (Expr.printAll_follows es level).bind fun _ => .pure _

/-- Cases are printed behind the start of a line of the level at hand. -/
theorem Expr.printCases_follows : ∀ (cases : List (Pattern × Expr)) (level : Nat),
    Print.Follows level (Expr.printCases (newLine level) cases) (Expr.textCases level cases)
  | [], _ => .pure _
  | (binder, body) :: cases, level => by
    rw [Expr.printCases, Expr.textCases]
    exact (Pattern.print_follows binder level).bind fun _ =>
      (Expr.print_follows body level).bind fun _ =>
      (Expr.printCases_follows cases level).bind fun _ => .pure _

end

/-- Where no name, label or operator breaks a line, an expression printed from the level `k` leaves
the level at `k`, and its text is that of the level 0 with `2 * k` blanks behind each end of a
line. -/
theorem Expr.print_indented {e : Expr} (printable : e.printable = true) (unbroken : e.unbroken = true)
    (k : Nat) :
    ∃ text, e.print (0 : Nat) = .ok text (0 : Nat) ∧ e.print k = .ok (Text.indent k text) k := by
  obtain ⟨text, shallow, deep⟩ := Expr.textAt_add k e 0 printable unbroken
  rw [Nat.zero_add] at deep
  have start := Expr.print_follows e 0
  have moved := Expr.print_follows e k
  rw [shallow, Print.Follows] at start
  rw [deep, Print.Follows] at moved
  exact ⟨text, start, moved⟩

/-- A match inside the value of a let, with a let inside its case, two levels deep. -/
theorem Expr.print_indented_nested :
    let tree := Expr.letIn .origin (.name .origin "x")
      (.matchOn .origin (.name .origin "y")
        [(.constructor .origin "Some" (.name .origin "z"),
          .letIn .origin (.wildcard .origin) (.unit .origin) (.name .origin "z"))])
      (.name .origin "x")
    tree.printable = true ∧ tree.unbroken = true ∧
      tree.print 2 = .ok
        "let x = match y with\n        | Some z -> let _ = () in\n        z in\n    x" 2 := by
  intro tree
  have printable : tree.printable = true := by decide
  have unbroken : tree.unbroken = true := by decide
  obtain ⟨text, shallow, deep⟩ := Expr.print_indented printable unbroken 2
  have run : tree.print (0 : Nat) = .ok
      "let x = match y with\n    | Some z -> let _ = () in\n    z in\nx" (0 : Nat) := by
    subst tree
    cbv
  rw [run] at shallow
  cases shallow
  exact ⟨printable, unbroken, deep⟩

end Monotype
