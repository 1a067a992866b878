import Monotype.Proofs.Legible
import Monotype.Proofs.Naming
import Monotype.Proofs.Variant

/-!
# Texts tell types apart

Showing a type only adds names, each of them by its place (`Names.Shows`, `Names.Numbered`), and no two
variables get the same name. So the text of a type is that of the type with names in the place of its
variables (`Ty.showWith_shows`), and it tells types apart up to the ids of their variables
(`Ty.text_eq_iff_variant`).
-/

namespace Monotype

namespace Names

variable {names later : Names} {v w : Int} {n : String} {α β : Type}

/-! ### Letters -/

theorem toList_nth (k : Nat) : (nth k).toList =
    Char.ofNat (97 + k % 26) :: if k < 26 then [] else (toString (k / 26)).toList := by
  unfold nth
  split <;> simp

theorem letter_injective : ∀ i < 26, ∀ j < 26,
    Char.ofNat (97 + i) = Char.ofNat (97 + j) → i = j := by
  decide

theorem letter_lower : ∀ i < 26, (Char.ofNat (97 + i)).isLower = true := by
  decide

theorem nth_injective : Function.Injective nth := by
  intro i j same
  have chars := congrArg String.toList same
  rw [toList_nth, toList_nth, List.cons.injEq] at chars
  obtain ⟨letter, number⟩ := chars
  have column : i % 26 = j % 26 :=
    letter_injective _ (Nat.mod_lt _ (by decide)) _ (Nat.mod_lt _ (by decide)) letter
  have nonempty (k : Nat) : (toString k).toList ≠ [] := by
    rw [Ne, String.toList_eq_nil_iff]
    exact Nat.repr_ne_empty
  split at number <;> split at number
  · omega
  · exact absurd number.symm (nonempty _)
  · exact absurd number (nonempty _)
  · have row := Text.toString_toList_injective number
    omega

/-! ### Names by place -/

/-- The names are those that come first, in their order. -/
def Numbered (names : Names) : Prop := ∀ k v n, names[k]? = some (v, n) → n = nth k

theorem numbered_nil : Numbered [] := by
  intro k v n found
  cases found

theorem Numbered.concat (numbered : names.Numbered) (v : Int) :
    Numbered (names ++ [(v, nth names.length)]) := by
  intro k w n found
  rw [List.getElem?_append] at found
  split at found
  · exact numbered k w n found
  · obtain ⟨place, same⟩ := List.getElem?_eq_some_iff.mp found
    have last : k = names.length := by
      rw [List.length_singleton] at place
      omega
    subst last
    simpa using congrArg Prod.snd same.symm

theorem Numbered.exists_place (numbered : names.Numbered) (found : names.lookup v = some n) :
    ∃ k, names[k]? = some (v, n) ∧ n = nth k := by
  obtain ⟨before, after, rfl, -⟩ := List.lookup_eq_some_iff.mp found
  have place : (before ++ (v, n) :: after)[before.length]? = some (v, n) := by simp
  exact ⟨before.length, place, numbered _ _ _ place⟩

/-- No two variables have the same name. -/
theorem Numbered.lookup_injective (numbered : names.Numbered) (left : names.lookup v = some n)
    (right : names.lookup w = some n) : v = w := by
  -- A name stands at the place that it is the name for.
  obtain ⟨i, first, rfl⟩ := numbered.exists_place left
  obtain ⟨j, second, same⟩ := numbered.exists_place right
  rw [nth_injective same, second] at first
  exact congrArg Prod.fst (Option.some.inj first).symm

/-- Each name says which variable it was given to. -/
theorem Numbered.exists_owner (numbered : names.Numbered) :
    ∃ owner : String → Int, ∀ v n, names.lookup v = some n → owner n = v := by
  have owned : ∀ n, ∃ v, ∀ w, names.lookup w = some n → v = w := by
    intro n
    by_cases given : ∃ v, names.lookup v = some n
    · obtain ⟨v, found⟩ := given
      exact ⟨v, fun w again => numbered.lookup_injective found again⟩
    · exact ⟨0, fun w found => absurd ⟨w, found⟩ given⟩
  choose owner owns using owned
  exact ⟨owner, fun v n found => owns n v found⟩

/-- A name stays when more names are given. -/
theorem lookup_of_grows (grows : names <+: later) (found : names.lookup v = some n) :
    later.lookup v = some n := by
  obtain ⟨more, rfl⟩ := grows
  rw [List.lookup_append, found, Option.some_or]

/-! ### Giving names -/

/-- Under names by place, `x` only adds names by place, and from then on `P` holds of its result,
whatever names come later. -/
def Shows (x : StateM Names α) (P : Names → α → Prop) : Prop :=
  ∀ names : Names, names.Numbered → ∃ a later, x names = (a, later) ∧ names <+: later ∧
    later.Numbered ∧ ∀ last, later <+: last → P last a

theorem Shows.bind {x : StateM Names α} {f : α → StateM Names β} {P : Names → α → Prop}
    {Q : Names → β → Prop} (first : Shows x P)
    (second : ∀ a, Shows (f a) fun last b => P last a → Q last b) : Shows (x >>= f) Q := by
  intro names numbered
  obtain ⟨a, middle, run, grows, numbered, holds⟩ := first names numbered
  obtain ⟨b, later, run', grows', numbered, holds'⟩ := second a middle numbered
  refine ⟨b, later, ?_, grows.trans grows', numbered, fun last more => ?_⟩
  · have step : (x >>= f) names = f (x names).1 (x names).2 := rfl
    rw [step, run, run']
  · exact holds' last more (holds last (grows'.trans more))

theorem shows_pure {a : α} {P : Names → α → Prop} (holds : ∀ last, P last a) :
    Shows (pure a) P := fun names numbered =>
  ⟨a, names, rfl, List.prefix_refl names, numbered, fun last _ => holds last⟩

theorem shows_give (v : Int) : Shows (give v) fun last n => last.lookup v = some n := by
  intro names numbered
  cases found : names.lookup v with
  | some n =>
    have run : give v names = (n, names) := by rw [give, found]
    exact ⟨n, names, run, List.prefix_refl names, numbered, fun _ more => lookup_of_grows more found⟩
  | none =>
    have run : give v names = (nth names.length, names ++ [(v, nth names.length)]) := by
      rw [give, found]
    refine ⟨_, _, run, List.prefix_append _ _, numbered.concat v, fun _ more => ?_⟩
    apply lookup_of_grows more
    rw [List.lookup_append, found]
    simp

/-- The name of a variable that has one. -/
def nameOf (names : Names) (v : Int) : String := (names.lookup v).getD ""

end Names

namespace Ty

open Names

/-! ### Names for variables -/

mutual

/-- Whether all names are those of built-in types, and all labels are words. -/
def plain : Ty → Bool
  | .name n => n = "Int" ∨ n = "Unit"
  | .var _ => true
  | .fn p r => p.plain && r.plain
  | .tuple es => plainAll es
  | .sum l p => l.toList.all wordChar && p.plain

def plainAll : List Ty → Bool
  | [] => true
  | t :: ts => t.plain && plainAll ts

end

/-- The type with names in the place of its variables. -/
def named (f : Int → String) (t : Ty) : Ty := t.inst fun v => .name (f v)

@[simp] theorem named_name (f : Int → String) (n : String) : (Ty.name n).named f = .name n := rfl

@[simp] theorem named_var (f : Int → String) (v : Int) : (Ty.var v).named f = .name (f v) := rfl

@[simp] theorem named_fn (f : Int → String) (p r : Ty) :
    (Ty.fn p r).named f = .fn (p.named f) (r.named f) := rfl

@[simp] theorem named_sum (f : Int → String) (l : String) (p : Ty) :
    (Ty.sum l p).named f = .sum l (p.named f) := rfl

@[simp] theorem named_tuple (f : Int → String) (es : List Ty) :
    (Ty.tuple es).named f = .tuple (es.map (named f)) :=
  congrArg tuple (instAll_eq_map _ es)

mutual

/-- Turns names that are not those of built-in types into variables. -/
def unnamed (owner : String → Int) : Ty → Ty
  | .name n => if n = "Int" ∨ n = "Unit" then .name n else .var (owner n)
  | .var v => .var v
  | .fn p r => .fn (p.unnamed owner) (r.unnamed owner)
  | .tuple es => .tuple (unnamedAll owner es)
  | .sum l p => .sum l (p.unnamed owner)

def unnamedAll (owner : String → Int) : List Ty → List Ty
  | [] => []
  | t :: ts => t.unnamed owner :: unnamedAll owner ts

end

theorem wordChar_of_isAlphanum {c : Char} (letter : c.isAlphanum = true) : wordChar c = true := by
  unfold wordChar
  simp only [decide_eq_true_eq]
  intro member
  simp only [List.mem_cons, List.not_mem_nil, or_false] at member
  rcases member with rfl | rfl | rfl | rfl | rfl | rfl <;> cases letter

theorem nth_legible (k : Nat) : (Ty.name (nth k)).legible = true := by
  have nonempty : nth k ≠ "" := by
    intro same
    have chars := congrArg String.toList same
    rw [toList_nth] at chars
    cases chars
  have inside : ∀ c ∈ (nth k).toList, wordChar c = true := by
    intro c member
    apply wordChar_of_isAlphanum
    rw [toList_nth, List.mem_cons] at member
    rcases member with rfl | member
    · simp [Char.isAlphanum, Char.isAlpha, letter_lower _ (Nat.mod_lt k (by decide))]
    · split at member
      · cases member
      · simp [Char.isAlphanum, Text.isDigit_of_mem_toString member]
  simpa [legible] using ⟨nonempty, inside⟩

/-- The names of built-in types start with capital letters. -/
theorem nth_ne_builtin (k : Nat) : ¬ (nth k = "Int" ∨ nth k = "Unit") := by
  have lower := letter_lower _ (Nat.mod_lt k (by decide : 0 < 26))
  rintro (same | same) <;>
  · have chars := congrArg String.toList same
    rw [toList_nth] at chars
    rw [(List.cons.inj chars).1] at lower
    cases lower

theorem plain_fn {p r : Ty} : (Ty.fn p r).plain = true ↔ p.plain = true ∧ r.plain = true := by
  simp [plain]

theorem plain_sum {l : String} {p : Ty} : (Ty.sum l p).plain = true ↔
    (∀ c ∈ l.toList, wordChar c = true) ∧ p.plain = true := by
  simp [plain]

theorem plainAll_cons {t : Ty} {ts : List Ty} :
    plainAll (t :: ts) = true ↔ t.plain = true ∧ plainAll ts = true := by
  simp [plainAll]

section

variable {f : Int → String}

mutual

theorem legible_named : ∀ {t : Ty}, t.plain = true → (∀ v ∈ t.vars, ∃ k, f v = nth k) →
    (t.named f).legible = true
  | .name n, builtin, _ => by
    simp only [plain, decide_eq_true_eq] at builtin
    rcases builtin with rfl | rfl <;> rfl
  | .var v, _, letters => by
    obtain ⟨k, same⟩ := letters v (by simp [vars])
    rw [named_var, same]
    exact nth_legible k
  | .fn p r, words, letters => by
    obtain ⟨param, result⟩ := plain_fn.mp words
    simp only [vars, List.forall_mem_append] at letters
    rw [named_fn, legible, Bool.and_eq_true]
    exact ⟨legible_named param letters.1, legible_named result letters.2⟩
  | .tuple es, words, letters => by
    rw [named_tuple, legible]
    exact legibleAll_named words letters
  | .sum l p, words, letters => by
    obtain ⟨label, payload⟩ := plain_sum.mp words
    rw [named_sum, legible, Bool.and_eq_true, List.all_eq_true]
    exact ⟨label, legible_named payload letters⟩

theorem legibleAll_named : ∀ {ts : List Ty}, plainAll ts = true →
    (∀ v ∈ varsAll ts, ∃ k, f v = nth k) → legibleAll (ts.map (named f)) = true
  | [], _, _ => rfl
  | t :: ts, words, letters => by
    obtain ⟨head, tail⟩ := plainAll_cons.mp words
    simp only [varsAll, List.forall_mem_append] at letters
    rw [List.map_cons, legibleAll, Bool.and_eq_true]
    exact ⟨legible_named head letters.1, legibleAll_named tail letters.2⟩

end

mutual

theorem unnamed_named (owner : String → Int) : ∀ {t : Ty}, t.plain = true →
    (∀ v ∈ t.vars, ∃ k, f v = nth k) → (t.named f).unnamed owner = t.rename (owner ∘ f)
  | .name n, builtin, _ => by
    simp only [plain, decide_eq_true_eq] at builtin
    rw [named_name, unnamed, if_pos builtin, rename_name]
  | .var v, _, letters => by
    obtain ⟨k, same⟩ := letters v (by simp [vars])
    rw [named_var, unnamed, if_neg (same ▸ nth_ne_builtin k), rename_var, Function.comp_apply]
  | .fn p r, words, letters => by
    obtain ⟨param, result⟩ := plain_fn.mp words
    simp only [vars, List.forall_mem_append] at letters
    rw [named_fn, unnamed, unnamed_named owner param letters.1, unnamed_named owner result letters.2,
      rename_fn]
  | .tuple es, words, letters => by
    rw [named_tuple, unnamed, unnamedAll_named owner words letters, rename_tuple]
  | .sum l p, words, letters => by
    rw [named_sum, unnamed, unnamed_named owner (plain_sum.mp words).2 letters, rename_sum]

theorem unnamedAll_named (owner : String → Int) : ∀ {ts : List Ty}, plainAll ts = true →
    (∀ v ∈ varsAll ts, ∃ k, f v = nth k) →
    unnamedAll owner (ts.map (named f)) = ts.map (rename (owner ∘ f))
  | [], _, _ => rfl
  | t :: ts, words, letters => by
    obtain ⟨head, tail⟩ := plainAll_cons.mp words
    simp only [varsAll, List.forall_mem_append] at letters
    rw [List.map_cons, unnamedAll, unnamed_named owner head letters.1,
      unnamedAll_named owner tail letters.2, List.map_cons]

end

end

/-! ### Texts under names -/

/-- The text says all about the type that names can say. -/
structure ShownAs (bracket : Bool) (t : Ty) (names : Names) (text : String) : Prop where
  given : ∀ v ∈ t.vars, ∃ n, names.lookup v = some n
  same : text.toList = (t.named names.nameOf).chars bracket

structure ShownAllAs (ts : List Ty) (names : Names) (texts : List String) : Prop where
  given : ∀ v ∈ varsAll ts, ∃ n, names.lookup v = some n
  same : texts.map String.toList = charsAll (ts.map (named names.nameOf))

theorem intercalate_elements (e : List Char) (es : List (List Char)) :
    [',', ' '].intercalate (e :: es) ++ [')'] = e ++ moreElements es := by
  induction es generalizing e with
  | nil => simp [List.intercalate, moreElements]
  | cons e' es ih =>
    rw [moreElements, ← ih]
    simp [List.intercalate]

theorem toList_showTuple (texts : List String) :
    (showTuple texts).toList = '(' :: closeTuple (texts.map String.toList) := by
  match texts with
  | [] => rfl
  | [text] => simp [showTuple, closeTuple, afterFirst]
  | text :: next :: texts =>
    -- The comma after a single element is not there.
    have elements := intercalate_elements text.toList ((next :: texts).map String.toList)
    rw [showTuple, String.toList_append, String.toList_append, String.toList_intercalate]
    · exact congrArg ('(' :: ·) elements
    · intro element single
      cases single

mutual

theorem showWith_shows : ∀ (t : Ty) (bracket : Bool), Shows (t.showWith bracket) (t.ShownAs bracket)
  | .name n, bracket => by
    rw [showWith]
    refine shows_pure fun last => ⟨fun v member => ?_, ?_⟩
    · cases member
    · rw [named_name, chars_name]
  | .var v, bracket => by
    rw [showWith, ← bind_pure (give v)]
    refine (shows_give v).bind fun n => shows_pure fun last found => ⟨fun w member => ?_, ?_⟩
    · rw [List.mem_singleton.mp member]
      exact ⟨n, found⟩
    · rw [named_var, chars_name, nameOf, found, Option.getD_some]
  | .fn p r, bracket => by
    rw [showWith]
    refine (showWith_shows p true).bind fun param => (showWith_shows r false).bind fun result =>
      shows_pure fun last right left => ⟨List.forall_mem_append.mpr ⟨left.given, right.given⟩, ?_⟩
    rw [named_fn]
    cases bracket with
    | false => simp [chars, left.same, right.same]
    | true => simp [chars, left.same, right.same]
  | .tuple es, bracket => by
    rw [showWith]
    refine (showAll_shows es).bind fun texts => shows_pure fun last shown => ⟨shown.given, ?_⟩
    rw [toList_showTuple, shown.same, named_tuple, chars]
  | .sum l p, bracket => by
    rw [showWith]
    refine (showWith_shows p false).bind fun payload => shows_pure fun last shown =>
      ⟨shown.given, ?_⟩
    rw [named_sum]
    simp [chars, shown.same]

theorem showAll_shows : ∀ ts : List Ty, Shows (showAll ts) (ShownAllAs ts)
  | [] => by
    rw [showAll]
    refine shows_pure fun last => ⟨fun v member => ?_, rfl⟩
    cases member
  | t :: ts => by
    rw [showAll]
    refine (showWith_shows t false).bind fun text => (showAll_shows ts).bind fun texts =>
      shows_pure fun last rest first => ⟨List.forall_mem_append.mpr ⟨first.given, rest.given⟩, ?_⟩
    rw [List.map_cons, List.map_cons, charsAll, first.same, rest.same]

end

/-! ### What texts tell -/

section

variable {t u : Ty} {bracket : Bool} {names names' : Names} {text : String}

theorem ShownAs.letters (shown : t.ShownAs bracket names text) (numbered : names.Numbered) :
    ∀ v ∈ t.vars, ∃ k, names.nameOf v = nth k := by
  intro v member
  obtain ⟨n, found⟩ := shown.given v member
  obtain ⟨k, -, same⟩ := numbered.exists_place found
  exact ⟨k, by rw [nameOf, found, Option.getD_some, same]⟩

theorem ShownAs.rename_owner (shown : t.ShownAs bracket names text) {owner : String → Int}
    (owns : ∀ v n, names.lookup v = some n → owner n = v) :
    t.rename (owner ∘ names.nameOf) = t := by
  refine inst_eq_self fun v member => ?_
  obtain ⟨n, found⟩ := shown.given v member
  rw [Function.comp_apply, nameOf, found, Option.getD_some, owns v n found]

/-- A type is read off its text, and its variables off their names. -/
theorem ShownAs.rename_eq (shown : t.ShownAs bracket names text)
    (shown' : u.ShownAs bracket names' text) (numbered : names.Numbered)
    (numbered' : names'.Numbered) (words : t.plain = true) (words' : u.plain = true)
    {owner : String → Int} (owns : ∀ v n, names'.lookup v = some n → owner n = v) :
    t.rename (owner ∘ names.nameOf) = u := by
  have letters := shown.letters numbered
  have letters' := shown'.letters numbered'
  have same : t.named names.nameOf = u.named names'.nameOf :=
    chars_injective (legible_named words letters) (legible_named words' letters')
      (shown.same.symm.trans shown'.same)
  rw [← unnamed_named owner words letters, same, unnamed_named owner words' letters',
    shown'.rename_owner owns]

theorem text_shown (t : Ty) : ∃ names : Names, names.Numbered ∧ t.ShownAs false names t.text := by
  obtain ⟨text, names, run, -, numbered, shown⟩ := showWith_shows t false [] numbered_nil
  have same : t.text = text := congrArg Prod.fst run
  exact ⟨names, numbered, same ▸ shown names (List.prefix_refl names)⟩

end

/-- The text of a type says all about it but the ids of its variables, of which there may be more
than there are letters. -/
theorem text_eq_iff_variant {t u : Ty} (words : t.plain = true) (words' : u.plain = true) :
    t.text = u.text ↔ t.Variant u := by
  constructor
  · intro same
    obtain ⟨names, numbered, shown⟩ := text_shown t
    obtain ⟨names', numbered', shown'⟩ := text_shown u
    rw [same] at shown
    obtain ⟨owner, owns⟩ := numbered.exists_owner
    obtain ⟨owner', owns'⟩ := numbered'.exists_owner
    exact variant_of_inst (shown.rename_eq shown' numbered numbered' words words' owns')
      (shown'.rename_eq shown numbered' numbered words' words owns)
  · rintro ⟨ρ, bijective, rfl⟩
    exact (text_rename bijective.injective t).symm

/-- Thirty variables and their ids in the opposite order, and two variables that became one. -/
theorem text_eq_iff_variant_thirty :
    let t : Ty := .tuple ((List.range 30).map fun k => .var k)
    let u : Ty := .tuple ((List.range 30).map fun k => .var (100 - k))
    t.text = u.text ∧ t.Variant u ∧ ¬ (Ty.fn (.var 1) (.var 2)).Variant (.fn (.var 1) (.var 1)) := by
  intro t u
  have same : t.text = u.text := by decide +kernel
  have differ : (Ty.fn (.var 1) (.var 2)).text ≠ (Ty.fn (.var 1) (.var 1)).text := by decide
  refine ⟨same, (text_eq_iff_variant rfl rfl).mp same, fun variant => differ ?_⟩
  exact (text_eq_iff_variant rfl rfl).mpr variant

/-- A label with brackets in it can look like a function. -/
example : (Ty.fn (.sum "A" .unit) (.sum "B" .int)).text = (Ty.sum "A[Unit] -> B" .int).text := by
  cbv

end Ty

end Monotype
