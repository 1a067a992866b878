import Monotype.Check
import Monotype.Proofs.Loading
import Monotype.Proofs.Naming

/-!
# Checks that always come to an end

Whatever the bytes of a document and of a program are, checking them gives a text. The stages of a
check are followed through two runs at once, which count variables from different numbers: both come
to an end, with the same value or with failures that are reported alike (`Stage.Alike`). This holds
because what is loaded is well formed, so inference stops with problems of the program only, and these
have reports in all formats. Main theorem: `Check.run_returns`.
-/

namespace Monotype

/-! ### Reports -/

/-- An offset is checked before it is pointed to, so quoting never fails. -/
theorem Text.quoteSpan_ok (source : List Char) (span : Option Span) :
    ∃ quotation, ∀ log, quoteSpan source span log = .ok quotation log := by
  cases span with
  | none => exact ⟨_, fun _ => rfl⟩
  | some span =>
    unfold quoteSpan
    dsimp only
    split
    · next inside =>
      have notPast : ¬ (source.length : Int) ≤ span.start.toInt := by omega
      unfold pointTo checkOffset
      rw [if_neg notPast]
      exact ⟨_, fun _ => rfl⟩
    · exact ⟨_, fun _ => rfl⟩

/-- The types of a clash have the parts that its explanation is about. -/
theorem Clash.Fits.explain {c : Clash} (fits : c.Fits) : ∃ text, c.explain = .ok text := by
  cases fits with
  | names _ => exact ⟨_, rfl⟩
  | shapes _ _ _ => exact ⟨_, rfl⟩
  | arity _ => exact ⟨_, rfl⟩
  | label _ => exact ⟨_, rfl⟩
  | circular _ _ => exact ⟨_, rfl⟩

/-- The failures that a check can end with. -/
inductive Failure.Reported : Failure → Prop where
  | badEncoding (encoding : Option String) : Reported (.badEncoding encoding)
  | unusableFile (p : FileProblem) : Reported (.unusableFile p)
  | malformed (path reason : String) : Reported (.malformed path reason)
  | problem {p : Problem} : p.Reported → Reported (.problem p)

theorem Document.load_malformed {text : String} {parse : String → Except String Json} {f : Failure}
    {events : List Event} (refused : Document.load text parse = .error (f, events)) :
    ∃ path reason, f = .malformed path reason := by
  unfold Document.load at refused
  split at refused
  · cases refused
    exact ⟨_, _, rfl⟩
  · next v parsed =>
    cases read : Expr.ofJson v with
    | error fault =>
      rw [loadExpr, read] at refused
      cases refused
      exact ⟨_, _, rfl⟩
    | ok tree =>
      rw [loadExpr, read] at refused
      cases refused

namespace Report

variable {f : Failure} (reported : f.Reported) (source path : String)

include reported

theorem toJson_ok : ∃ object, toJson path f = .ok object := by
  cases reported with
  | badEncoding _ => exact ⟨_, rfl⟩
  | unusableFile _ => exact ⟨_, rfl⟩
  | malformed _ _ => exact ⟨_, rfl⟩
  | problem reported => cases reported <;> exact ⟨_, rfl⟩

theorem toAlert_ok : ∃ alert, toAlert path f = .ok alert := by
  cases reported with
  | badEncoding _ => exact ⟨_, rfl⟩
  | unusableFile _ => exact ⟨_, rfl⟩
  | malformed _ _ => exact ⟨_, rfl⟩
  | problem reported =>
    cases reported with
    | clash span fits =>
      obtain ⟨text, explained⟩ := fits.explain
      rw [toAlert, explained]
      exact ⟨_, rfl⟩
    | undefinedName x span => exact ⟨_, rfl⟩
    | duplicateBinding x span => exact ⟨_, rfl⟩

theorem toLong_ok : ∃ message, ∀ log, toLong source path f log = .ok message log := by
  cases reported with
  | badEncoding _ => exact ⟨_, fun _ => rfl⟩
  | unusableFile _ => exact ⟨_, fun _ => rfl⟩
  | malformed _ _ => exact ⟨_, fun _ => rfl⟩
  | problem reported =>
    cases reported with
    | clash span fits =>
      obtain ⟨quotation, quoted⟩ := Text.quoteSpan_ok source.toList span
      obtain ⟨text, explained⟩ := fits.explain
      exact ⟨_, fun log => by rw [toLong, Infer.run_bind, quoted, explained]; rfl⟩
    | undefinedName x span =>
      obtain ⟨quotation, quoted⟩ := Text.quoteSpan_ok source.toList span
      exact ⟨_, fun log => by rw [toLong, Infer.run_bind, quoted]; rfl⟩
    | duplicateBinding x span =>
      obtain ⟨quotation, quoted⟩ := Text.quoteSpan_ok source.toList span
      exact ⟨_, fun log => by rw [toLong, Infer.run_bind, quoted]; rfl⟩

theorem text_ok (format : Format) :
    ∃ report, ∀ log, text format f source path log = .ok report log := by
  cases format with
  | json =>
    obtain ⟨object, made⟩ := toJson_ok reported path
    rw [text, made]
    exact ⟨_, fun _ => rfl⟩
  | long =>
    obtain ⟨message, made⟩ := toLong_ok reported source path
    exact ⟨_, fun log => by rw [text, Infer.run_bind, made]; rfl⟩
  | short =>
    obtain ⟨alert, made⟩ := toAlert_ok reported path
    rw [text, made]
    exact ⟨_, fun _ => rfl⟩

theorem write_ok (format : Format) :
    ∃ report, ∀ log, write format f source path log = .ok report log := by
  obtain ⟨report, made⟩ := text_ok reported source path format
  refine ⟨report, fun log => ?_⟩
  unfold write
  split
  · cases reported
  · exact made log

end Report

/-! ### Stages -/

namespace Stage

variable {α β : Type} {d : Int} {R : α → α → Prop} {S : β → β → Prop}

/-- The same outcome up to ids: values that are related, or failures that can be reported and differ
in the ids of variables only. -/
def Related (d : Int) (R : α → α → Prop) : Except Failure α → Except Failure α → Prop
  | .ok a, .ok b => R a b
  | .error f, .error g => f.Reported ∧ g = f.rename (· + d)
  | _, _ => False

/-- Two stages that come to an end with the same outcome up to ids, whatever their logs are. -/
def Alike (d : Int) (R : α → α → Prop) (x y : Stage α) : Prop := ∀ log₁ log₂, ∃ a b log₁' log₂',
  x.run log₁ = .ok a log₁' ∧ y.run log₂ = .ok b log₂' ∧ Related d R a b

theorem run_bind (x : Stage α) (f : α → Stage β) (log : List Event) :
    (x >>= f).run log = (x.run >>= ExceptT.bindCont f) log := rfl

theorem Alike.bind {x y : Stage α} {f g : α → Stage β} (first : Alike d R x y)
    (second : ∀ a b, R a b → Alike d S (f a) (g b)) : Alike d S (x >>= f) (y >>= g) := by
  intro log₁ log₂
  obtain ⟨a, b, mid₁, mid₂, run₁, run₂, related⟩ := first log₁ log₂
  rw [run_bind, run_bind, Infer.run_bind, Infer.run_bind, run₁, run₂]
  match a, b, related with
  | .ok a, .ok b, related => exact second a b related mid₁ mid₂
  | .error f, .error g, related => exact ⟨.error f, .error g, mid₁, mid₂, rfl, rfl, related⟩

theorem alike_pure {a b : α} (related : R a b) : Alike d R (pure a) (pure b) :=
  fun log₁ log₂ => ⟨.ok a, .ok b, log₁, log₂, rfl, rfl, related⟩

theorem alike_throw {f : Failure} (reported : f.Reported) :
    Alike d R (throw f) (throw (f.rename (· + d))) :=
  fun log₁ log₂ => ⟨.error f, .error _, log₁, log₂, rfl, rfl, reported, rfl⟩

theorem alike_tell (e₁ e₂ : Event) : Alike d (fun _ _ => True) (tell e₁) (tell e₂) :=
  fun log₁ log₂ => ⟨.ok (), .ok (), log₁ ++ [e₁], log₂ ++ [e₂], rfl, rfl, trivial⟩

theorem run_tellAll (events log : List Event) :
    (events.forM tell).run log = .ok (.ok ()) (log ++ events) := by
  induction events generalizing log with
  | nil =>
    rw [List.append_nil]
    rfl
  | cons e events ih =>
    have rest := ih (log ++ [e])
    rw [List.append_assoc, List.singleton_append] at rest
    exact rest

theorem alike_tellAll (events₁ events₂ : List Event) :
    Alike d (fun _ _ => True) (events₁.forM tell) (events₂.forM tell) :=
  fun log₁ log₂ =>
    ⟨.ok (), .ok (), _, _, run_tellAll events₁ log₁, run_tellAll events₂ log₂, trivial⟩

theorem alike_ofExcept (a : α) : Alike d Eq (ofExcept (.ok a)) (ofExcept (.ok a)) :=
  fun log₁ log₂ => ⟨.ok a, .ok a, log₁, log₂, rfl, rfl, rfl⟩

end Stage

namespace Check

open Stage

variable {ω : Type} (reader : Reader) (d : Int)

theorem decode_alike (encoding : String) (bytes : List UInt8) :
    Alike d Eq (decode reader encoding bytes) (decode reader encoding bytes) := by
  unfold decode
  split
  · exact alike_pure rfl
  · exact (alike_tell _ _).bind fun _ _ _ => alike_throw (.badEncoding _)

theorem programText_alike (config : Config ω) (program : Option (Except FileProblem (List UInt8))) :
    Alike d Eq (programText reader config program) (programText reader config program) := by
  unfold programText
  split
  · exact alike_pure rfl
  · exact decode_alike reader d _ _
  · exact (alike_tell _ _).bind fun _ _ _ => alike_throw (.unusableFile _)

/-- A tree that is handed on is well formed. -/
theorem load_alike (showTree : Bool) (text : String) :
    Alike d (fun a b => a = b ∧ ∀ tree, a = .next tree → tree.wellFormed = true)
      (load reader showTree text) (load reader showTree text) := by
  unfold load
  split
  · next failure events loaded =>
    obtain ⟨place, reason, rfl⟩ := Document.load_malformed loaded
    exact (alike_tellAll _ _).bind fun _ _ _ => alike_throw (.malformed place reason)
  · next tree loaded =>
    have formed := Document.load_wellFormed loaded
    split
    · obtain ⟨text, printed⟩ := Expr.textAt_ok tree 0 formed
      rw [Expr.text, printed]
      refine (alike_ofExcept text).bind fun a b same => alike_pure ⟨by rw [same], ?_⟩
      rintro _ ⟨⟩
    · refine alike_pure ⟨rfl, ?_⟩
      rintro _ ⟨⟩
      exact formed

theorem inferType_alike (first : Int) {tree : Expr} (formed : tree.wellFormed = true) :
    Alike d (fun a b => ∃ t, a = .next t ∧ b = .next (t.rename (· + d)))
      (inferType first tree) (inferType (first + d) tree) := by
  -- Nothing is bound around the tree, so both runs start from sessions that differ by the shift only.
  have shifted : tree.inferType [] { next := first + d } = Infer.shift d (Ty.rename (· + d))
      (tree.inferType [] { next := first }) := tree.inferType_shifts rfl { next := first }
  unfold inferType
  rw [shifted]
  cases outcome : tree.inferType [] { next := first } with
  | ok type session =>
    exact (alike_tellAll _ _).bind fun _ _ _ => (alike_tell _ _).bind fun _ _ _ =>
      alike_pure ⟨type, rfl, rfl⟩
  | error problem session =>
    refine (alike_tellAll _ _).bind fun _ _ _ => ?_
    have reported := Expr.inferType_raises formed [] _ _ _ outcome
    cases reported with
    | clash span fits => exact alike_throw (.problem (.clash span fits))
    | undefinedName x span => exact alike_throw (.problem (.undefinedName x span))
    | duplicateBinding x span => exact alike_throw (.problem (.duplicateBinding x span))

theorem phases_alike (config : Config ω) (document : List UInt8) (first : Int) :
    Alike d Eq (phases reader config document first)
      (phases reader config document (first + d)) := by
  refine (decode_alike reader d _ _).bind fun text _ same => ?_
  subst same
  refine (load_alike reader d _ text).bind fun tree _ same => ?_
  obtain ⟨rfl, formed⟩ := same
  cases tree with
  | stop message => exact alike_pure rfl
  | next tree =>
    refine (inferType_alike d first (formed tree rfl)).bind fun _ _ same => ?_
    obtain ⟨t, rfl, rfl⟩ := same
    exact alike_pure (by rw [Ty.text_rename (add_left_injective d)])

/-- Where the counting of variables starts does not show in what a check says. -/
theorem run_alike (config : Config ω) (program : Option (Except FileProblem (List UInt8)))
    (document : List UInt8) (first : Int) (log₁ log₂ : List Event) : ∃ text log₁' log₂',
      run config program document first reader log₁ = .ok text log₁' ∧
      run config program document (first + d) reader log₂ = .ok text log₂' := by
  obtain ⟨a, b, mid₁, mid₂, run₁, run₂, related⟩ :=
    programText_alike reader d config program log₁ log₂
  unfold run
  rw [Infer.run_bind, Infer.run_bind, run₁, run₂]
  match a, b, related with
  | .error f, .error _, ⟨reported, rfl⟩ =>
    obtain ⟨report, written⟩ :=
      Report.write_ok reported "" (Path.textOf config.sourceFile) config.format
    dsimp only
    rw [Report.write_rename (add_left_injective d)]
    exact ⟨report, _, _, written _, written _⟩
  | .ok source, .ok _, rfl =>
    obtain ⟨a, b, mid₁, mid₂, run₁, run₂, related⟩ :=
      phases_alike reader d config document first mid₁ mid₂
    dsimp only
    rw [Infer.run_bind, Infer.run_bind, run₁, run₂]
    match a, b, related with
    | .error f, .error _, ⟨reported, rfl⟩ =>
      obtain ⟨report, written⟩ :=
        Report.write_ok reported source (Path.textOf config.file) config.format
      dsimp only
      rw [Report.write_rename (add_left_injective d)]
      exact ⟨report, _, _, written _, written _⟩
    | .ok outcome, .ok _, rfl => exact ⟨_, _, _, rfl, rfl⟩

/-- However bytes are decoded and texts are read as JSON, checking a document gives a text. Of a tree
that is loaded, inference finds a type, or it stops with a clash that is what it says, an unknown name
or a name that is bound twice. -/
theorem run_returns (config : Config ω) (program : Option (Except FileProblem (List UInt8)))
    (document : List UInt8) (first : Int) (log : List Event) :
    (∃ text log', run config program document first reader log = .ok text log') ∧
      ∀ text tree, Document.load text reader.parse = .ok tree → ∀ (env : Bindings) (next : Int),
        (∃ t final, tree.inferType env { next := next } = .ok t final) ∨
          ∃ problem final, tree.inferType env { next := next } = .error problem final ∧
            problem.Reported := by
  -- A run that is compared with itself.
  obtain ⟨text, log', -, returned, -⟩ := run_alike reader 0 config program document first log log
  refine ⟨⟨text, log', returned⟩, fun text tree loaded env next => ?_⟩
  have formed := Document.load_wellFormed loaded
  cases outcome : tree.inferType env { next := next } with
  | ok t final => exact .inl ⟨t, final, rfl⟩
  | error problem final =>
    exact .inr ⟨problem, final, rfl, Expr.inferType_raises formed env _ _ _ outcome⟩

/-- Two tuples of different lengths, at a span that runs backwards. -/
theorem run_returns_tuples :
    let document := Json.object [("kind", .string "cond"), ("span", .array [.int 7, .bool true]),
      ("pred", .object [("kind", .string "int"), ("value", .int 1)]),
      ("cons", .object [("kind", .string "tuple"), ("elements", .array [])]),
      ("else", .object [("kind", .string "tuple"),
        ("elements", .array [.object [("kind", .string "unit")]])])]
    let reader : Reader := { parse := fun _ => .ok document }
    let config : Config Unit := { output := () }
    let problem := Problem.clash ⟨.arity, .tuple [], .tuple [.unit]⟩ (some ⟨.int 7, .bool true⟩)
    (∃ text log', run config none [] 1 reader [] = .ok text log') ∧
    ∃ tree final, Document.load "" reader.parse = .ok tree ∧
      tree.inferType [] { next := 1 } = .error problem final ∧ problem.Reported := by
  intro document reader config problem
  have loaded : Document.load "" reader.parse = .ok (.cond ⟨.int 7, .bool true⟩
      (.int .origin 1) (.tuple .origin []) (.tuple .origin [.unit .origin])) := by
    subst reader document
    cbv
  have stopped : Expr.inferType [] (.cond ⟨.int 7, .bool true⟩ (.int .origin 1)
      (.tuple .origin []) (.tuple .origin [.unit .origin])) { next := 1 } =
      .error problem { next := 1, log := [.solved .int .int,
        .clashed ⟨.arity, .tuple [], .tuple [.unit]⟩] } := by
    subst problem
    cbv
  obtain ⟨returned, outcome⟩ := run_returns reader config none [] 1 []
  refine ⟨returned, _, _, loaded, stopped, ?_⟩
  rcases outcome "" _ loaded [] 1 with ⟨t, final, typed⟩ | ⟨other, final, failed, reported⟩
  · rw [stopped] at typed
    cases typed
  · rw [stopped] at failed
    cases failed
    exact reported

end Check

end Monotype
