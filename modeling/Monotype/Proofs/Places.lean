import Monotype.Proofs.RoundTrip
import Monotype.Proofs.Words

/-!
# Where documents are at fault

The place of a fault leads from the value that was read to a part of it, and the reason is true of
this part: `Expr.ofJson_locates`. What is reported of a fault is the path of the value followed by the
text of the place, which can be read in one way only (`Place.suffix_injective`).
-/

namespace Monotype

/-! ### Places -/

/-- The part of a value that a step leads to. -/
def Place.Step.follow : Place.Step → Json → Option Json
  | .key name, v => v.get? name
  | .index i, .array us => us[i]?
  | .index _, _ => none

/-- The part of a value at a place. -/
def Json.at? : Place → Json → Option Json
  | [], v => some v
  | step :: place, v => (step.follow v).bind (Json.at? place)

namespace Place

/-- Whether the name of a key has letters only. -/
def Step.plain : Step → Bool
  | .key name => name.toList.all Char.isAlpha
  | .index _ => true

def plain (place : Place) : Bool := place.all Step.plain

theorem suffix_cons (step : Step) (place : Place) :
    suffix (step :: place) = step.text ++ place.suffix := by
  rw [suffix, List.map_cons, String.join_cons, suffix]

theorem toList_key (name : String) : (Step.key name).text.toList = '.' :: name.toList := by
  rw [Step.text, String.toList_append]
  rfl

theorem toList_index (i : Nat) :
    (Step.index i).text.toList = '[' :: ((toString i).toList ++ [']']) := by
  rw [Step.text, String.toList_append, String.toList_append]
  rfl

/-- What follows a step starts a step of its own. -/
theorem halts_suffix {P : Char → Bool} (dot : P '.' = false) (bracket : P '[' = false)
    (place : Place) : Text.Halts P place.suffix.toList := by
  cases place with
  | nil => exact Text.halts_nil P
  | cons step place =>
    rw [suffix_cons, String.toList_append]
    cases step with
    | key name =>
      rw [toList_key]
      exact Text.halts_cons dot
    | index i =>
      rw [toList_index]
      exact Text.halts_cons bracket

theorem suffix_cons_ne_empty (step : Step) (place : Place) : suffix (step :: place) ≠ "" := by
  intro empty
  have chars := congrArg String.toList empty
  rw [suffix_cons, String.toList_append] at chars
  cases step with
  | key name =>
    rw [toList_key] at chars
    cases chars
  | index i =>
    rw [toList_index] at chars
    cases chars

/-- The first step can be read off the text of a place. -/
theorem suffix_cons_injective {step step' : Step} {place place' : Place} (plain : step.plain = true)
    (plain' : step'.plain = true) (same : suffix (step :: place) = suffix (step' :: place')) :
    step = step' ∧ place.suffix = place'.suffix := by
  have chars := congrArg String.toList same
  rw [suffix_cons, suffix_cons, String.toList_append, String.toList_append] at chars
  cases step with
  | key name =>
    cases step' with
    | key name' =>
      rw [toList_key, toList_key, List.cons_append, List.cons_append, List.cons.injEq] at chars
      obtain ⟨word, rest⟩ := Text.word_unique (List.all_eq_true.mp plain) (List.all_eq_true.mp plain')
        (halts_suffix rfl rfl place) (halts_suffix rfl rfl place') chars.2
      exact ⟨by rw [String.toList_inj.mp word], String.toList_inj.mp rest⟩
    | index i =>
      rw [toList_key, toList_index] at chars
      cases (List.cons.inj chars).1
  | index i =>
    cases step' with
    | key name =>
      rw [toList_key, toList_index] at chars
      cases (List.cons.inj chars).1
    | index i' =>
      rw [toList_index, toList_index, List.cons_append, List.cons_append, List.cons.injEq,
        List.append_assoc, List.append_assoc] at chars
      obtain ⟨digits, rest⟩ := Text.word_unique (fun _ => Text.isDigit_of_mem_toString)
        (fun _ => Text.isDigit_of_mem_toString) (Text.halts_cons rfl) (Text.halts_cons rfl) chars.2
      rw [Text.toString_toList_injective digits]
      exact ⟨rfl, String.toList_inj.mp (List.cons.inj rest).2⟩

/-- The steps of a place can be read off its text. -/
theorem suffix_injective {place place' : Place} (plain : place.plain = true)
    (plain' : place'.plain = true) (same : place.suffix = place'.suffix) : place = place' := by
  induction place generalizing place' with
  | nil =>
    cases place' with
    | nil => rfl
    | cons step' place' => exact absurd same.symm (suffix_cons_ne_empty step' place')
  | cons step place ih =>
    cases place' with
    | nil => exact absurd same (suffix_cons_ne_empty step place)
    | cons step' place' =>
      rw [Place.plain, List.all_cons, Bool.and_eq_true] at plain plain'
      obtain ⟨rfl, rest⟩ := suffix_cons_injective plain.1 plain'.1 same
      rw [ih plain.2 plain'.2 rest]

end Place

/-! ### Faults -/

/-- What a reason says about the value at fault. -/
def Fault.Reason.Holds : Fault.Reason → Json → Prop
  | .notAnObject, u => ∀ fields, u ≠ .object fields
  | .notAString, u => ∀ s, u ≠ .string s
  | .notAnInteger, u => ∀ n, u ≠ .int n
  | .notAnArray, u => ∀ us, u ≠ .array us
  | .missing key, u => ∃ fields, u = .object fields ∧ ∀ w, (key, w) ∉ fields
  | .badSpan, u => ∀ start stop : Offset, u ≠ .array [start.toJson, stop.toJson]
  | .badCase, u => ∀ binder body, u ≠ .array [binder, body]
  | .noCases, u => u = .array []
  | .unknownExpr kind, u => u.get? "kind" = some (.string kind) ∧ kind ∉ NodeSort.expr.kinds
  | .unknownPattern kind, u => u.get? "kind" = some (.string kind) ∧ kind ∉ NodeSort.pattern.kinds

/-- The place of the fault leads to a part of the value, and the reason is true of this part. -/
structure Fault.LocatedIn (v : Json) (f : Fault) : Prop where
  plain : f.place.plain = true
  reached : ∃ u, v.at? f.place = some u ∧ f.reason.Holds u

namespace Document

variable {α β : Type} {v u : Json} {key : String}

/-- Whatever is found to be at fault is so in the value. -/
def Locates (v : Json) (x : Except Fault α) : Prop := ∀ fault, x = .error fault → fault.LocatedIn v

theorem locates_pure (v : Json) (a : α) : Locates v (pure a) := fun _ same => by cases same

theorem locates_throw {fault : Fault} (located : fault.LocatedIn v) :
    Locates v (throw fault : Except Fault α) := by
  rintro other same
  cases same
  exact located

theorem Locates.bind {x : Except Fault α} {f : α → Except Fault β} (first : Locates v x)
    (second : ∀ a, x = .ok a → Locates v (f a)) : Locates v (x >>= f) := by
  intro fault failed
  cases read : x with
  | error other =>
    rw [read] at failed
    cases failed
    exact first _ read
  | ok a =>
    rw [read] at failed
    exact second a read fault failed

/-- A fault in a part is one of the whole. -/
theorem Locates.within {step : Place.Step} {x : Except Fault α} (located : Locates u x)
    (plain : step.plain = true) (found : step.follow v = some u) : Locates v (within step x) := by
  intro fault failed
  cases read : x with
  | error inner =>
    rw [read] at failed
    cases failed
    obtain ⟨plainInner, w, reached, holds⟩ := located inner read
    refine ⟨Bool.and_eq_true_iff.mpr ⟨plain, plainInner⟩, w, ?_, holds⟩
    rw [Fault.inside, Json.at?, found, Option.bind_some]
    exact reached
  | ok a =>
    rw [read] at failed
    cases failed

theorem located_at_key {reason : Fault.Reason} (plain : (Place.Step.key key).plain = true)
    (found : v.get? key = some u) (holds : reason.Holds u) :
    Fault.LocatedIn v ⟨[.key key], reason⟩ := by
  refine ⟨Bool.and_eq_true_iff.mpr ⟨plain, rfl⟩, u, ?_, holds⟩
  rw [Json.at?, Place.Step.follow, found, Option.bind_some, Json.at?]

/-! ### Fields -/

def IsObject (v : Json) : Prop := ∃ fields, v = .object fields

theorem locates_field (object : IsObject v) (key : String) : Locates v (field key v) := by
  obtain ⟨fields, rfl⟩ := object
  intro fault failed
  rw [field] at failed
  split at failed
  · cases failed
  · next missing =>
    cases failed
    refine ⟨rfl, _, rfl, fields, rfl, fun w member => ?_⟩
    have absent := List.lookup_eq_none_iff.mp missing (key, w) member
    simp at absent

/-- A field is looked up, and then the rest is done. -/
theorem locates_value {f : { u : Json // sizeOf u < sizeOf v } → Except Fault α} (object : IsObject v)
    (rest : ∀ u smaller, v.get? key = some u → Locates v (f ⟨u, smaller⟩)) :
    Locates v (field key v >>= f) :=
  (locates_field object key).bind fun ⟨u, smaller⟩ read => rest u smaller (field_ok.mp read)

theorem locates_string (object : IsObject v) (plain : (Place.Step.key key).plain = true) :
    Locates v (string key v) := by
  refine locates_value object fun u smaller found => ?_
  cases u with
  | string s => exact locates_pure v s
  | _ => exact locates_throw (located_at_key plain found fun s same => by cases same)

theorem locates_integer (object : IsObject v) (plain : (Place.Step.key key).plain = true) :
    Locates v (integer key v) := by
  refine locates_value object fun u smaller found => ?_
  cases u with
  | int n => exact locates_pure v n
  | _ => exact locates_throw (located_at_key plain found fun n same => by cases same)

theorem locates_array (object : IsObject v) (plain : (Place.Step.key key).plain = true) :
    Locates v (array key v) := by
  refine locates_value object fun u smaller found => ?_
  cases u with
  | array us => exact locates_pure v _
  | _ => exact locates_throw (located_at_key plain found fun us same => by cases same)

theorem locates_kind (v : Json) : Locates v (kind v) := by
  cases v with
  | object fields => exact locates_string ⟨fields, rfl⟩ rfl
  | _ => exact locates_throw ⟨rfl, _, rfl, fun fields same => by cases same⟩

theorem isObject_of_kind {k : String} (read : kind v = .ok k) : IsObject v := by
  cases v with
  | object fields => exact ⟨fields, rfl⟩
  | _ => cases read

theorem span_error {fault : Fault} (failed : span v = .error fault) :
    fault = ⟨[.key "span"], .badSpan⟩ := by
  unfold span at failed
  split at failed
  · cases failed
  · split at failed
    · cases failed
    · cases failed
      rfl
  · cases failed
    rfl

/-- Only a span that is there can be at fault. -/
theorem locates_span (v : Json) : Locates v (span v) := by
  intro fault failed
  obtain rfl := span_error failed
  cases found : v.get? "span" with
  | none =>
    rw [span, found] at failed
    cases failed
  | some u =>
    refine located_at_key rfl found fun start stop same => ?_
    have read : span v = .ok ⟨start, stop⟩ := span_ok.mpr (by rw [found, same]; rfl)
    rw [read] at failed
    cases failed

/-- A part of a node is read, and then the rest. -/
theorem locates_part {read : Json → Except Fault α} {f : α → Except Fault β} (object : IsObject v)
    (plain : (Place.Step.key key).plain = true)
    (reads : ∀ u, sizeOf u < sizeOf v → Locates u (read u)) (rest : ∀ a, Locates v (f a)) :
    Locates v (do
      let ⟨u, _⟩ ← field key v
      let a ← within (.key key) (read u)
      f a) :=
  locates_value object fun u smaller found =>
    ((reads u smaller).within plain found).bind fun a _ => rest a

/-- The parts in an array are read, and then the rest. -/
theorem locates_parts {read : List Json → Except Fault α} {f : α → Except Fault β}
    (object : IsObject v) (plain : (Place.Step.key key).plain = true)
    (reads : ∀ us, sizeOf us < sizeOf v → Locates (.array us) (read us))
    (rest : ∀ us a, v.get? key = some (.array us) → read us = .ok a → Locates v (f a)) :
    Locates v (do
      let ⟨us, _⟩ ← array key v
      let a ← within (.key key) (read us)
      f a) := by
  refine (locates_array object plain).bind fun ⟨us, smaller⟩ isArray => ?_
  have found : v.get? key = some (.array us) := by
    have taken : ∃ x, array key v = .ok x ∧ x.1 = us := ⟨_, isArray, rfl⟩
    obtain ⟨ws, found, rfl⟩ := exists_array.mp taken
    exact found
  exact ((reads us smaller).within plain found).bind fun a read =>
    rest us a found (within_ok.mp read)

end Document

open Document

/-! ### Patterns and expressions -/

theorem Json.follow_index (before after : List Json) (v : Json) :
    (Place.Step.index before.length).follow (.array (before ++ v :: after)) = some v := by
  simp [Place.Step.follow]

mutual

theorem Pattern.ofJson_locates (v : Json) : Locates v (Pattern.ofJson v) := by
  have part (u : Json) (smaller : sizeOf u < sizeOf v) := Pattern.ofJson_locates u
  rw [Pattern.ofJson]
  refine (locates_kind v).bind fun k read => ?_
  have object := isObject_of_kind read
  split
  · exact (locates_span v).bind fun s _ => (locates_string object rfl).bind fun label _ =>
      locates_part object rfl part fun p => locates_pure v _
  · exact (locates_span v).bind fun s _ => (locates_integer object rfl).bind fun n _ =>
      locates_pure v _
  · exact (locates_span v).bind fun s _ => (locates_string object rfl).bind fun x _ =>
      locates_pure v _
  · exact (locates_span v).bind fun s _ =>
      locates_parts object rfl (fun us _ => Pattern.allOfJson_locates [] us) fun _ _ _ _ =>
        locates_pure v _
  · exact (locates_span v).bind fun s _ => locates_pure v _
  · exact (locates_span v).bind fun s _ => locates_pure v _
  · refine locates_throw ⟨rfl, v, rfl, kind_ok.mp read, ?_⟩
    simp only [NodeSort.kinds, List.mem_cons, List.not_mem_nil, or_false]
    tauto
termination_by sizeOf v

/-- Patterns that stand behind others in an array. -/
theorem Pattern.allOfJson_locates (before vs : List Json) :
    Locates (.array (before ++ vs)) (Pattern.allOfJson before.length vs) := by
  cases vs with
  | nil =>
    rw [Pattern.allOfJson]
    exact locates_pure _ _
  | cons v vs =>
    have rest := Pattern.allOfJson_locates (before ++ [v]) vs
    rw [List.length_append, List.append_assoc] at rest
    rw [Pattern.allOfJson]
    exact ((Pattern.ofJson_locates v).within rfl (Json.follow_index before vs v)).bind fun p _ =>
      rest.bind fun ps _ => locates_pure _ _
termination_by sizeOf vs

end

/-- Cases are read from nothing but an array without elements if there are none. -/
theorem Expr.casesOfJson_eq_nil {index : Nat} {vs : List Json}
    (read : Expr.casesOfJson index vs = .ok []) : vs = [] := by
  unfold Expr.casesOfJson at read
  split at read
  · rfl
  · simp only [bind_ok, pure_ok, reduceCtorEq, and_false, exists_false] at read
  · cases read

mutual

theorem Expr.ofJson_locates (v : Json) : Locates v (Expr.ofJson v) := by
  have part (u : Json) (smaller : sizeOf u < sizeOf v) := Expr.ofJson_locates u
  have binder (u : Json) (_ : sizeOf u < sizeOf v) := Pattern.ofJson_locates u
  rw [Expr.ofJson]
  refine (locates_kind v).bind fun k read => ?_
  have object := isObject_of_kind read
  split
  · exact (locates_span v).bind fun s _ => locates_part object rfl part fun f =>
      locates_part object rfl part fun a => locates_pure v _
  · exact (locates_span v).bind fun s _ => (locates_string object rfl).bind fun operator _ =>
      locates_part object rfl part fun l => locates_part object rfl part fun r => locates_pure v _
  · exact (locates_span v).bind fun s _ => locates_part object rfl part fun p =>
      locates_part object rfl part fun c => locates_part object rfl part fun a => locates_pure v _
  · exact (locates_span v).bind fun s _ => (locates_string object rfl).bind fun label _ =>
      locates_part object rfl part fun a => locates_pure v _
  · exact (locates_span v).bind fun s _ => locates_part object rfl binder fun p =>
      locates_part object rfl part fun b => locates_pure v _
  · exact (locates_span v).bind fun s _ => (locates_integer object rfl).bind fun n _ =>
      locates_pure v _
  · exact (locates_span v).bind fun s _ => locates_part object rfl binder fun p =>
      locates_part object rfl part fun u => locates_part object rfl part fun b => locates_pure v _
  · refine (locates_span v).bind fun s _ => locates_part object rfl part fun e =>
      locates_parts object rfl (fun us _ => Expr.casesOfJson_locates [] us) fun us cs found cases => ?_
    by_cases empty : cs.isEmpty = true
    -- No cases come of an empty array only.
    · obtain rfl := List.isEmpty_iff.mp empty
      rw [if_pos empty]
      obtain rfl := Expr.casesOfJson_eq_nil cases
      have located : Fault.LocatedIn v ⟨[.key "cases"], .noCases⟩ := located_at_key rfl found rfl
      exact (locates_throw located).bind fun _ _ => locates_pure v _
    · rw [if_neg empty]
      exact locates_pure v _
  · exact (locates_span v).bind fun s _ => (locates_string object rfl).bind fun x _ =>
      locates_pure v _
  · exact (locates_span v).bind fun s _ =>
      locates_parts object rfl (fun us _ => Expr.allOfJson_locates [] us) fun _ _ _ _ =>
        locates_pure v _
  · exact (locates_span v).bind fun s _ => locates_pure v _
  · refine locates_throw ⟨rfl, v, rfl, kind_ok.mp read, ?_⟩
    simp only [NodeSort.kinds, List.mem_cons, List.not_mem_nil, or_false]
    tauto
termination_by sizeOf v

/-- Expressions that stand behind others in an array. -/
theorem Expr.allOfJson_locates (before vs : List Json) :
    Locates (.array (before ++ vs)) (Expr.allOfJson before.length vs) := by
  cases vs with
  | nil =>
    rw [Expr.allOfJson]
    exact locates_pure _ _
  | cons v vs =>
    have rest := Expr.allOfJson_locates (before ++ [v]) vs
    rw [List.length_append, List.append_assoc] at rest
    rw [Expr.allOfJson]
    exact ((Expr.ofJson_locates v).within rfl (Json.follow_index before vs v)).bind fun e _ =>
      rest.bind fun es _ => locates_pure _ _
termination_by sizeOf vs

/-- Cases that stand behind others in an array. -/
theorem Expr.casesOfJson_locates (before vs : List Json) :
    Locates (.array (before ++ vs)) (Expr.casesOfJson before.length vs) := by
  unfold Expr.casesOfJson
  split
  · exact locates_pure _ _
  · next binder body vs =>
    have rest := Expr.casesOfJson_locates (before ++ [.array [binder, body]]) vs
    rw [List.length_append, List.append_assoc] at rest
    have found := Json.follow_index before vs (.array [binder, body])
    have first : Locates (.array [binder, body]) (within (.index 0) (Pattern.ofJson binder)) :=
      (Pattern.ofJson_locates binder).within rfl rfl
    have second : Locates (.array [binder, body]) (within (.index 1) (Expr.ofJson body)) :=
      (Expr.ofJson_locates body).within rfl rfl
    exact (first.within rfl found).bind fun p _ => (second.within rfl found).bind fun b _ =>
      rest.bind fun cs _ => locates_pure _ _
  · next notEmpty notPair =>
    cases vs with
    | nil => exact absurd rfl notEmpty
    | cons v vs =>
      refine locates_throw ⟨rfl, v, ?_, fun binder body same => notPair binder body vs (by rw [same])⟩
      rw [Json.at?, Json.follow_index, Option.bind_some, Json.at?]
termination_by sizeOf vs

end

/-! ### What is reported -/

namespace Document

variable {α : Type}

/-- A failure to read the value `v` at a path is explained by a place and a reason. -/
structure Explained (v : Json) (load : String → Except (Failure × List Event) α) (path : String)
    (failure : Failure) (place : Place) (reason : Fault.Reason) : Prop where
  reported : failure = .malformed (path ++ place.suffix) reason.text
  /-- The same steps are reported after every other path. -/
  everywhere : ∀ other, ∃ events,
    load other = .error (.malformed (other ++ place.suffix) reason.text, events)
  reached : ∃ u, v.at? place = some u ∧ reason.Holds u
  /-- There is only one way to read the steps. -/
  plain : place.plain = true
  legible : ∀ place' : Place, place'.plain = true → place'.suffix = place.suffix → place' = place

theorem explained_of_locates {v : Json} {x : Except Fault α} (locates : Locates v x) {path : String}
    {failure : Failure} {events : List Event} (refused : report path x = .error (failure, events)) :
    ∃ place reason, Explained v (fun other => report other x) path failure place reason := by
  cases x with
  | ok a => cases refused
  | error fault =>
    cases refused
    obtain ⟨plain, reached⟩ := locates fault rfl
    exact ⟨fault.place, fault.reason, rfl, fun other => ⟨_, rfl⟩, reached, plain,
      fun place' plain' same => Place.suffix_injective plain' plain same⟩

/-- When a value cannot be read as an expression or as a pattern, the path that is reported leads to a
part of the value of which the reason is true. -/
theorem load_explained (v : Json) (path : String) :
    (∀ failure events, loadExpr v path = .error (failure, events) →
      ∃ place reason, Explained v (loadExpr v ·) path failure place reason) ∧
    ∀ failure events, loadPattern v path = .error (failure, events) →
      ∃ place reason, Explained v (loadPattern v ·) path failure place reason :=
  ⟨fun _ _ refused => explained_of_locates (Expr.ofJson_locates v) refused,
    fun _ _ refused => explained_of_locates (Pattern.ofJson_locates v) refused⟩

/-- A name in a pattern that is a number, far inside of a tree. -/
theorem load_explained_deep :
    let binder : Json := .object [("kind", .string "tuple"),
      ("elements", .array [.object [("kind", .string "name"), ("value", .int 3)]])]
    let v : Json := .object [("kind", .string "match"), ("subject", .object [("kind", .string "unit")]),
      ("cases", .array [.array [binder, .null]])]
    let failure : Failure := .malformed "$.body.cases[0][0].elements[0].value" "expected a string"
    loadExpr v "$.body" = .error (failure, []) ∧
      (∃ place reason, Explained v (loadExpr v ·) "$.body" failure place reason) ∧
      ∃ place reason, Explained binder (loadPattern binder ·) ""
        (.malformed ".elements[0].value" "expected a string") place reason := by
  intro binder v failure
  have read : Pattern.ofJson binder =
      .error ⟨[.key "elements", .index 0, .key "value"], .notAString⟩ := by
    cbv
  have read' : Expr.ofJson v = .error
      ⟨[.key "cases", .index 0, .index 0, .key "elements", .index 0, .key "value"], .notAString⟩ := by
    cbv
  have refused : loadExpr v "$.body" = .error (failure, []) := by
    rw [loadExpr, read']
    rfl
  have refused' : loadPattern binder "" =
      .error (.malformed ".elements[0].value" "expected a string", []) := by
    rw [loadPattern, read]
    rfl
  exact ⟨refused, (load_explained v "$.body").1 _ _ refused, (load_explained binder "").2 _ _ refused'⟩

end Document

end Monotype
