import Monotype.Document.Form
import Monotype.Proofs.Loading

/-!
# Reading and writing documents

What is written of a well-formed tree is read as that tree, and whatever is read is written, but for
fields that no kind names and for spans that were left out (`Document.round_trip`).
-/

namespace Monotype

/-! ### Trimming -/

namespace Json

variable {v u : Json} {key : String}

theorem sizeOf_lt_of_get? (found : v.get? key = some u) : sizeOf u < sizeOf v := by
  cases v with
  | object fields => exact sizeOf_lt_of_lookup found
  | _ => cases found

theorem sizeOf_lt_of_get?_array {us : List Json} (found : v.get? key = some (.array us)) :
    sizeOf us < sizeOf v := by
  have smaller := sizeOf_lt_of_get? found
  rw [array.sizeOf_spec] at smaller
  omega

theorem trim_data (v : Json) : v.trim .data = v := by
  rw [trim] <;> simp

theorem trim_array (element : Shape) (us : List Json) :
    (array us).trim (.array element) = array (us.map (trim element)) := by
  rw [trim]

theorem trim_pair (first second : Shape) (u w : Json) :
    (array [u, w]).trim (.pair first second) = array [u.trim first, w.trim second] := by
  rw [trim]

/-- A node keeps its kind, its span and the fields that are named and that are there. -/
theorem trim_node {sort : NodeSort} {kind : String} {span : Span}
    (isKind : v.get? "kind" = some (.string kind))
    (located : (v.get? "span").getD Span.origin.toJson = span.toJson) :
    v.trim (.node sort) = node kind span ((sort.fields kind).filterMap fun field =>
      (v.get? field.1).map fun u => (field.1, u.trim field.2)) := by
  cases v with
  | object fields =>
    rw [get?] at isKind located
    rw [trim]
    simp only [isKind, located, node, get?]
    congr 3
    refine List.filterMap_congr fun field _ => ?_
    cases fields.lookup field.1 with
    | none => rfl
    | some u => rfl
  | _ => cases isKind

end Json

/-! ### What the readers of fields accept -/

theorem Offset.toJson_injective : Function.Injective Offset.toJson := by
  intro a b same
  cases a <;> cases b <;> cases same <;> rfl

theorem Span.toJson_injective : Function.Injective Span.toJson := by
  rintro ⟨start, stop⟩ ⟨start', stop'⟩ same
  simp only [Span.toJson, Json.array.injEq, List.cons.injEq, and_true] at same
  rw [Offset.toJson_injective same.1, Offset.toJson_injective same.2]

namespace Document

variable {v : Json} {key : String}

theorem field_ok {u : { u : Json // sizeOf u < sizeOf v }} :
    field key v = .ok u ↔ v.get? key = some u.1 := by
  obtain ⟨u, smaller⟩ := u
  cases v with
  | object fields =>
    rw [field, Json.get?]
    split
    · next w found => simp [found]
    · next missing => simp [missing]
  | _ => simp [field, Json.get?]

theorem exists_field {P : { u : Json // sizeOf u < sizeOf v } → Prop} :
    (∃ x, field key v = .ok x ∧ P x) ↔
      ∃ u, ∃ found : v.get? key = some u, P ⟨u, Json.sizeOf_lt_of_get? found⟩ := by
  constructor
  · rintro ⟨⟨u, smaller⟩, read, holds⟩
    exact ⟨u, field_ok.mp read, holds⟩
  · rintro ⟨u, found, holds⟩
    exact ⟨⟨u, _⟩, field_ok.mpr found, holds⟩

theorem string_ok {s : String} : string key v = .ok s ↔ v.get? key = some (.string s) := by
  simp only [string, bind_ok, exists_field]
  constructor
  · rintro ⟨u, found, read⟩
    split at read
    · next t _ same =>
      cases same
      cases read
      exact found
    · cases read
  · intro found
    exact ⟨_, found, rfl⟩

theorem integer_ok {n : Int} : integer key v = .ok n ↔ v.get? key = some (.int n) := by
  simp only [integer, bind_ok, exists_field]
  constructor
  · rintro ⟨u, found, read⟩
    split at read
    · next m _ same =>
      cases same
      cases read
      exact found
    · cases read
  · intro found
    exact ⟨_, found, rfl⟩

theorem exists_array {P : { us : List Json // sizeOf us < sizeOf v } → Prop} :
    (∃ x, array key v = .ok x ∧ P x) ↔
      ∃ us, ∃ found : v.get? key = some (.array us),
        P ⟨us, Json.sizeOf_lt_of_get?_array found⟩ := by
  simp only [array, bind_ok, exists_field]
  constructor
  · rintro ⟨x, ⟨u, found, read⟩, holds⟩
    split at read
    · next us _ same =>
      cases same
      cases read
      exact ⟨us, found, holds⟩
    · cases read
  · rintro ⟨us, found, holds⟩
    exact ⟨_, ⟨_, found, rfl⟩, holds⟩

theorem kind_ok {k : String} : kind v = .ok k ↔ v.get? "kind" = some (.string k) := by
  cases v with
  | object fields => exact string_ok
  | _ => simp [kind, Json.get?]

theorem offset?_ok {o : Offset} : offset? v = some o ↔ v = o.toJson := by
  constructor
  · intro read
    unfold offset? at read
    split at read
    · cases read
      rfl
    · cases read
      rfl
    · cases read
  · rintro rfl
    cases o with
    | int n => rfl
    | bool b => rfl

/-- A span is read as it is written, and a missing one as the default. -/
theorem span_ok {s : Span} :
    span v = .ok s ↔ (v.get? "span").getD Span.origin.toJson = s.toJson := by
  constructor
  · intro read
    unfold span at read
    split at read
    · next missing =>
      cases read
      rw [missing, Option.getD_none]
    · next a b found =>
      split at read
      · next start stop first second =>
        cases read
        rw [found, Option.getD_some, offset?_ok.mp first, offset?_ok.mp second, Span.toJson]
      · cases read
    · cases read
  · intro located
    unfold span
    cases found : v.get? "span" with
    | none =>
      rw [found, Option.getD_none] at located
      rw [Span.toJson_injective located]
    | some u =>
      rw [found, Option.getD_some] at located
      subst located
      have start : offset? s.start.toJson = some s.start := offset?_ok.mpr rfl
      have stop : offset? s.stop.toJson = some s.stop := offset?_ok.mpr rfl
      simp only [Span.toJson, start, stop]

end Document

open Document

/-! ### What is written is read -/

mutual

theorem Pattern.ofJson_toJson : ∀ p : Pattern, p.proper = true → Pattern.ofJson p.toJson = .ok p
  | .unit s, _ => by
    rw [Pattern.ofJson, bind_ok]
    refine ⟨"unit", kind_ok.mpr rfl, ?_⟩
    simp only [bind_ok, span_ok, pure_ok]
    exact ⟨s, rfl, rfl⟩
  | .int s n, _ => by
    rw [Pattern.ofJson, bind_ok]
    refine ⟨"int", kind_ok.mpr rfl, ?_⟩
    simp only [bind_ok, span_ok, integer_ok, pure_ok]
    exact ⟨s, rfl, n, rfl, rfl⟩
  | .wildcard s, _ => by
    rw [Pattern.ofJson, bind_ok]
    refine ⟨"wildcard", kind_ok.mpr rfl, ?_⟩
    simp only [bind_ok, span_ok, pure_ok]
    exact ⟨s, rfl, rfl⟩
  | .name s x, _ => by
    rw [Pattern.ofJson, bind_ok]
    refine ⟨"name", kind_ok.mpr rfl, ?_⟩
    simp only [bind_ok, span_ok, string_ok, pure_ok]
    exact ⟨s, rfl, x, rfl, rfl⟩
  | .constructor s label arg, proper => by
    rw [Pattern.ofJson, bind_ok]
    refine ⟨"constructor", kind_ok.mpr rfl, ?_⟩
    simp only [bind_ok, span_ok, string_ok, exists_field, exists_prop, within_ok, pure_ok]
    exact ⟨s, rfl, label, rfl, _, rfl, arg, ofJson_toJson arg proper, rfl⟩
  | .tuple s ps, proper => by
    rw [Pattern.ofJson, bind_ok]
    refine ⟨"tuple", kind_ok.mpr rfl, ?_⟩
    simp only [bind_ok, span_ok, exists_array, exists_prop, within_ok, pure_ok]
    exact ⟨s, rfl, _, rfl, ps, allOfJson_toJson 0 ps proper, rfl⟩
  | .expr _, proper => by cases proper

theorem Pattern.allOfJson_toJson : ∀ (index : Nat) (ps : List Pattern),
    Pattern.properAll ps = true → Pattern.allOfJson index (Pattern.allToJson ps) = .ok ps
  | _, [], _ => by
    rw [Pattern.allToJson, Pattern.allOfJson]
    rfl
  | index, p :: ps, proper => by
    rw [Pattern.properAll, Bool.and_eq_true] at proper
    rw [Pattern.allToJson, Pattern.allOfJson]
    simp only [bind_ok, within_ok, pure_ok]
    exact ⟨p, ofJson_toJson p proper.1, ps, allOfJson_toJson (index + 1) ps proper.2, rfl⟩

end

mutual

theorem Expr.ofJson_toJson : ∀ e : Expr, e.wellFormed = true → Expr.ofJson e.toJson = .ok e
  | .unit s, _ => by
    rw [Expr.ofJson, bind_ok]
    refine ⟨"unit", kind_ok.mpr rfl, ?_⟩
    simp only [bind_ok, span_ok, pure_ok]
    exact ⟨s, rfl, rfl⟩
  | .int s n, _ => by
    rw [Expr.ofJson, bind_ok]
    refine ⟨"int", kind_ok.mpr rfl, ?_⟩
    simp only [bind_ok, span_ok, integer_ok, pure_ok]
    exact ⟨s, rfl, n, rfl, rfl⟩
  | .name s x, _ => by
    rw [Expr.ofJson, bind_ok]
    refine ⟨"name", kind_ok.mpr rfl, ?_⟩
    simp only [bind_ok, span_ok, string_ok, pure_ok]
    exact ⟨s, rfl, x, rfl, rfl⟩
  | .tuple s es, formed => by
    rw [Expr.ofJson, bind_ok]
    refine ⟨"tuple", kind_ok.mpr rfl, ?_⟩
    simp only [bind_ok, span_ok, exists_array, exists_prop, within_ok, pure_ok]
    exact ⟨s, rfl, _, rfl, es, allOfJson_toJson 0 es formed, rfl⟩
  | .binop s op l r, formed => by
    rw [Expr.wellFormed, Bool.and_eq_true] at formed
    rw [Expr.ofJson, bind_ok]
    refine ⟨"binop", kind_ok.mpr rfl, ?_⟩
    simp only [bind_ok, span_ok, string_ok, exists_field, exists_prop, within_ok, pure_ok]
    exact ⟨s, rfl, op, rfl, _, rfl, l, ofJson_toJson l formed.1, _, rfl, r,
      ofJson_toJson r formed.2, rfl⟩
  | .apply s f a, formed => by
    rw [Expr.wellFormed, Bool.and_eq_true] at formed
    rw [Expr.ofJson, bind_ok]
    refine ⟨"apply", kind_ok.mpr rfl, ?_⟩
    simp only [bind_ok, span_ok, exists_field, exists_prop, within_ok, pure_ok]
    exact ⟨s, rfl, _, rfl, f, ofJson_toJson f formed.1, _, rfl, a, ofJson_toJson a formed.2, rfl⟩
  | .constructor s label a, formed => by
    rw [Expr.ofJson, bind_ok]
    refine ⟨"constructor", kind_ok.mpr rfl, ?_⟩
    simp only [bind_ok, span_ok, string_ok, exists_field, exists_prop, within_ok, pure_ok]
    exact ⟨s, rfl, label, rfl, _, rfl, a, ofJson_toJson a formed, rfl⟩
  | .function s p b, formed => by
    rw [Expr.wellFormed, Bool.and_eq_true] at formed
    rw [Expr.ofJson, bind_ok]
    refine ⟨"function", kind_ok.mpr rfl, ?_⟩
    simp only [bind_ok, span_ok, exists_field, exists_prop, within_ok, pure_ok]
    exact ⟨s, rfl, _, rfl, p, p.ofJson_toJson formed.1, _, rfl, b, ofJson_toJson b formed.2, rfl⟩
  | .cond s p c a, formed => by
    rw [Expr.wellFormed, Bool.and_eq_true, Bool.and_eq_true] at formed
    rw [Expr.ofJson, bind_ok]
    refine ⟨"cond", kind_ok.mpr rfl, ?_⟩
    simp only [bind_ok, span_ok, exists_field, exists_prop, within_ok, pure_ok]
    exact ⟨s, rfl, _, rfl, p, ofJson_toJson p formed.1.1, _, rfl, c, ofJson_toJson c formed.1.2,
      _, rfl, a, ofJson_toJson a formed.2, rfl⟩
  | .letIn s p v b, formed => by
    rw [Expr.wellFormed, Bool.and_eq_true, Bool.and_eq_true] at formed
    rw [Expr.ofJson, bind_ok]
    refine ⟨"let", kind_ok.mpr rfl, ?_⟩
    simp only [bind_ok, span_ok, exists_field, exists_prop, within_ok, pure_ok]
    exact ⟨s, rfl, _, rfl, p, p.ofJson_toJson formed.1.1, _, rfl, v, ofJson_toJson v formed.1.2,
      _, rfl, b, ofJson_toJson b formed.2, rfl⟩
  | .matchOn s e cases, formed => by
    rw [Expr.wellFormed, Bool.and_eq_true, Bool.and_eq_true, Bool.not_eq_true'] at formed
    rw [Expr.ofJson, bind_ok]
    refine ⟨"match", kind_ok.mpr rfl, ?_⟩
    simp only [bind_ok, span_ok, exists_field, exists_array, exists_prop, within_ok]
    refine ⟨s, rfl, _, rfl, e, ofJson_toJson e formed.1.1, _, rfl, cases,
      casesOfJson_toJson 0 cases formed.2, ?_⟩
    -- What is left is the check for cases.
    rw [formed.1.2]
    rfl
  | .pattern _, formed => by cases formed

theorem Expr.allOfJson_toJson : ∀ (index : Nat) (es : List Expr), Expr.wellFormedAll es = true →
    Expr.allOfJson index (Expr.allToJson es) = .ok es
  | _, [], _ => by
    rw [Expr.allToJson, Expr.allOfJson]
    rfl
  | index, e :: es, formed => by
    rw [Expr.wellFormedAll, Bool.and_eq_true] at formed
    rw [Expr.allToJson, Expr.allOfJson]
    simp only [bind_ok, within_ok, pure_ok]
    exact ⟨e, ofJson_toJson e formed.1, es, allOfJson_toJson (index + 1) es formed.2, rfl⟩

theorem Expr.casesOfJson_toJson : ∀ (index : Nat) (cases : List (Pattern × Expr)),
    Expr.wellFormedCases cases = true →
    Expr.casesOfJson index (Expr.casesToJson cases) = .ok cases
  | _, [], _ => by
    rw [Expr.casesToJson, Expr.casesOfJson]
    rfl
  | index, (p, b) :: cases, formed => by
    rw [Expr.wellFormedCases, Bool.and_eq_true, Bool.and_eq_true] at formed
    rw [Expr.casesToJson, Expr.casesOfJson]
    simp only [bind_ok, within_ok, pure_ok]
    exact ⟨p, p.ofJson_toJson formed.1.1, b, ofJson_toJson b formed.1.2, cases,
      casesOfJson_toJson (index + 1) cases formed.2, rfl⟩

end

/-! ### What is read is written -/

mutual

theorem Pattern.trim_eq_toJson (v : Json) {p : Pattern} (read : Pattern.ofJson v = .ok p) :
    v.trim (.node .pattern) = p.toJson := by
  rw [Pattern.ofJson, bind_ok] at read
  obtain ⟨k, isKind, read⟩ := read
  rw [kind_ok] at isKind
  -- One case for each kind that the reader knows. What it has found is what the kind names.
  split at read
  · simp only [bind_ok, span_ok, string_ok, exists_field, exists_prop, within_ok, pure_ok] at read
    obtain ⟨s, located, label, labelAt, arg, argAt, p, argRead, rfl⟩ := read
    have smaller := Json.sizeOf_lt_of_get? argAt
    rw [Json.trim_node isKind located]
    simp [NodeSort.fields, Pattern.toJson, labelAt, argAt, Json.trim_data,
      trim_eq_toJson arg argRead]
  · simp only [bind_ok, span_ok, integer_ok, pure_ok] at read
    obtain ⟨s, located, n, valueAt, rfl⟩ := read
    rw [Json.trim_node isKind located]
    simp [NodeSort.fields, Pattern.toJson, valueAt, Json.trim_data]
  · simp only [bind_ok, span_ok, string_ok, pure_ok] at read
    obtain ⟨s, located, x, valueAt, rfl⟩ := read
    rw [Json.trim_node isKind located]
    simp [NodeSort.fields, Pattern.toJson, valueAt, Json.trim_data]
  · simp only [bind_ok, span_ok, exists_array, exists_prop, within_ok, pure_ok] at read
    obtain ⟨s, located, elements, elementsAt, ps, elementsRead, rfl⟩ := read
    have smaller := Json.sizeOf_lt_of_get?_array elementsAt
    rw [Json.trim_node isKind located]
    simp [NodeSort.fields, Pattern.toJson, elementsAt, Json.trim_array,
      trimAll_eq_toJson 0 elements elementsRead]
  · simp only [bind_ok, span_ok, pure_ok] at read
    obtain ⟨s, located, rfl⟩ := read
    rw [Json.trim_node isKind located]
    rfl
  · simp only [bind_ok, span_ok, pure_ok] at read
    obtain ⟨s, located, rfl⟩ := read
    rw [Json.trim_node isKind located]
    rfl
  · cases read
termination_by sizeOf v

theorem Pattern.trimAll_eq_toJson (index : Nat) (vs : List Json) {ps : List Pattern}
    (read : Pattern.allOfJson index vs = .ok ps) :
    vs.map (Json.trim (.node .pattern)) = Pattern.allToJson ps := by
  cases vs with
  | nil =>
    rw [Pattern.allOfJson, pure_ok] at read
    subst read
    rfl
  | cons v vs =>
    simp only [Pattern.allOfJson, bind_ok, within_ok, pure_ok] at read
    obtain ⟨p, head, ps, tail, rfl⟩ := read
    rw [List.map_cons, trim_eq_toJson v head, trimAll_eq_toJson (index + 1) vs tail,
      Pattern.allToJson]
termination_by sizeOf vs

end

mutual

theorem Expr.trim_eq_toJson (v : Json) {e : Expr} (read : Expr.ofJson v = .ok e) :
    v.trim (.node .expr) = e.toJson := by
  rw [Expr.ofJson, bind_ok] at read
  obtain ⟨k, isKind, read⟩ := read
  rw [kind_ok] at isKind
  have part {key : String} {u : Json} {e : Expr} (found : v.get? key = some u)
      (read : Expr.ofJson u = .ok e) : u.trim (.node .expr) = e.toJson := by
    have smaller := Json.sizeOf_lt_of_get? found
    exact trim_eq_toJson u read
  split at read
  · simp only [bind_ok, span_ok, exists_field, exists_prop, within_ok, pure_ok] at read
    obtain ⟨s, located, func, funcAt, f, funcRead, arg, argAt, a, argRead, rfl⟩ := read
    rw [Json.trim_node isKind located]
    simp [NodeSort.fields, Expr.toJson, funcAt, argAt, part funcAt funcRead, part argAt argRead]
  · simp only [bind_ok, span_ok, string_ok, exists_field, exists_prop, within_ok, pure_ok] at read
    obtain ⟨s, located, op, opAt, left, leftAt, l, leftRead, right, rightAt, r, rightRead,
      rfl⟩ := read
    rw [Json.trim_node isKind located]
    simp [NodeSort.fields, Expr.toJson, opAt, leftAt, rightAt, Json.trim_data, part leftAt leftRead,
      part rightAt rightRead]
  · simp only [bind_ok, span_ok, exists_field, exists_prop, within_ok, pure_ok] at read
    obtain ⟨s, located, pred, predAt, p, predRead, cons, consAt, c, consRead, alt, altAt, a,
      altRead, rfl⟩ := read
    rw [Json.trim_node isKind located]
    simp [NodeSort.fields, Expr.toJson, predAt, consAt, altAt, part predAt predRead,
      part consAt consRead, part altAt altRead]
  · simp only [bind_ok, span_ok, string_ok, exists_field, exists_prop, within_ok, pure_ok] at read
    obtain ⟨s, located, label, labelAt, arg, argAt, a, argRead, rfl⟩ := read
    rw [Json.trim_node isKind located]
    simp [NodeSort.fields, Expr.toJson, labelAt, argAt, Json.trim_data, part argAt argRead]
  · simp only [bind_ok, span_ok, exists_field, exists_prop, within_ok, pure_ok] at read
    obtain ⟨s, located, param, paramAt, p, paramRead, body, bodyAt, b, bodyRead, rfl⟩ := read
    rw [Json.trim_node isKind located]
    simp [NodeSort.fields, Expr.toJson, paramAt, bodyAt, Pattern.trim_eq_toJson param paramRead,
      part bodyAt bodyRead]
  · simp only [bind_ok, span_ok, integer_ok, pure_ok] at read
    obtain ⟨s, located, n, valueAt, rfl⟩ := read
    rw [Json.trim_node isKind located]
    simp [NodeSort.fields, Expr.toJson, valueAt, Json.trim_data]
  · simp only [bind_ok, span_ok, exists_field, exists_prop, within_ok, pure_ok] at read
    obtain ⟨s, located, target, targetAt, p, targetRead, value, valueAt, w, valueRead, body,
      bodyAt, b, bodyRead, rfl⟩ := read
    rw [Json.trim_node isKind located]
    simp [NodeSort.fields, Expr.toJson, targetAt, valueAt, bodyAt,
      Pattern.trim_eq_toJson target targetRead, part valueAt valueRead, part bodyAt bodyRead]
  · simp only [bind_ok, span_ok, exists_field, exists_array, exists_prop, within_ok] at read
    obtain ⟨s, located, subject, subjectAt, e, subjectRead, cases, casesAt, cs, casesRead,
      read⟩ := read
    have smaller := Json.sizeOf_lt_of_get?_array casesAt
    -- Without cases the match is refused.
    split at read
    · cases read
    · rw [pure_ok] at read
      subst read
      rw [Json.trim_node isKind located]
      simp [NodeSort.fields, Expr.toJson, subjectAt, casesAt, Json.trim_array,
        part subjectAt subjectRead, trimCases_eq_toJson 0 cases casesRead]
  · simp only [bind_ok, span_ok, string_ok, pure_ok] at read
    obtain ⟨s, located, x, valueAt, rfl⟩ := read
    rw [Json.trim_node isKind located]
    simp [NodeSort.fields, Expr.toJson, valueAt, Json.trim_data]
  · simp only [bind_ok, span_ok, exists_array, exists_prop, within_ok, pure_ok] at read
    obtain ⟨s, located, elements, elementsAt, es, elementsRead, rfl⟩ := read
    have smaller := Json.sizeOf_lt_of_get?_array elementsAt
    rw [Json.trim_node isKind located]
    simp [NodeSort.fields, Expr.toJson, elementsAt, Json.trim_array,
      trimAll_eq_toJson 0 elements elementsRead]
  · simp only [bind_ok, span_ok, pure_ok] at read
    obtain ⟨s, located, rfl⟩ := read
    rw [Json.trim_node isKind located]
    rfl
  · cases read
termination_by sizeOf v

theorem Expr.trimAll_eq_toJson (index : Nat) (vs : List Json) {es : List Expr}
    (read : Expr.allOfJson index vs = .ok es) :
    vs.map (Json.trim (.node .expr)) = Expr.allToJson es := by
  cases vs with
  | nil =>
    rw [Expr.allOfJson, pure_ok] at read
    subst read
    rfl
  | cons v vs =>
    simp only [Expr.allOfJson, bind_ok, within_ok, pure_ok] at read
    obtain ⟨e, head, es, tail, rfl⟩ := read
    rw [List.map_cons, trim_eq_toJson v head, trimAll_eq_toJson (index + 1) vs tail, Expr.allToJson]
termination_by sizeOf vs

theorem Expr.trimCases_eq_toJson (index : Nat) (vs : List Json) {cases : List (Pattern × Expr)}
    (read : Expr.casesOfJson index vs = .ok cases) :
    vs.map (Json.trim (.pair (.node .pattern) (.node .expr))) = Expr.casesToJson cases := by
  unfold Expr.casesOfJson at read
  split at read
  · rw [pure_ok] at read
    subst read
    rfl
  · next binder body vs =>
    simp only [bind_ok, within_ok, pure_ok] at read
    obtain ⟨p, binderRead, b, bodyRead, rest, restRead, rfl⟩ := read
    rw [List.map_cons, Json.trim_pair, Pattern.trim_eq_toJson binder binderRead,
      trim_eq_toJson body bodyRead, trimCases_eq_toJson (index + 1) vs restRead, Expr.casesToJson]
  · cases read
termination_by sizeOf vs

end

/-! ### Whole documents -/

/-- At every path, the document of a well-formed expression or of a proper pattern is loaded as what
it was written of, spans included. Conversely, whatever is loaded is a well-formed expression or a
proper pattern, and the document is what is written of it once it is trimmed. -/
theorem Document.round_trip (path : String) :
    ((∀ e : Expr, e.wellFormed = true → loadExpr e.toJson path = .ok e) ∧
      ∀ v e, loadExpr v path = .ok e →
        e.wellFormed = true ∧ v.trim (.node .expr) = e.toJson) ∧
    (∀ p : Pattern, p.proper = true → loadPattern p.toJson path = .ok p) ∧
      ∀ v p, loadPattern v path = .ok p →
        p.proper = true ∧ v.trim (.node .pattern) = p.toJson := by
  simp only [loadExpr, loadPattern, report_ok]
  refine ⟨⟨Expr.ofJson_toJson, fun v e read => ?_⟩, Pattern.ofJson_toJson, fun v p read => ?_⟩
  · exact ⟨Expr.ofJson_wellFormed v e read, Expr.trim_eq_toJson v read⟩
  · exact ⟨Pattern.ofJson_proper v p read, Pattern.trim_eq_toJson v read⟩

/-- A match that says more than it has to, and in another order, with a truth value in a span and
with nodes that have no span. -/
theorem Document.round_trip_match :
    let path := "$.body.elements[2]"
    let v : Json := .object [
      ("cases", .array [.array [
        .object [("kind", .string "wildcard"), ("value", .int 3)],
        .object [("value", .int 7), ("kind", .string "int"), ("span", .array [.int 4, .int 5])]]]),
      ("comment", .null),
      ("kind", .string "match"),
      ("span", .array [.bool true, .int 9]),
      ("subject", .object [("kind", .string "unit")])]
    let e : Expr := .matchOn ⟨.bool true, .int 9⟩ (.unit .origin)
      [(.wildcard .origin, .int (.ofInts 4 5) 7)]
    e.wellFormed = true ∧ loadExpr e.toJson path = .ok e ∧
      loadExpr v path = .ok e ∧ v.trim (.node .expr) = e.toJson := by
  intro path v e
  have read : loadExpr v path = .ok e := by cbv
  obtain ⟨⟨written, canonical⟩, -⟩ := Document.round_trip path
  obtain ⟨formed, same⟩ := canonical v e read
  exact ⟨formed, written e formed, read, same⟩

end Monotype
