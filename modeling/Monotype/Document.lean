import Monotype.Document.Fault
import Monotype.Json.Reader
import Monotype.Tree

/-!
Syntax trees in JSON documents. A node is an object with a `kind`, a `span` that may be left out,
and one field for each of its parts. Of several faults the first is found: the span comes before the
parts, and the parts come in the order of their names in `Expr` and `Pattern`.
-/

namespace Monotype

namespace Document

def field (key : String) (v : Json) : Except Fault { u : Json // sizeOf u < sizeOf v } :=
  match v with
  | .object fields =>
    match h : fields.lookup key with
    | some u => .ok ⟨u, Json.sizeOf_lt_of_lookup h⟩
    | none => .error (.here (.missing key))
  | _ => .error (.here (.missing key))

def string (key : String) (v : Json) : Except Fault String := do
  match ← field key v with
  | ⟨.string s, _⟩ => return s
  | _ => throw ⟨[.key key], .notAString⟩

def integer (key : String) (v : Json) : Except Fault Int := do
  match ← field key v with
  | ⟨.int n, _⟩ => return n
  | _ => throw ⟨[.key key], .notAnInteger⟩

def array (key : String) (v : Json) : Except Fault { us : List Json // sizeOf us < sizeOf v } := do
  match ← field key v with
  | ⟨.array us, h⟩ => return ⟨us, by simp at h; omega⟩
  | _ => throw ⟨[.key key], .notAnArray⟩

/-- An end of a span may be a truth value. -/
def offset? : Json → Option Offset
  | .int n => some (.int n)
  | .bool b => some (.bool b)
  | _ => none

def span (v : Json) : Except Fault Span :=
  match v.get? "span" with
  | none => .ok .origin
  | some (.array [a, b]) =>
    match offset? a, offset? b with
    | some start, some stop => .ok ⟨start, stop⟩
    | _, _ => .error ⟨[.key "span"], .badSpan⟩
  | some _ => .error ⟨[.key "span"], .badSpan⟩

def kind (v : Json) : Except Fault String :=
  match v with
  | .object _ => string "kind" v
  | _ => .error (.here .notAnObject)

end Document

open Document

mutual

def Pattern.ofJson (v : Json) : Except Fault Pattern := do
  match ← kind v with
  | "constructor" =>
    let s ← span v
    let label ← string "label" v
    let ⟨arg, _⟩ ← field "arg" v
    return .constructor s label (← within (.key "arg") (Pattern.ofJson arg))
  | "int" =>
    let s ← span v
    return .int s (← integer "value" v)
  | "name" =>
    let s ← span v
    return .name s (← string "value" v)
  | "tuple" =>
    let s ← span v
    let ⟨elements, _⟩ ← array "elements" v
    return .tuple s (← within (.key "elements") (Pattern.allOfJson 0 elements))
  | "unit" => return .unit (← span v)
  | "wildcard" => return .wildcard (← span v)
  | other => throw (.here (.unknownPattern other))
termination_by sizeOf v

def Pattern.allOfJson (index : Nat) (vs : List Json) : Except Fault (List Pattern) := do
  match vs with
  | [] => return []
  | v :: vs =>
    let p ← within (.index index) (Pattern.ofJson v)
    return p :: (← Pattern.allOfJson (index + 1) vs)
termination_by sizeOf vs

end

mutual

def Expr.ofJson (v : Json) : Except Fault Expr := do
  match ← kind v with
  | "apply" =>
    let s ← span v
    let ⟨func, _⟩ ← field "func" v
    let f ← within (.key "func") (Expr.ofJson func)
    let ⟨arg, _⟩ ← field "arg" v
    return .apply s f (← within (.key "arg") (Expr.ofJson arg))
  | "binop" =>
    let s ← span v
    let operator ← string "operator" v
    let ⟨left, _⟩ ← field "left" v
    let l ← within (.key "left") (Expr.ofJson left)
    let ⟨right, _⟩ ← field "right" v
    return .binop s operator l (← within (.key "right") (Expr.ofJson right))
  | "cond" =>
    let s ← span v
    let ⟨pred, _⟩ ← field "pred" v
    let p ← within (.key "pred") (Expr.ofJson pred)
    let ⟨cons, _⟩ ← field "cons" v
    let c ← within (.key "cons") (Expr.ofJson cons)
    let ⟨alt, _⟩ ← field "else" v
    return .cond s p c (← within (.key "else") (Expr.ofJson alt))
  | "constructor" =>
    let s ← span v
    let label ← string "label" v
    let ⟨arg, _⟩ ← field "arg" v
    return .constructor s label (← within (.key "arg") (Expr.ofJson arg))
  | "function" =>
    let s ← span v
    let ⟨param, _⟩ ← field "param" v
    let p ← within (.key "param") (Pattern.ofJson param)
    let ⟨body, _⟩ ← field "body" v
    return .function s p (← within (.key "body") (Expr.ofJson body))
  | "int" =>
    let s ← span v
    return .int s (← integer "value" v)
  | "let" =>
    let s ← span v
    let ⟨target, _⟩ ← field "pattern" v
    let t ← within (.key "pattern") (Pattern.ofJson target)
    let ⟨value, _⟩ ← field "value" v
    let bound ← within (.key "value") (Expr.ofJson value)
    let ⟨body, _⟩ ← field "body" v
    return .letIn s t bound (← within (.key "body") (Expr.ofJson body))
  | "match" =>
    let s ← span v
    let ⟨subject, _⟩ ← field "subject" v
    let e ← within (.key "subject") (Expr.ofJson subject)
    let ⟨cases, _⟩ ← array "cases" v
    let cs ← within (.key "cases") (Expr.casesOfJson 0 cases)
    if cs.isEmpty then
      throw ⟨[.key "cases"], .noCases⟩
    return .matchOn s e cs
  | "name" =>
    let s ← span v
    return .name s (← string "value" v)
  | "tuple" =>
    let s ← span v
    let ⟨elements, _⟩ ← array "elements" v
    return .tuple s (← within (.key "elements") (Expr.allOfJson 0 elements))
  | "unit" => return .unit (← span v)
  | other => throw (.here (.unknownExpr other))
termination_by sizeOf v

def Expr.allOfJson (index : Nat) (vs : List Json) : Except Fault (List Expr) := do
  match vs with
  | [] => return []
  | v :: vs =>
    let e ← within (.index index) (Expr.ofJson v)
    return e :: (← Expr.allOfJson (index + 1) vs)
termination_by sizeOf vs

def Expr.casesOfJson (index : Nat) (vs : List Json) : Except Fault (List (Pattern × Expr)) := do
  match vs with
  | [] => return []
  | .array [binder, body] :: vs =>
    let p ← within (.index index) (within (.index 0) (Pattern.ofJson binder))
    let b ← within (.index index) (within (.index 1) (Expr.ofJson body))
    return (p, b) :: (← Expr.casesOfJson (index + 1) vs)
  | _ => throw ⟨[.index index], .badCase⟩
termination_by sizeOf vs

end

namespace Document

/-- Ends reading: a fault of the value at a path becomes a failure, with what the log tells about
it. -/
def report {α : Type} (path : String) (x : Except Fault α) : Except (Failure × List Event) α :=
  x.mapError fun fault => (fault.toFailure path, fault.events path)

def loadExpr (v : Json) (path : String := "$") : Except (Failure × List Event) Expr :=
  report path (Expr.ofJson v)

def loadPattern (v : Json) (path : String := "$") : Except (Failure × List Event) Pattern :=
  report path (Pattern.ofJson v)

end Document

/-- Reads the text of a document. The events say what the log tells about a failure. -/
def Document.load (text : String) (parse : String → Except String Json := Json.read) :
    Except (Failure × List Event) Expr :=
  match parse text with
  | .error message =>
    .error (.malformed (Place.text []) ("invalid JSON (" ++ message ++ ")"), [.invalidDocument])
  | .ok v => loadExpr v

end Monotype
