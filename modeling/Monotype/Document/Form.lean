import Monotype.Json
import Monotype.Tree

/-!
The form of documents. Each sort of nodes has its kinds, and each kind its fields beside the `kind`
and the `span`. A tree is written with all fields in this order. A document may hold more and say it
in another order: `Json.trim` leaves what the form asks for.
-/

namespace Monotype

/-! ### The fields of nodes -/

inductive NodeSort where
  | expr
  | pattern
deriving Repr, DecidableEq, Inhabited

inductive Shape where
  /-- A value without nodes in it. -/
  | data
  | node (sort : NodeSort)
  | array (element : Shape)
  | pair (first second : Shape)
deriving Repr, DecidableEq, Inhabited

def NodeSort.kinds : NodeSort → List String
  | .expr => ["apply", "binop", "cond", "constructor", "function", "int", "let", "match", "name",
    "tuple", "unit"]
  | .pattern => ["constructor", "int", "name", "tuple", "unit", "wildcard"]

/-- The fields of a kind of nodes. A kind that does not exist has none. -/
def NodeSort.fields : NodeSort → String → List (String × Shape)
  | .expr, "int" => [("value", .data)]
  | .expr, "name" => [("value", .data)]
  | .expr, "let" => [("pattern", .node .pattern), ("value", .node .expr), ("body", .node .expr)]
  | .expr, "function" => [("param", .node .pattern), ("body", .node .expr)]
  | .expr, "cond" => [("pred", .node .expr), ("cons", .node .expr), ("else", .node .expr)]
  | .expr, "tuple" => [("elements", .array (.node .expr))]
  | .expr, "binop" => [("operator", .data), ("left", .node .expr), ("right", .node .expr)]
  | .expr, "match" =>
    [("subject", .node .expr), ("cases", .array (.pair (.node .pattern) (.node .expr)))]
  | .expr, "apply" => [("func", .node .expr), ("arg", .node .expr)]
  | .expr, "constructor" => [("label", .data), ("arg", .node .expr)]
  | .pattern, "int" => [("value", .data)]
  | .pattern, "name" => [("value", .data)]
  | .pattern, "constructor" => [("label", .data), ("arg", .node .pattern)]
  | .pattern, "tuple" => [("elements", .array (.node .pattern))]
  | _, _ => []

/-! ### Trees as documents -/

def Offset.toJson : Offset → Json
  | .int n => .int n
  | .bool b => .bool b

def Span.toJson (s : Span) : Json := .array [s.start.toJson, s.stop.toJson]

def Json.node (kind : String) (span : Span) (fields : List (String × Json)) : Json :=
  .object (("kind", .string kind) :: ("span", span.toJson) :: fields)

mutual

/-- The document of a pattern. There is none for an expression in its place. -/
def Pattern.toJson : Pattern → Json
  | .unit s => .node "unit" s []
  | .int s n => .node "int" s [("value", .int n)]
  | .wildcard s => .node "wildcard" s []
  | .name s x => .node "name" s [("value", .string x)]
  | .constructor s label arg =>
    .node "constructor" s [("label", .string label), ("arg", arg.toJson)]
  | .tuple s ps => .node "tuple" s [("elements", .array (Pattern.allToJson ps))]
  | .expr _ => .null

def Pattern.allToJson : List Pattern → List Json
  | [] => []
  | p :: ps => p.toJson :: Pattern.allToJson ps

end

mutual

/-- The document of an expression. There is none for a pattern in its place. -/
def Expr.toJson : Expr → Json
  | .unit s => .node "unit" s []
  | .int s n => .node "int" s [("value", .int n)]
  | .name s x => .node "name" s [("value", .string x)]
  | .tuple s es => .node "tuple" s [("elements", .array (Expr.allToJson es))]
  | .binop s op l r =>
    .node "binop" s [("operator", .string op), ("left", l.toJson), ("right", r.toJson)]
  | .apply s f a => .node "apply" s [("func", f.toJson), ("arg", a.toJson)]
  | .constructor s label a => .node "constructor" s [("label", .string label), ("arg", a.toJson)]
  | .function s p b => .node "function" s [("param", p.toJson), ("body", b.toJson)]
  | .cond s p c a => .node "cond" s [("pred", p.toJson), ("cons", c.toJson), ("else", a.toJson)]
  | .letIn s p v b =>
    .node "let" s [("pattern", p.toJson), ("value", v.toJson), ("body", b.toJson)]
  | .matchOn s e cases =>
    .node "match" s [("subject", e.toJson), ("cases", .array (Expr.casesToJson cases))]
  | .pattern _ => .null

def Expr.allToJson : List Expr → List Json
  | [] => []
  | e :: es => e.toJson :: Expr.allToJson es

def Expr.casesToJson : List (Pattern × Expr) → List Json
  | [] => []
  | (p, b) :: cases => .array [p.toJson, b.toJson] :: Expr.casesToJson cases

end

/-! ### Documents without the rest -/

/-- The document with the fields that the kinds of its nodes name, and no others, in the order of the
form and on every level. A span that is missing is `[0, 0]`. What is not of the shape is kept as it
is. -/
def Json.trim (shape : Shape) (v : Json) : Json :=
  match shape, v with
  | .node sort, .object fields =>
    match fields.lookup "kind" with
    | some (.string kind) =>
      .object (("kind", .string kind) ::
        ("span", (fields.lookup "span").getD Span.origin.toJson) ::
        (sort.fields kind).filterMap fun field =>
          match _found : fields.lookup field.1 with
          | some u => some (field.1, u.trim field.2)
          | none => none)
    | _ => .object fields
  | .array element, .array vs => .array (vs.map (Json.trim element))
  | .pair first second, .array [u, w] => .array [u.trim first, w.trim second]
  | _, v => v
termination_by sizeOf v
decreasing_by
  · exact Json.sizeOf_lt_of_lookup ‹_›
  · exact Json.sizeOf_lt_of_mem ‹_›
  · simp; omega
  · simp; omega

end Monotype
