import Monotype.Tree

/-!
Equality of trees. Two trees are the same if they differ in nothing but their spans.
-/

namespace Monotype

mutual

/-- Whether two expressions are equal when spans are left aside. -/
def Expr.same : Expr → Expr → Bool
  | .unit _, .unit _ => true
  | .int _ a, .int _ b => a == b
  | .name _ a, .name _ b => a == b
  | .tuple _ as, .tuple _ bs => Expr.sameAll as bs
  | .binop _ o a b, .binop _ p c d => o == p && a.same c && b.same d
  | .apply _ a b, .apply _ c d => a.same c && b.same d
  | .constructor _ k a, .constructor _ l b => k == l && a.same b
  | .function _ p a, .function _ q b => p.same q && a.same b
  | .cond _ a b c, .cond _ d e f => a.same d && b.same e && c.same f
  | .letIn _ p a b, .letIn _ q c d => p.same q && a.same c && b.same d
  | .matchOn _ a cs, .matchOn _ b ds => a.same b && Expr.sameCases cs ds
  | .pattern p, .pattern q => p.same q
  | _, _ => false
termination_by structural a => a

def Pattern.same : Pattern → Pattern → Bool
  | .unit _, .unit _ => true
  | .int _ a, .int _ b => a == b
  | .wildcard _, .wildcard _ => true
  | .name _ a, .name _ b => a == b
  | .constructor _ k p, .constructor _ l q => k == l && p.same q
  | .tuple _ ps, .tuple _ qs => Pattern.sameAll ps qs
  | .expr a, .expr b => a.same b
  | _, _ => false
termination_by structural p => p

def Expr.sameAll : List Expr → List Expr → Bool
  | [], [] => true
  | a :: as, b :: bs => a.same b && Expr.sameAll as bs
  | _, _ => false
termination_by structural as => as

def Pattern.sameAll : List Pattern → List Pattern → Bool
  | [], [] => true
  | p :: ps, q :: qs => p.same q && Pattern.sameAll ps qs
  | _, _ => false
termination_by structural ps => ps

def Expr.sameCases : List (Pattern × Expr) → List (Pattern × Expr) → Bool
  | [], [] => true
  | (p, a) :: cs, (q, b) :: ds => p.same q && a.same b && Expr.sameCases cs ds
  | _, _ => false
termination_by structural cs => cs

end

/-- How a node behaves as a member of a set. -/
inductive Membership where
  | byValue
  | byIdentity
  | refused (kind : String)
deriving Repr, DecidableEq

/-- Names, integers and units are told apart by value, other expressions by identity, and patterns
cannot be members at all. -/
def Expr.membership : Expr → Membership
  | .unit _ | .int .. | .name .. => .byValue
  | .pattern p => .refused p.kindName
  | _ => .byIdentity

/-- What a tree can be compared with: a tree, a text, or a value that no tree is equal to. -/
inductive Comparand where
  | tree (expr : Expr)
  | text (value : String)
  | other

namespace Comparand

/-- A tree is the same as an equal tree, and a name is the same as its text. -/
def same (e : Expr) : Comparand → Bool
  | .tree f => e.same f
  | .text s => match e with
    | .name _ x => x == s
    | _ => false
  | .other => false

/-- How many members a set of a tree and another value has, or the kind of the first of the two
that is refused. -/
def distinct (e : Expr) (c : Comparand) : Except String Nat :=
  match e.membership with
  | .refused kind => .error kind
  | .byIdentity => other
  | .byValue => other.map fun n => if same e c then 1 else n
where
  other : Except String Nat := match c with
    | .tree f => match f.membership with
      | .refused kind => .error kind
      | _ => .ok 2
    | _ => .ok 2

end Comparand

end Monotype
