import Monotype.Event
import Monotype.Failure

/-!
Faults of documents. A fault is located by the way from the root of the document to the value that
is at fault.
-/

namespace Monotype

inductive Place.Step where
  | key (name : String)
  | index (value : Nat)
deriving Repr, DecidableEq, Inhabited

abbrev Place := List Place.Step

namespace Place

def Step.text : Step → String
  | .key name => "." ++ name
  | .index value => "[" ++ toString value ++ "]"

def suffix (place : Place) : String := String.join (place.map Step.text)

/-- The text of a place. The root of a document is `$`. -/
def text (place : Place) (root : String := "$") : String := root ++ place.suffix

end Place

inductive Fault.Reason where
  | notAnObject
  | notAString
  | notAnInteger
  | notAnArray
  | missing (key : String)
  | badSpan
  | badCase
  | noCases
  | unknownExpr (kind : String)
  | unknownPattern (kind : String)
deriving Repr, DecidableEq, Inhabited

def Fault.Reason.text : Fault.Reason → String
  | .notAnObject => "expected an object"
  | .notAString => "expected a string"
  | .notAnInteger => "expected an integer"
  | .notAnArray => "expected an array"
  | .missing key => "missing the \"" ++ key ++ "\" field"
  | .badSpan => "a span must be a pair of integers"
  | .badCase => "a case must be a [pattern, body] pair"
  | .noCases => "a match needs at least one case"
  | .unknownExpr kind => "unknown expression kind \"" ++ kind ++ "\""
  | .unknownPattern kind => "unknown pattern kind \"" ++ kind ++ "\""

structure Fault where
  place : Place
  reason : Fault.Reason
deriving Repr, DecidableEq, Inhabited

namespace Fault

/-- A fault of the value that is being looked at. -/
def here (reason : Reason) : Fault := ⟨[], reason⟩

/-- The same fault seen from one step further out. -/
def inside (step : Place.Step) (f : Fault) : Fault := ⟨step :: f.place, f.reason⟩

def toFailure (f : Fault) (path : String := "$") : Failure :=
  .malformed (f.place.text path) f.reason.text

def events (f : Fault) (path : String := "$") : List Event :=
  match f.reason with
  | .missing key => [.missingField key (f.place.text path)]
  | _ => []

end Fault

/-- Looks at a part of a value: faults in there are located from the value. -/
def within {α : Type} (step : Place.Step) (part : Except Fault α) : Except Fault α :=
  part.mapError (Fault.inside step)

end Monotype
