import Monotype.Span

/-!
Misuses: calls that make no sense, as opposed to programs that have no type. They come from values
built by hand, and nothing that is read from a document leads to one.
-/

namespace Monotype

inductive Misuse where
  | blankResolved
  | blankShown
  | blankSearched
  | shownAsPattern (kind : String)
  | nameless
  /-- A node of this kind was to be put into a set. -/
  | unhashable (kind : String)
  | matchedExpression
  | badOffset (offset : Offset)
  | causeless
  | notATuple (kind : String)
  | notAVariant (kind : String)
  | notAConfig (kind : String)
deriving Repr, DecidableEq, Inhabited

def Misuse.message : Misuse → String
  | .blankResolved => "None is an invalid subtype of Type."
  | .blankShown => "Unable to render a NoneType as a type."
  | .blankSearched => "argument of type 'NoneType' is not iterable"
  | .shownAsPattern kind => "Unable to render a " ++ kind ++ " as a pattern."
  | .nameless => "`value` is supposed to be a string, not None."
  | .unhashable kind => "unhashable type: '" ++ kind ++ "'"
  | .matchedExpression | .causeless => ""
  | .badOffset offset => offset.text ++ " is not a valid offset into the source text."
  | .notATuple kind => "object of type '" ++ kind ++ "' has no len()"
  | .notAVariant kind => "'" ++ kind ++ "' object has no attribute 'label'"
  | .notAConfig kind => "unsupported operand type(s) for |: 'ConfigData' and '" ++ kind ++ "'"

end Monotype
