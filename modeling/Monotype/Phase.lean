/-!
Phases of a run. A phase hands a value on to the next one or ends the run with a text.
-/

namespace Monotype

inductive Phase (α : Type) where
  | next (value : α)
  | stop (message : String)
deriving Repr, DecidableEq

namespace Phase

variable {α β : Type} {m : Type → Type} [Monad m]

/-- Goes on with the next phase, unless the run has ended. -/
def chain (p : Phase α) (f : α → m (Phase β)) : m (Phase β) :=
  match p with
  | .next a => f a
  | .stop message => pure (.stop message)

def message (default : String) : Phase α → String
  | .next _ => default
  | .stop message => message

end Phase

end Monotype
