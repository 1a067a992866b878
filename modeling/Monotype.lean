import Monotype.Host.Memory
import Monotype.Infer.Draft
import Monotype.Infer.Inferer
import Monotype.Main
import Monotype.Proofs.Accounts
import Monotype.Proofs.Batch
import Monotype.Proofs.Binding
import Monotype.Proofs.Blame
import Monotype.Proofs.Cases
import Monotype.Proofs.Completeness
import Monotype.Proofs.Counter
import Monotype.Proofs.Inferer
import Monotype.Proofs.Leaves
import Monotype.Proofs.Legible
import Monotype.Proofs.Letters
import Monotype.Proofs.Levels
import Monotype.Proofs.Order
import Monotype.Proofs.Outcome
import Monotype.Proofs.PatternText
import Monotype.Proofs.Places
import Monotype.Proofs.Pointers
import Monotype.Proofs.Printing
import Monotype.Proofs.RoundTrip
import Monotype.Proofs.Sharing
import Monotype.Proofs.Spans
import Monotype.Tree.Indent
import Monotype.Tree.Same
