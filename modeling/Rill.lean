import Rill.Main
import Rill.Proofs.Placed
import Rill.Proofs.Reading
import Rill.Proofs.Lexing
import Rill.Proofs.Faults
import Rill.Proofs.Spans
import Rill.Proofs.Concatenation
import Rill.Proofs.Normalized
import Rill.Proofs.Returns
import Rill.Proofs.LineCount
import Rill.Proofs.Progress
import Rill.Proofs.Characters
import Rill.Proofs.Grammar
import Rill.Proofs.Spelling
import Rill.Proofs.Rendering
import Rill.Proofs.Erased
import Rill.Proofs.Flags
import Rill.Proofs.Invocation
import Rill.Proofs.Fused
import Rill.Proofs.Logged
import Rill.Proofs.Moves
import Rill.Proofs.Trees
