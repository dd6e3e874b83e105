import Snippet.Main
import Snippet.Proofs.Callable.Native
import Snippet.Proofs.Emit.Layout
import Snippet.Proofs.Emit.Order
import Snippet.Proofs.Emit.Outcome
import Snippet.Proofs.Emit.Pooling
import Snippet.Proofs.Flow.Soundness
import Snippet.Proofs.Grammar.ProgressTree
import Snippet.Proofs.Grammar.RoundTrip
import Snippet.Proofs.Image.Codec
import Snippet.Proofs.Image.WellFormed
import Snippet.Proofs.Library.Adding
import Snippet.Proofs.Machine.Depth
import Snippet.Proofs.Machine.Folding
import Snippet.Proofs.Machine.Increment
import Snippet.Proofs.Machine.ReadOnly
import Snippet.Proofs.Machine.Safety
import Snippet.Proofs.Machine.TextMember
import Snippet.Proofs.Passing.Reference
import Snippet.Proofs.Settings.Saving
import Snippet.Proofs.Settings.Versions
import Snippet.Proofs.Shape.Nameable
import Snippet.Proofs.Shape.Symbols
import Snippet.Proofs.Source.Quoted
import Snippet.Proofs.Source.Scanning
import Snippet.Proofs.Typing.Linked
import Snippet.Proofs.Typing.Literal
import Snippet.Proofs.Typing.Overloading
import Snippet.Proofs.Typing.Place
import Snippet.Proofs.Typing.ReorderingProgram
import Snippet.Proofs.Typing.ScopesProgram
import Snippet.Proofs.Typing.WholeProgram
import Snippet.Proofs.Value.Nesting
