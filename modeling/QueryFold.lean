import QueryFold.Chain.Fold
import QueryFold.Encoding.Chain
import QueryFold.Encoding.Outline
import QueryFold.Encoding.Settings
import QueryFold.Json.Reader
import QueryFold.Json.Writer
import QueryFold.Main
import QueryFold.Proofs.Chain.Acceptance
import QueryFold.Proofs.Chain.Asking
import QueryFold.Proofs.Chain.Built
import QueryFold.Proofs.Chain.Calls
import QueryFold.Proofs.Chain.Casting
import QueryFold.Proofs.Chain.Checking
import QueryFold.Proofs.Chain.Comprehension
import QueryFold.Proofs.Chain.Consistency
import QueryFold.Proofs.Chain.Coupling
import QueryFold.Proofs.Chain.Depth
import QueryFold.Proofs.Chain.Discharge
import QueryFold.Proofs.Chain.Drawing
import QueryFold.Proofs.Chain.Failure
import QueryFold.Proofs.Chain.Folding
import QueryFold.Proofs.Chain.Fusion
import QueryFold.Proofs.Chain.Grounding
import QueryFold.Proofs.Chain.Image
import QueryFold.Proofs.Chain.ItemTypes
import QueryFold.Proofs.Chain.Items
import QueryFold.Proofs.Chain.Layout
import QueryFold.Proofs.Chain.Limit
import QueryFold.Proofs.Chain.Naming
import QueryFold.Proofs.Chain.Nesting
import QueryFold.Proofs.Chain.Order
import QueryFold.Proofs.Chain.Pushed
import QueryFold.Proofs.Chain.Recursion
import QueryFold.Proofs.Chain.Renaming
import QueryFold.Proofs.Chain.Renumbering
import QueryFold.Proofs.Chain.Resolution
import QueryFold.Proofs.Chain.Run
import QueryFold.Proofs.Chain.Sober
import QueryFold.Proofs.Chain.Soundness
import QueryFold.Proofs.Chain.Step
import QueryFold.Proofs.Chain.Supply
import QueryFold.Proofs.Chain.Termination
import QueryFold.Proofs.Chain.Transport
import QueryFold.Proofs.Chain.Typing
import QueryFold.Proofs.Chain.Unbound
import QueryFold.Proofs.Chain.Walk
import QueryFold.Proofs.Encoding.Chain
import QueryFold.Proofs.Encoding.Language
import QueryFold.Proofs.Encoding.Parts
import QueryFold.Proofs.Encoding.Record
import QueryFold.Proofs.Encoding.RoundTrip
import QueryFold.Proofs.Expr.Instantiation
import QueryFold.Proofs.Expr.Listing
import QueryFold.Proofs.Expr.Occurrence
import QueryFold.Proofs.Expr.Renumbering
import QueryFold.Proofs.Expr.Scoping
import QueryFold.Proofs.Expr.Substitution
import QueryFold.Proofs.Outline
import QueryFold.Proofs.Query.Dependence
import QueryFold.Proofs.Query.Editing
import QueryFold.Proofs.Query.Growth
import QueryFold.Proofs.Query.Renumbering
import QueryFold.Proofs.Query.Retyping
import QueryFold.Proofs.Query.Rewriting
import QueryFold.Proofs.Query.Traversal
import QueryFold.Proofs.Query.Validity
import QueryFold.Proofs.Query.Values
import QueryFold.Proofs.Query.WellFormed
import QueryFold.Settings.Environment
import QueryFold.Settings.File
