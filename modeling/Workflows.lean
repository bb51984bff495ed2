import Workflows.Main
import Workflows.Lock.Registry
import Workflows.Subprocess.Tree
import Workflows.Proofs.Engine.DepthFirst
import Workflows.Proofs.World
import Workflows.Event.Codec
import Workflows.Proofs.Node.Apart
import Workflows.Proofs.Node.Made
import Workflows.Proofs.Node.Ran
import Workflows.Proofs.Node.Alike
import Workflows.Proofs.Node.Retry
import Workflows.Proofs.Node.Requests
import Workflows.Proofs.Engine.Move
import Workflows.Proofs.Engine.Stretch
import Workflows.Proofs.Engine.Walk
import Workflows.Proofs.Engine.Kept
import Workflows.Proofs.Engine.Operation
import Workflows.Proofs.Engine.Status
import Workflows.Proofs.Store.Saved
import Workflows.Proofs.Engine.Link
import Workflows.Proofs.Engine.Level
import Workflows.Proofs.Engine.Parking
import Workflows.Proofs.Engine.Recursion
import Workflows.Proofs.Engine.Budget
import Workflows.Proofs.Engine.Refusal
import Workflows.Proofs.Engine.Ascent
import Workflows.Proofs.Engine.Family
import Workflows.Proofs.Engine.Telling
import Workflows.Proofs.Engine.Memory
import Workflows.Proofs.Engine.Downfall
import Workflows.Proofs.Engine.Alike
import Workflows.Proofs.Engine.Twin
import Workflows.Proofs.Engine.Arrival
import Workflows.Proofs.Engine.Coherent
import Workflows.Proofs.Engine.Rewrite
import Workflows.Proofs.Engine.History
import Workflows.Proofs.Engine.Tour
import Workflows.Proofs.Engine.Branches
import Workflows.Proofs.Engine.Nesting
import Workflows.Proofs.Engine.Announced
import Workflows.Proofs.Store.Clients
import Workflows.Proofs.Engine.Resumption
import Workflows.Proofs.Engine.Trail
import Workflows.Proofs.Engine.Faithful
import Workflows.Proofs.Engine.Handover
import Workflows.Proofs.Engine.Wakeup
import Workflows.Proofs.Lock.Exclusion
import Workflows.Proofs.Engine.Safeguard
import Workflows.Proofs.Engine.SingleStep
import Workflows.Proofs.Engine.Locking
import Workflows.Proofs.Engine.Pinning
import Workflows.Proofs.Definition.Reach
import Workflows.Proofs.Definition.Routing
import Workflows.Proofs.Command.Validate
import Workflows.Proofs.Engine.Validated
import Workflows.Proofs.Expr.Observed
import Workflows.Proofs.Expr.Grammar
import Workflows.Proofs.Expr.Reader
import Workflows.Proofs.Expr.Words
import Workflows.Proofs.Expr.Writing
import Workflows.Proofs.Expr.Respelling
import Workflows.Proofs.Expr.Filling
import Workflows.Proofs.Expr.Placeholder
import Workflows.Proofs.Expr.Chain
import Workflows.Proofs.Number.Nearest
import Workflows.Proofs.Number.Doubles
import Workflows.Proofs.Expr.Comparison
import Workflows.Proofs.Subprocess.Isolation
import Workflows.Proofs.Engine.Accepted
import Workflows.Proofs.Json.Records
import Workflows.Proofs.Time.Calendar
import Workflows.Proofs.Time.Text
import Workflows.Proofs.Store.RoundTrip
import Workflows.Proofs.Failure
import Workflows.Proofs.Renaming.Value
import Workflows.Proofs.Renaming.Looks
import Workflows.Proofs.Renaming.Worlds
import Workflows.Proofs.Renaming.Sessions
import Workflows.Proofs.Renaming.Nodes
import Workflows.Proofs.Renaming.Attempts
import Workflows.Proofs.Renaming.Records
import Workflows.Proofs.Renaming.Walks
import Workflows.Proofs.Renaming.Operations
import Workflows.Proofs.Expr.Arithmetic
import Workflows.Proofs.Definition.Numbers
import Workflows.Proofs.Node.Declared
import Workflows.Proofs.Engine.Changes
import Workflows.Proofs.Store.Children
import Workflows.Proofs.Subprocess.Tree
import Workflows.Proofs.Engine.Ancestry
import Workflows.Proofs.Store.Selection
import Workflows.Proofs.Json.Numbers
import Workflows.Proofs.Json.SortKeys
import Workflows.Proofs.Store.Catalog
import Workflows.Proofs.Store.Criteria
import Workflows.Proofs.Number.Sums
import Workflows.Proofs.Json.Sorting
import Workflows.Proofs.Json.Aggregates
import Workflows.Proofs.Node.Lists
import Workflows.Proofs.Node.Tasks
import Workflows.Proofs.Json.Paths
import Workflows.Proofs.Expr.Size
import Workflows.Proofs.Node.Loops
import Workflows.Proofs.Number.Overflow
import Workflows.Proofs.Number.Numerals
import Workflows.Proofs.Node.Conversion
