import Workflow.Delegate.Stub
import Workflow.Main
import Workflow.Proofs.Acyclic
import Workflow.Proofs.Atomicity
import Workflow.Proofs.Bracketing
import Workflow.Proofs.Children
import Workflow.Proofs.Choices
import Workflow.Proofs.Comparisons
import Workflow.Proofs.Composites
import Workflow.Proofs.Conclusions
import Workflow.Proofs.Connecting
import Workflow.Proofs.ConsistentSessions
import Workflow.Proofs.Counting
import Workflow.Proofs.Depth
import Workflow.Proofs.Endings
import Workflow.Proofs.Grid
import Workflow.Proofs.Isolation
import Workflow.Proofs.Items
import Workflow.Proofs.Iterations
import Workflow.Proofs.KeyedPorts
import Workflow.Proofs.Layout
import Workflow.Proofs.NodeOrder
import Workflow.Proofs.Once
import Workflow.Proofs.Parts
import Workflow.Proofs.Reference
import Workflow.Proofs.Refusals
import Workflow.Proofs.Renaming
import Workflow.Proofs.RoutePorts
import Workflow.Proofs.Routes
import Workflow.Proofs.Rows
import Workflow.Proofs.Sequence
import Workflow.Proofs.Sizes
import Workflow.Proofs.Statuses
import Workflow.Proofs.Tables
import Workflow.Proofs.Verdict
