import Wiring.Main
import Wiring.Proofs.Fulfillment
import Wiring.Proofs.Resolution.Visits
import Wiring.Text.Alphanumeric
import Wiring.TypeExpr.Grammar
import Wiring.Proofs.Resolution.Depth
import Wiring.Proofs.Emission.Order
import Wiring.Proofs.Emission.Steps
import Wiring.Proofs.Resolution.EagerCycles
import Wiring.Proofs.Resolution.Tree
import Wiring.Proofs.Component.Arguments
import Wiring.Proofs.Emission.Bodies
import Wiring.Proofs.Emission.Scoping
import Wiring.Proofs.Emission.Capture
import Wiring.Proofs.Emission.Functions
import Wiring.Proofs.Emission.References
import Wiring.Proofs.Emission.Rendering
import Wiring.Proofs.Emission.Recursion
import Wiring.Proofs.Program
import Wiring.Proofs.TypeExpr.Roundtrip
import Wiring.Proofs.TypeExpr.Order
import Wiring.Proofs.Resolution.Receiving
import Wiring.Proofs.Resolution.Extension
import Wiring.Proofs.Resolution.Log
import Wiring.Proofs.Component.Rearranged
import Wiring.Proofs.Resolution.Rearranged
import Wiring.Proofs.Emission.Acyclic
import Wiring.Proofs.Emission.Rearranged
import Wiring.Proofs.DeclarationOrder
import Wiring.Proofs.Json
import Wiring.Proofs.TypeExpr.Json
import Wiring.Proofs.Manifest
import Wiring.Proofs.TypeExpr.Settled
import Wiring.Proofs.TypeExpr.Trimmed
import Wiring.Proofs.Resolution.Branches
import Wiring.Proofs.Graph.Aliases
import Wiring.Proofs.Registration
import Wiring.Proofs.Emission.Topological
import Wiring.Proofs.Command.FailingRuns
import Wiring.Proofs.Resolution.StructuralCycles
import Wiring.Proofs.TypeExpr.Composition
import Wiring.Proofs.Emission.Calls
import Wiring.Proofs.Resolution.Edited
import Wiring.Proofs.Resolution.Repairs
import Wiring.Proofs.Component.Matching
import Wiring.Proofs.Emission.Layout
import Wiring.Proofs.Graph.Roots
import Wiring.Proofs.Graph.Reading
import Wiring.Proofs.Emission.Free
import Wiring.Proofs.Settings.Layers
import Wiring.Proofs.Disk.Writing
import Wiring.Proofs.TypeExpr.Progress
