import ObjectFlow.CallGraph.Drawing
import ObjectFlow.Cfg.Drawing
import ObjectFlow.DeadCode
import ObjectFlow.PointsTo.Solver
import ObjectFlow.Proofs.DeadCode.Agreement
import ObjectFlow.Proofs.DeadCode.Reached
import ObjectFlow.Proofs.DeadCode.Removal
import ObjectFlow.Proofs.PointsTo.Soundness
import ObjectFlow.Proofs.Liveness.Paths
import ObjectFlow.Proofs.PointsTo.History
import ObjectFlow.Proofs.Program.Ownership
import ObjectFlow.Proofs.CallGraph.FromHierarchy
import ObjectFlow.Proofs.PointsTo.Territory
import ObjectFlow.Proofs.PointsTo.Hierarchy
import ObjectFlow.Proofs.ConstProp.Stability
import ObjectFlow.Proofs.Dataflow.Boundary
import ObjectFlow.Proofs.Program.Signatures
import ObjectFlow.Proofs.Options.RoundTrip
import ObjectFlow.CallGraph.Tables
import ObjectFlow.Proofs.CallGraph.Tables
import ObjectFlow.Program.Steps
import ObjectFlow.Proofs.Program.Steps
import ObjectFlow.Proofs.Program.Consistency
import ObjectFlow.Proofs.Program.Checks
import ObjectFlow.Proofs.Program.Indices
import ObjectFlow.Proofs.CallGraph.Resolution
import ObjectFlow.Proofs.Signature.Agreement
import ObjectFlow.Proofs.ConstProp.Monotony
import ObjectFlow.Proofs.PointsTo.Reordering
import ObjectFlow.Proofs.DeadCode.Report
import ObjectFlow.Proofs.Cfg.Shape
import ObjectFlow.Proofs.CallGraph.Exploration
import ObjectFlow.Proofs.Dataflow.Loops
import ObjectFlow.ConstProp.Faults
import ObjectFlow.Proofs.ConstProp.Folding
import ObjectFlow.ConstProp.Table
import ObjectFlow.Proofs.ConstProp.Tables
import ObjectFlow.Proofs.PointsTo.Upkeep
