import ObjectFlow.Dataflow.Sweep
import ObjectFlow.Dataflow.WorkList
import ObjectFlow.Options
/-!
# Choice of the solver

The option `solver` chooses between the work list, which is the default, and sweeps.
-/

namespace ObjectFlow.Dataflow

open Std

inductive SolverKind where
  | workList
  | sweep
deriving DecidableEq, Repr

/-- The solver that a configuration asks for. -/
def SolverKind.ofConfig (config : AnalysisConfig) : Except Error SolverKind :=
  match config.options.getD "solver" "worklist" with
  | "worklist" => .ok .workList
  | "iterative" => .ok .sweep
  | value => .error (.invalidOptionValue "solver" value)

variable {N F : Type} [Ord N] [TransOrd N] [DecidableEq N] [DecidableEq F]

/-- The solution that a solver finds, or `none` if it would never end. -/
def solve (kind : SolverKind) (a : Analysis N F) (g : FlowGraph N) : Option (Solution N F) :=
  match kind with
  | .workList => WorkList.run a g (WorkList.budget a g)
  | .sweep => Sweep.run a g (Sweep.budget a g)

end ObjectFlow.Dataflow
