import ObjectFlow.ConstProp.Basic
import ObjectFlow.Dataflow.Solve
import ObjectFlow.Liveness
import ObjectFlow.Search
/-!
# Dead code

A statement is dead if no feasible path leads to it, or if it assigns a variable that is not live
afterwards and computes nothing but the value. Constant propagation decides which branches are
feasible.
-/

namespace ObjectFlow.DeadCode

open Std Dataflow

variable (holdsInt : VarId → Bool) (g : Cfg)

/-- Whether an edge out of a statement can be taken when `f` holds before the statement. -/
def mayTake (f : ConstProp.Fact) (i : Instr) (kind : Cfg.EdgeKind) : Bool :=
  match i with
  | .branch cond _ =>
    match (ConstProp.evalBinary holdsInt f cond.toBinary).constant? with
    | some c => kind = if c ≠ 0 then .ifTrue else .ifFalse
    | none => true
  | .switch v cases _ =>
    match (ConstProp.evalVar holdsInt f v).constant? with
    | some c =>
      match kind with
      | .switchCase value => value = c
      | .switchDefault => !cases.any (·.1 = c)
      | _ => false
    | none => true
  | _ => true

/-- The edges out of a node that can be taken. -/
def feasible (constants : ExtTreeMap Cfg.Node ConstProp.Fact) (n : Cfg.Node) : List Cfg.Edge :=
  match g.stmt? n, constants[n]? with
  | some s, some f => (g.outEdges n).filter fun e => mayTake holdsInt f s.instr e.kind
  | _, _ => g.outEdges n

/-- The nodes on feasible paths from the entry. -/
def reached (constants : ExtTreeMap Cfg.Node ConstProp.Fact) : List Cfg.Node :=
  breadthFirst (fun n => (feasible holdsInt g constants n).map Cfg.Edge.target)
    g.nodes.length .entry

/-- Whether a statement assigns a variable that is not live after it, and does nothing else. -/
def isDeadAssignment (live : Option (SetFact VarId)) : Instr → Bool
  | .assign lhs rhs => !(live.any (·.contains lhs)) && rhs.isPure
  | _ => false

/-- The indices of the dead statements, given the constants before and the live variables after
each node. -/
def deadStmts (constants : ExtTreeMap Cfg.Node ConstProp.Fact)
    (live : ExtTreeMap Cfg.Node (SetFact VarId)) : List Nat :=
  let nodes := reached holdsInt g constants
  let assignments := nodes.filterMap fun n =>
    (g.stmt? n).bind fun s => if isDeadAssignment live[n]? s.instr then some s.index else none
  let unreached := (g.body.stmts.map Stmt.index).filter fun i => .stmt i ∉ nodes
  sorted (assignments ++ unreached)

/-- The indices of the dead statements of a body, ascending; `none` if a solver would never end. -/
def analyze (kind : SolverKind) (b : Body) : Option (List Nat) := do
  let g := Cfg.ofBody b
  let constants ← solve kind (ConstProp.analysis holdsInt b) g.flow
  let live ← solve kind (Liveness.analysis b) g.flow
  return deadStmts holdsInt g constants.inFacts live.outFacts

end ObjectFlow.DeadCode
