import ObjectFlow.Order
/-!
# Dataflow analyses

A `FlowGraph` is what a solver sees of a control-flow graph, an `Analysis` gives the facts and how
they flow. Solvers speak of the input and the output of a node; which of them is the fact before the
node and which the fact after it follows from the direction.
-/

namespace ObjectFlow.Dataflow

open Std

/-- A control-flow graph: its nodes in a fixed order and the ends of the edges at each node. An edge
may be listed several times and may lead outside `nodes`. -/
structure FlowGraph (N : Type) where
  entry : N
  exit : N
  nodes : List N
  preds : N → List N
  succs : N → List N

/-- The graph with all edges turned round. -/
def FlowGraph.reverse {N : Type} (g : FlowGraph N) : FlowGraph N where
  entry := g.exit
  exit := g.entry
  nodes := g.nodes.reverse
  preds := g.succs
  succs := g.preds

inductive Direction where
  | forward
  | backward
deriving DecidableEq, Repr

/-- A dataflow analysis with facts `F` on nodes `N`. -/
structure Analysis (N F : Type) where
  direction : Direction
  /-- The fact at the node where the analysis starts. -/
  boundary : F
  /-- The fact from which every other node starts. -/
  initial : F
  /-- Merges its first argument into the second. -/
  meet : F → F → F
  transfer : N → F → F
  /-- A bound on the bits that tell apart the facts of one node. -/
  capacity : Nat

namespace Analysis

variable {N F : Type} (a : Analysis N F) (g : FlowGraph N)

/-- The node that holds the boundary fact. -/
def start : N :=
  match a.direction with
  | .forward => g.entry
  | .backward => g.exit

/-- The nodes whose outputs flow into `n`. -/
def sources (n : N) : List N :=
  match a.direction with
  | .forward => g.preds n
  | .backward => g.succs n

/-- The nodes into which the output of `n` flows. -/
def targets (n : N) : List N :=
  match a.direction with
  | .forward => g.succs n
  | .backward => g.preds n

/-- The nodes to be solved, in the order of the first visit. -/
def order [DecidableEq N] : List N :=
  match a.direction with
  | .forward => g.nodes.filter (· ≠ a.start g)
  | .backward => g.nodes.reverse.filter (· ≠ a.start g)

end Analysis

/-! ## Facts at nodes -/

variable {N F : Type} [Ord N] [TransOrd N]

/-- The facts known so far, and the inputs for which the transfer function was asked, the latest
first. -/
structure State (N F : Type) [Ord N] where
  inputs : ExtTreeMap N F
  outputs : ExtTreeMap N F
  visits : List (N × F) := []

/-- The boundary fact at the start, the initial fact at every other node. -/
def State.start [DecidableEq N] (a : Analysis N F) (g : FlowGraph N) : State N F :=
  let facts := g.nodes.foldl
    (fun (m : ExtTreeMap N F) n => m.insert n (if n = a.start g then a.boundary else a.initial)) ∅
  { inputs := facts, outputs := facts }

/-- Merges the outputs known at the sources of `n` into `fact`. -/
def State.gather (s : State N F) (a : Analysis N F) (g : FlowGraph N) (n : N) (fact : F) : F :=
  (a.sources g n).foldl
    (fun fact p =>
      match s.outputs[p]? with
      | some output => a.meet output fact
      | none => fact)
    fact

/-- The facts before and after each node, and the visits in their order. -/
structure Solution (N F : Type) [Ord N] where
  inFacts : ExtTreeMap N F
  outFacts : ExtTreeMap N F
  visits : List (N × F)

/-- What a state says about each node. -/
def State.solution (s : State N F) : Direction → Solution N F
  | .forward => ⟨s.inputs, s.outputs, s.visits.reverse⟩
  | .backward => ⟨s.outputs, s.inputs, s.visits.reverse⟩

end ObjectFlow.Dataflow
