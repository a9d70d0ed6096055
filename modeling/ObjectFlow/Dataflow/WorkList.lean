import ObjectFlow.Dataflow.Analysis
import ObjectFlow.Iterate
/-!
# The work-list solver

Nodes wait in a queue while their inputs may have changed. A visit merges the outputs of the sources
into the input that the node already has, so inputs are never forgotten, and a changed output calls
the targets.
-/

namespace ObjectFlow.Dataflow.WorkList

open Std

variable {N F : Type} [Ord N] [TransOrd N] [DecidableEq F]

/-- The facts with the queue and the set of the nodes in it. -/
structure State (N F : Type) [Ord N] extends Dataflow.State N F where
  queue : List N
  queued : ExtTreeSet N

/-- Every node to be solved waits. -/
def State.start [DecidableEq N] (a : Analysis N F) (g : FlowGraph N) : State N F where
  toState := .start a g
  queue := a.order g
  queued := ExtTreeSet.ofList (a.order g)

/-- Lets a node wait, unless it does already. -/
def State.call (s : State N F) (n : N) : State N F :=
  if n ∈ s.queued then s
  else { s with queue := s.queue ++ [n], queued := s.queued.insert n }

/-- Visits a node with the facts that it has. -/
def State.visit (s : State N F) (a : Analysis N F) (g : FlowGraph N) (n : N)
    (input output : F) : State N F :=
  let input := s.gather a g n input
  let new := a.transfer n input
  let s := { s with
    inputs := s.inputs.insert n input
    outputs := s.outputs.insert n new
    visits := (n, input) :: s.visits }
  if new = output then s else (a.targets g n).foldl State.call s

/-- Takes a node from the queue and visits it; a node without facts is passed over. -/
def step (a : Analysis N F) (g : FlowGraph N) (s : State N F) : Option (State N F) :=
  match s.queue with
  | [] => none
  | n :: queue =>
    let s := { s with queue, queued := s.queued.erase n }
    match s.inputs[n]?, s.outputs[n]? with
    | some input, some output => some (s.visit a g n input output)
    | _, _ => some s

/-- Runs until the queue is empty. -/
def run [DecidableEq N] (a : Analysis N F) (g : FlowGraph N) (fuel : Nat) : Option (Solution N F) :=
  (iterate (step a g) fuel (.start a g)).map (·.solution a.direction)

/-- Enough fuel where the facts of a node rise at most `capacity` times: a visit without a new
output takes a node from the queue, and each rise calls every target at most once. -/
def budget (a : Analysis N F) (g : FlowGraph N) : Nat :=
  g.nodes.length + (a.capacity + 2) * (g.nodes.flatMap (a.targets g)).length + 1

end ObjectFlow.Dataflow.WorkList
