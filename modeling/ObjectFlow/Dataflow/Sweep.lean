import ObjectFlow.Dataflow.Analysis
/-!
# The sweeping solver

Every sweep visits all nodes in order and computes their inputs anew from the outputs of the moment.
The first sweep that changes no output is the last.
-/

namespace ObjectFlow.Dataflow.Sweep

open Std

variable {N F : Type} [Ord N] [TransOrd N] [DecidableEq F]

/-- Visits a node and tells whether its output changed. -/
def visit (a : Analysis N F) (g : FlowGraph N) (s : State N F) (n : N) : Bool × State N F :=
  let input := s.gather a g n a.initial
  let s := { s with inputs := s.inputs.insert n input }
  match s.outputs[n]? with
  | none => (false, s)
  | some output =>
    let new := a.transfer n input
    (decide (new ≠ output),
      { s with outputs := s.outputs.insert n new, visits := (n, input) :: s.visits })

/-- Visits the nodes of a list and tells whether any output changed. -/
def sweep (a : Analysis N F) (g : FlowGraph N) : List N → State N F → Bool × State N F
  | [], s => (false, s)
  | n :: l, s =>
    let (here, s) := visit a g s n
    let (there, s) := sweep a g l s
    (here || there, s)

/-- Sweeps until nothing changes, at most `fuel` times. -/
def sweeps [DecidableEq N] (a : Analysis N F) (g : FlowGraph N) :
    Nat → State N F → Option (State N F)
  | 0, _ => none
  | fuel + 1, s =>
    match sweep a g (a.order g) s with
    | (true, s) => sweeps a g fuel s
    | (false, s) => some s

/-- Sweeps from the start. -/
def run [DecidableEq N] (a : Analysis N F) (g : FlowGraph N) (fuel : Nat) : Option (Solution N F) :=
  (sweeps a g fuel (.start a g)).map (·.solution a.direction)

/-- More sweeps than there are outputs of all nodes together: sweeps that still change something
after that many have been through the same outputs twice, and go on for ever. -/
def budget (a : Analysis N F) (g : FlowGraph N) : Nat :=
  Nat.pow 2 (a.capacity * g.nodes.length) + 2

end ObjectFlow.Dataflow.Sweep
