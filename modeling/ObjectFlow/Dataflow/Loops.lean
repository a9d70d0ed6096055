import ObjectFlow.Dataflow.Solve
/-!
# The loops of the solvers

Each solver has two loops, one that follows the edges and one that goes against them. Here all four
are written out, on the facts before and after the nodes, where `WorkList` and `Sweep` have one loop
on inputs and outputs. Their clients are more general than analyses: a transfer function may look at
the output that is there, and says itself whether it changed it.
-/

namespace ObjectFlow.Dataflow

open Std

/-- What a loop is told about an analysis. -/
structure Client (N F : Type) where
  forward : Bool
  /-- The fact at the node where the analysis starts. -/
  boundary : FlowGraph N → F
  /-- The fact from which every other node starts. -/
  initial : F
  /-- Merges its first argument into the second. -/
  meet : F → F → F
  /-- Makes a new output of an input and the output that is there, and tells whether it changed. -/
  transfer : N → F → F → Bool × F

/-- A call of the transfer function, with the output that was there. -/
structure Call (N F : Type) where
  node : N
  input : F
  output : F
deriving DecidableEq, Repr

/-- The facts known so far, and the calls of the transfer function, the latest first. -/
structure Trace (N F : Type) [Ord N] where
  forward : Bool
  before : ExtTreeMap N F
  after : ExtTreeMap N F
  calls : List (Call N F) := []

variable {N F : Type} [Ord N] [TransOrd N] [DecidableEq N]

/-- The boundary fact at the entry or the exit, the initial fact at every other node. -/
def Trace.start (c : Client N F) (g : FlowGraph N) : Trace N F :=
  let start := if c.forward then g.entry else g.exit
  g.nodes.foldl
    (fun t n =>
      let fact := if n = start then c.boundary g else c.initial
      { t with before := t.before.insert n fact, after := t.after.insert n fact })
    ⟨c.forward, ∅, ∅, []⟩

/-- Merges the facts known at some nodes into a fact. -/
def Client.gather (c : Client N F) (facts : ExtTreeMap N F) (l : List N) (fact : F) : F :=
  l.foldl
    (fun fact n =>
      match facts[n]? with
      | some other => c.meet other fact
      | none => fact)
    fact

/-! ## The work list -/

namespace WorkList

/-- The facts with the queue and the set of the nodes in it. -/
structure Loop (N F : Type) [Ord N] extends Trace N F where
  queue : List N
  queued : ExtTreeSet N

/-- Lets a node wait, unless it does already. -/
def Loop.call (s : Loop N F) (n : N) : Loop N F :=
  if n ∈ s.queued then s
  else { s with queue := s.queue ++ [n], queued := s.queued.insert n }

def forwardStart (c : Client N F) (g : FlowGraph N) : Loop N F :=
  let nodes := g.nodes.filter (· ≠ g.entry)
  { Trace.start c g with queue := nodes, queued := .ofList nodes }

/-- A turn of the loop that follows the edges. A node without a fact before it is passed over, and
so is, once this fact has been updated, a node without a fact after it. -/
def forwardTurn (c : Client N F) (g : FlowGraph N) (s : Loop N F) : Option (Loop N F) :=
  match s.queue with
  | [] => none
  | n :: queue =>
    let s := { s with queue, queued := s.queued.erase n }
    match s.before[n]? with
    | none => some s
    | some fact =>
      let input := c.gather s.after (g.preds n) fact
      let s := { s with before := s.before.insert n input }
      match s.after[n]? with
      | none => some s
      | some output =>
        let (changed, new) := c.transfer n input output
        let s := { s with
          after := s.after.insert n new
          calls := ⟨n, input, output⟩ :: s.calls }
        some (if changed then (g.succs n).foldl Loop.call s else s)

def backwardStart (c : Client N F) (g : FlowGraph N) : Loop N F :=
  let nodes := g.nodes.reverse.filter (· ≠ g.exit)
  { Trace.start c g with queue := nodes, queued := .ofList nodes }

/-- A turn of the loop that goes against the edges. -/
def backwardTurn (c : Client N F) (g : FlowGraph N) (s : Loop N F) : Option (Loop N F) :=
  match s.queue with
  | [] => none
  | n :: queue =>
    let s := { s with queue, queued := s.queued.erase n }
    match s.after[n]? with
    | none => some s
    | some fact =>
      let input := c.gather s.before (g.succs n) fact
      let s := { s with after := s.after.insert n input }
      match s.before[n]? with
      | none => some s
      | some output =>
        let (changed, new) := c.transfer n input output
        let s := { s with
          before := s.before.insert n new
          calls := ⟨n, input, output⟩ :: s.calls }
        some (if changed then (g.preds n).foldl Loop.call s else s)

end WorkList

/-! ## Sweeps -/

namespace Sweep

/-- The facts, and whether the last sweep changed any. -/
structure Loop (N F : Type) [Ord N] extends Trace N F where
  changed : Bool

def start (c : Client N F) (g : FlowGraph N) : Loop N F :=
  { Trace.start c g with changed := true }

/-- Computes the fact before a node anew, and from it the fact after the node. -/
def forwardVisit (c : Client N F) (g : FlowGraph N) (s : Loop N F) (n : N) : Loop N F :=
  let input := c.gather s.after (g.preds n) c.initial
  match s.after[n]? with
  | none => { s with before := s.before.insert n input }
  | some output =>
    let (changed, new) := c.transfer n input output
    { s with
      before := s.before.insert n input
      after := s.after.insert n new
      changed := s.changed || changed
      calls := ⟨n, input, output⟩ :: s.calls }

/-- A sweep that follows the edges, unless the last one changed nothing. -/
def forwardTurn (c : Client N F) (g : FlowGraph N) (s : Loop N F) : Option (Loop N F) :=
  if s.changed then
    some ((g.nodes.filter (· ≠ g.entry)).foldl (forwardVisit c g) { s with changed := false })
  else none

/-- Computes the fact after a node anew, and from it the fact before the node. -/
def backwardVisit (c : Client N F) (g : FlowGraph N) (s : Loop N F) (n : N) : Loop N F :=
  let input := c.gather s.before (g.succs n) c.initial
  match s.before[n]? with
  | none => { s with after := s.after.insert n input }
  | some output =>
    let (changed, new) := c.transfer n input output
    { s with
      after := s.after.insert n input
      before := s.before.insert n new
      changed := s.changed || changed
      calls := ⟨n, input, output⟩ :: s.calls }

/-- A sweep that goes against the edges, unless the last one changed nothing. -/
def backwardTurn (c : Client N F) (g : FlowGraph N) (s : Loop N F) : Option (Loop N F) :=
  if s.changed then
    some ((g.nodes.reverse.filter (· ≠ g.exit)).foldl (backwardVisit c g)
      { s with changed := false })
  else none

end Sweep

/-! ## Runs -/

namespace Client

variable (c : Client N F) (g : FlowGraph N)

/-- What is known when the loop of a solver ends, if it does within fewer than `fuel` turns. -/
def run (kind : SolverKind) (fuel : Nat) : Option (Trace N F) :=
  match kind, c.forward with
  | .workList, true =>
    (iterate (WorkList.forwardTurn c g) fuel (WorkList.forwardStart c g)).map (·.toTrace)
  | .workList, false =>
    (iterate (WorkList.backwardTurn c g) fuel (WorkList.backwardStart c g)).map (·.toTrace)
  | .sweep, true => (iterate (Sweep.forwardTurn c g) fuel (Sweep.start c g)).map (·.toTrace)
  | .sweep, false => (iterate (Sweep.backwardTurn c g) fuel (Sweep.start c g)).map (·.toTrace)

/-- What is known after some turns, or when the loop ends before. -/
def after (kind : SolverKind) (turns : Nat) : Trace N F :=
  match kind, c.forward with
  | .workList, true =>
    (follow (WorkList.forwardTurn c g) turns (WorkList.forwardStart c g)).toTrace
  | .workList, false =>
    (follow (WorkList.backwardTurn c g) turns (WorkList.backwardStart c g)).toTrace
  | .sweep, true => (follow (Sweep.forwardTurn c g) turns (Sweep.start c g)).toTrace
  | .sweep, false => (follow (Sweep.backwardTurn c g) turns (Sweep.start c g)).toTrace

end Client

end ObjectFlow.Dataflow
