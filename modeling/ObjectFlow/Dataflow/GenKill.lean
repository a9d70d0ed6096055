import ObjectFlow.Dataflow.Analysis
import ObjectFlow.Dataflow.Fact
/-!
# Gen/kill analyses

A node removes some elements from its input and then adds others. Facts are merged by union, where
an element holds if it does on some path, or by intersection, where it must on every path.
-/

namespace ObjectFlow.Dataflow

open Std

/-- How facts of several paths are merged. -/
inductive Merge where
  | union
  | intersection
deriving DecidableEq, Repr

/-- A gen/kill analysis of elements `E` on nodes `N`. -/
structure GenKill (N E : Type) [Ord E] where
  direction : Direction
  merge : Merge
  boundary : SetFact E
  initial : SetFact E
  gen : N → SetFact E
  kill : N → SetFact E

namespace GenKill

variable {N E : Type} [Ord E] [TransOrd E] (k : GenKill N E)

/-- Merges `fact` into `target`. -/
def meet (fact target : SetFact E) : SetFact E :=
  match k.merge with
  | .union => target ∪ fact
  | .intersection => target ∩ fact

def transfer (n : N) (input : SetFact E) : SetFact E :=
  (input \ k.kill n) ∪ k.gen n

/-- Every element that a fact at one of `nodes` can hold. -/
def elements (nodes : List N) : SetFact E :=
  nodes.foldl (fun s n => s ∪ k.gen n) (k.boundary ∪ k.initial)

/-- The analysis on a graph with the given nodes. -/
def analysis (nodes : List N) : Analysis N (SetFact E) where
  direction := k.direction
  boundary := k.boundary
  initial := k.initial
  meet := k.meet
  transfer := k.transfer
  capacity := (k.elements nodes).size

end GenKill

end ObjectFlow.Dataflow
