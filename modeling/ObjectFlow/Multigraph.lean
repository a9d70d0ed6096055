import ObjectFlow.Order
/-!
# Multigraphs

A multigraph numbers its nodes in the order in which they are added, and any number of arcs may join
two of them. `Multigraph N L G` are the operations on graphs of type `G` with nodes `N` and labels
`L`, and `LawfulMultigraph` says what each of them does to the nodes and to the arcs at a node,
which are listed latest first. `ArcStack` keeps all arcs in one list.
-/

namespace ObjectFlow

/-- An arc between two numbered nodes. -/
structure Arc (L : Type) where
  source : Nat
  target : Nat
  label : L
deriving DecidableEq, Repr

/-- The operations of a directed graph with parallel arcs. -/
class Multigraph (N L : outParam Type) (G : Type) where
  empty : G
  /-- Adds a node and gives its number. -/
  addNode (g : G) (n : N) : Nat × G
  /-- Adds an arc, whatever arcs are there. -/
  addArc (g : G) (a : Arc L) : G
  /-- The nodes by number. -/
  nodes (g : G) : List N
  /-- The arcs that leave a node, latest first. -/
  arcsFrom (g : G) (i : Nat) : List (Arc L)
  /-- The arcs that lead to a node, latest first. -/
  arcsTo (g : G) (i : Nat) : List (Arc L)

open Multigraph

/-- The ends of an arc are nodes of a graph. -/
def Arc.Fits {N L G : Type} [Multigraph N L G] (a : Arc L) (g : G) : Prop :=
  a.source < (nodes g).length ∧ a.target < (nodes g).length

/-- What is added is seen and nothing else. Arcs are added between nodes that are there. -/
class LawfulMultigraph {N L : outParam Type} (G : Type) [Multigraph N L G] : Prop where
  nodes_empty : nodes (empty : G) = []
  number_addNode (g : G) (n : N) : (addNode g n).1 = (nodes g).length
  nodes_addNode (g : G) (n : N) : nodes (addNode g n).2 = nodes g ++ [n]
  nodes_addArc (g : G) (a : Arc L) : a.Fits g → nodes (addArc g a) = nodes g
  arcsFrom_empty (i : Nat) : arcsFrom (empty : G) i = []
  arcsFrom_addNode (g : G) (n : N) (i : Nat) : arcsFrom (addNode g n).2 i = arcsFrom g i
  arcsFrom_addArc (g : G) (a : Arc L) (i : Nat) : a.Fits g →
    arcsFrom (addArc g a) i = if a.source = i then a :: arcsFrom g i else arcsFrom g i
  arcsTo_empty (i : Nat) : arcsTo (empty : G) i = []
  arcsTo_addNode (g : G) (n : N) (i : Nat) : arcsTo (addNode g n).2 i = arcsTo g i
  arcsTo_addArc (g : G) (a : Arc L) (i : Nat) : a.Fits g →
    arcsTo (addArc g a) i = if a.target = i then a :: arcsTo g i else arcsTo g i

/-- A multigraph as the list of its nodes and the list of its arcs, latest first. -/
structure ArcStack (N L : Type) where
  nodes : List N := []
  arcs : List (Arc L) := []
deriving DecidableEq, Repr

namespace ArcStack

variable {N L : Type}

instance : Multigraph N L (ArcStack N L) where
  empty := {}
  addNode g n := (g.nodes.length, { g with nodes := g.nodes ++ [n] })
  addArc g a := { g with arcs := a :: g.arcs }
  nodes := ArcStack.nodes
  arcsFrom g i := g.arcs.filter (·.source = i)
  arcsTo g i := g.arcs.filter (·.target = i)

instance : LawfulMultigraph (ArcStack N L) where
  nodes_empty := rfl
  number_addNode _ _ := rfl
  nodes_addNode _ _ := rfl
  nodes_addArc _ _ _ := rfl
  arcsFrom_empty _ := rfl
  arcsFrom_addNode _ _ _ := rfl
  arcsFrom_addArc _ _ _ _ := by simp only [arcsFrom, addArc, List.filter_cons, decide_eq_true_eq]
  arcsTo_empty _ := rfl
  arcsTo_addNode _ _ _ := rfl
  arcsTo_addArc _ _ _ _ := by simp only [arcsTo, addArc, List.filter_cons, decide_eq_true_eq]

end ArcStack

end ObjectFlow
