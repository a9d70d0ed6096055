import ObjectFlow.Order
/-!
# Directed graphs

A graph is a set of nodes with a set of successors for each. Adding what is there changes nothing.
-/

namespace ObjectFlow

open Std

/-- A directed graph without parallel edges. -/
structure Digraph (N : Type) [Ord N] where
  nodes : ExtTreeSet N := ∅
  edges : ExtTreeMap N (ExtTreeSet N) := ∅

namespace Digraph

variable {N : Type} [Ord N] [TransOrd N] (g : Digraph N)

instance : EmptyCollection (Digraph N) := ⟨{}⟩

def succs (n : N) : ExtTreeSet N :=
  g.edges.getD n ∅

def hasEdge (m n : N) : Bool :=
  (g.succs m).contains n

/-- Adds a node and tells whether it is new. -/
def addNode (n : N) : Bool × Digraph N :=
  (!g.nodes.contains n, { g with nodes := g.nodes.insert n })

/-- Adds an edge together with its ends and tells whether the edge is new. -/
def addEdge (m n : N) : Bool × Digraph N :=
  (!g.hasEdge m n,
    { nodes := (g.nodes.insert m).insert n, edges := g.edges.insert m ((g.succs m).insert n) })

/-- The edges, in the order of their ends. -/
def edgeList : List (N × N) :=
  g.edges.toList.flatMap fun (m, ns) => ns.toList.map (m, ·)

def edgeCount : Nat :=
  g.edgeList.length

/-! ## Laws -/

variable {g : Digraph N} {m n k l : N}

@[simp] theorem hasEdge_iff_mem_succs : g.hasEdge m n = true ↔ n ∈ g.succs m := by
  simp [hasEdge]

variable [LawfulEqOrd N]

@[simp] theorem mem_succs_addEdge :
    l ∈ (g.addEdge m n).2.succs k ↔ (m = k ∧ n = l) ∨ l ∈ g.succs k := by
  have h := @ExtTreeMap.getD_insert _ _ _ g.edges _ m k ∅ ((g.succs m).insert n)
  simp only [addEdge, succs] at h ⊢
  rw [h]
  by_cases hk : m = k
  · subst hk
    simp
  · simp [hk]

end Digraph

end ObjectFlow
