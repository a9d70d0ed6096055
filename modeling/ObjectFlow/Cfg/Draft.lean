import ObjectFlow.Cfg
import ObjectFlow.Multigraph
/-!
# Drafts of control-flow graphs

A draft grows node by node and edge by edge in a multigraph, and knows the number of each of its
nodes. An edge with an unknown end is not added. The edges at a node are listed in the order in
which they were added.
-/

namespace ObjectFlow.Cfg

open Std Multigraph

/-- A control-flow graph under construction. -/
structure Draft (G : Type) where
  graph : G
  numbers : ExtTreeMap Node Nat

namespace Draft

variable {G : Type} [Multigraph Node EdgeKind G]

instance : EmptyCollection (Draft G) := ⟨⟨empty, ∅⟩⟩

/-! ## Growth -/

def addNode (d : Draft G) (n : Node) : Draft G :=
  let (number, graph) := Multigraph.addNode d.graph n
  { graph, numbers := d.numbers.insert n number }

/-- Adds an edge, unless one of its ends is unknown. -/
def addEdge (d : Draft G) (e : Edge) : Draft G :=
  match d.numbers[e.source]?, d.numbers[e.target]? with
  | some source, some target => { d with graph := addArc d.graph ⟨source, target, e.kind⟩ }
  | _, _ => d

/-- Adds the ways out of a statement, in a body of `length` statements. -/
def addExits (length : Nat) (d : Draft G) (s : Stmt) : Draft G :=
  (exits length s).foldl (fun d (kind, target) => d.addEdge ⟨.stmt s.index, target, kind⟩) d

/-- The draft of a body: first all nodes, then all edges. -/
def ofBody (b : Body) : Draft G :=
  let d := (∅ : Draft G).addNode .entry
  let d := b.stmts.foldl (fun d s => d.addNode (.stmt s.index)) d
  let d := d.addNode .exit
  let d := d.addEdge ⟨.entry, first b.stmts.length, .entry⟩
  b.stmts.foldl (addExits b.stmts.length) d

/-! ## Views -/

variable (d : Draft G)

def nodes : List Node :=
  Multigraph.nodes d.graph

/-- The edge of an arc. -/
def edge? (a : Arc EdgeKind) : Option Edge := do
  let source ← d.nodes[a.source]?
  let target ← d.nodes[a.target]?
  return ⟨source, target, a.label⟩

/-- The edges of the arcs at a node, the earliest first. -/
def edgesAt (arcsAt : G → Nat → List (Arc EdgeKind)) (n : Node) : List Edge :=
  match d.numbers[n]? with
  | some i => ((arcsAt d.graph i).filterMap d.edge?).reverse
  | none => []

def outEdges (n : Node) : List Edge :=
  d.edgesAt arcsFrom n

def inEdges (n : Node) : List Edge :=
  d.edgesAt arcsTo n

end Draft

end ObjectFlow.Cfg
