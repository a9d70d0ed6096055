import ObjectFlow.CallGraph.Basic
import ObjectFlow.LabelledGraph
/-!
# Call tables

A call graph that grows call by call, with tables for its look-ups: what is there as sets, the
methods that each site calls, the sites that call each method, and a graph whose arcs are labelled
with the calls between two methods. Each insertion tells whether it changed anything.
-/

namespace ObjectFlow

open Std LabelledGraph

/-- The calls from one method to another, by kind and site. -/
abbrev CallLabel := List (CallKind × Site)

/-- A call graph with the tables that its look-ups read. -/
structure CallTables (G : Type) where
  entries : List MethodId
  /-- The methods that were marked as reachable, in the order of discovery. -/
  reachable : List MethodId
  reachableSet : ExtTreeSet MethodId
  edges : List CallEdge
  edgeSet : ExtTreeSet CallEdge
  calleeTable : ExtTreeMap Site (ExtTreeSet MethodId)
  callerTable : ExtTreeMap MethodId (ExtTreeSet Site)
  /-- An arc for each pair of methods with a call between them. -/
  arcs : G

namespace CallTables

variable {G : Type} [LabelledGraph MethodId CallLabel G]

instance : EmptyCollection (CallTables G) := ⟨[], [], ∅, [], ∅, ∅, ∅, empty⟩

variable (t : CallTables G)

/-! ## Growth -/

def addEntry (m : MethodId) : CallTables G :=
  { t with entries := adjoin t.entries m }

/-- Marks a method as reachable and tells whether it was not. -/
def addReachable (m : MethodId) : Bool × CallTables G :=
  if t.reachableSet.contains m then (false, t)
  else (true, { t with
    reachable := t.reachable ++ [m]
    reachableSet := t.reachableSet.insert m
    arcs := addNode t.arcs m })

/-- Adds a call to the label of the arc between its ends. -/
def noteCall (arcs : G) (e : CallEdge) : G :=
  match label? arcs e.caller e.callee with
  | some _ => modifyLabel arcs e.caller e.callee (· ++ [(e.kind, e.site)])
  | none => addArc arcs e.caller e.callee [(e.kind, e.site)]

/-- Adds a call, which does not make its callee reachable, and tells whether it is new. -/
def addEdge (e : CallEdge) : Bool × CallTables G :=
  if t.edgeSet.contains e then (false, t)
  else (true, { t with
    edges := t.edges ++ [e]
    edgeSet := t.edgeSet.insert e
    calleeTable := t.calleeTable.insert e.site ((t.calleeTable.getD e.site ∅).insert e.callee)
    callerTable := t.callerTable.insert e.callee ((t.callerTable.getD e.callee ∅).insert e.site)
    arcs := noteCall t.arcs e })

/-- One insertion. -/
inductive Insertion where
  | entry (m : MethodId)
  | reachable (m : MethodId)
  | edge (e : CallEdge)
deriving DecidableEq, Repr

def insert : Insertion → CallTables G
  | .entry m => t.addEntry m
  | .reachable m => (t.addReachable m).2
  | .edge e => (t.addEdge e).2

/-- The tables after a sequence of insertions. -/
def ofInsertions (l : List Insertion) : CallTables G :=
  l.foldl insert ∅

/-! ## Views -/

/-- The call graph without tables. -/
def graph : CallGraph :=
  ⟨t.entries, t.reachable, t.edges⟩

def contains (m : MethodId) : Bool :=
  t.reachableSet.contains m

def reachableCount : Nat :=
  t.reachable.length

def edgeCount : Nat :=
  t.edges.length

/-- The methods that a site calls, ascending. -/
def calleesOf (s : Site) : List MethodId :=
  (t.calleeTable.getD s ∅).toList

/-- The sites that call a method, ascending. -/
def callersOf (m : MethodId) : List Site :=
  (t.callerTable.getD m ∅).toList

def edgesOutOf (s : Site) : List CallEdge :=
  t.edges.filter (·.site = s)

def edgesInto (m : MethodId) : List CallEdge :=
  t.edges.filter (·.callee = m)

/-- The methods that a method calls. -/
def calleeMethodsOf (m : MethodId) : ExtTreeSet MethodId :=
  if hasNode t.arcs m then .ofList (targets t.arcs m) else ∅

/-- The methods that arcs lead to from a root, breadth first; none if the root is no node. -/
def reachableFrom (root : MethodId) : List MethodId :=
  if hasNode t.arcs root then breadthFirst (targets t.arcs) t.graph.methods.length root else []

/-- The calls between two methods, in the order in which they were added, if there are any. -/
def callsBetween? (caller callee : MethodId) : Option CallLabel :=
  label? t.arcs caller callee

end CallTables

end ObjectFlow
