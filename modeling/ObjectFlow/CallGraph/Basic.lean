import ObjectFlow.Program.Basic
import ObjectFlow.Search
/-!
# Call graphs

Methods with the calls between them. Methods and edges keep the order of their discovery; everything
else is a view of these.
-/

namespace ObjectFlow

open Std

/-- A call from a site to a method. -/
structure CallEdge where
  kind : CallKind
  site : Site
  callee : MethodId
deriving DecidableEq, Repr

namespace CallEdge

def caller (e : CallEdge) : MethodId :=
  e.site.method

/-- A list of numbers that tells edges apart, ordered by kind, site and callee. -/
def key (e : CallEdge) : List Nat :=
  [e.kind.rank, e.site.method.index, e.site.index, e.callee.index]

theorem key_inj {e f : CallEdge} (h : e.key = f.key) : e = f := by
  obtain ⟨k, ⟨⟨m⟩, i⟩, ⟨c⟩⟩ := e
  obtain ⟨k', ⟨⟨m'⟩, i'⟩, ⟨c'⟩⟩ := f
  simp only [key, List.cons.injEq, and_true] at h
  obtain ⟨hk, rfl, rfl, rfl⟩ := h
  rw [CallKind.rank_inj hk]

instance : Ord CallEdge := ⟨compareOn key⟩

instance : TransOrd CallEdge := inferInstanceAs (TransCmp (compareOn key))

instance : LawfulEqOrd CallEdge := lawfulEq_compareOn fun _ _ => key_inj

end CallEdge

/-- A call graph: its entries, the methods known to be reachable, and the calls, each in the order
of discovery and without repetitions. -/
structure CallGraph where
  entries : List MethodId := []
  reachable : List MethodId := []
  edges : List CallEdge := []
deriving DecidableEq, Repr

namespace CallGraph

instance : EmptyCollection CallGraph := ⟨{}⟩

variable (g : CallGraph)

/-! ## Growth -/

def addEntry (m : MethodId) : CallGraph :=
  { g with entries := adjoin g.entries m }

def addReachable (m : MethodId) : CallGraph :=
  { g with reachable := adjoin g.reachable m }

/-- Adds a call, which does not make its callee reachable. -/
def addEdge (e : CallEdge) : CallGraph :=
  { g with edges := adjoin g.edges e }

/-! ## Views -/

def edgesOutOf (s : Site) : List CallEdge :=
  g.edges.filter (·.site = s)

def edgesInto (m : MethodId) : List CallEdge :=
  g.edges.filter (·.callee = m)

/-- The methods that a site calls, ascending. -/
def callees (s : Site) : List MethodId :=
  sorted ((g.edgesOutOf s).map CallEdge.callee)

/-- The sites that call a method, ascending. -/
def callers (m : MethodId) : List Site :=
  sorted ((g.edgesInto m).map CallEdge.site)

/-- The methods that a method calls, with repetitions, in the order of the calls. -/
def calls (m : MethodId) : List MethodId :=
  (g.edges.filter (·.caller = m)).map CallEdge.callee

/-- The methods that a method calls, ascending. -/
def calleeMethods (m : MethodId) : List MethodId :=
  sorted (g.calls m)

/-- The sites that call anything, ascending. -/
def sites : List Site :=
  sorted (g.edges.map CallEdge.site)

/-- The methods that anything calls, ascending. -/
def calledMethods : List MethodId :=
  sorted (g.edges.map CallEdge.callee)

/-- All methods that are reachable, call or are called, with repetitions. -/
def methods : List MethodId :=
  g.reachable ++ g.edges.flatMap fun e => [e.caller, e.callee]

/-- The methods that calls lead to from a root, breadth first; none if the graph lacks the root. -/
def reachableFrom (root : MethodId) : List MethodId :=
  if root ∈ g.methods then breadthFirst g.calls g.methods.length root else []

end CallGraph

end ObjectFlow
