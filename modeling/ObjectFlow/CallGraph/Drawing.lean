import ObjectFlow.CallGraph.Basic
import ObjectFlow.Dot
import ObjectFlow.Text.Quoted
/-!
# Drawings of call graphs
-/

namespace ObjectFlow.CallGraph

open Text

variable (g : CallGraph)

/-- The pairs of caller and callee, in the order of the first call between them. -/
def callPairs : List (MethodId × MethodId) :=
  g.edges.foldl (fun l e => adjoin l (e.caller, e.callee)) []

/-- The kinds and places of the calls between two methods, as one text. -/
def pairLabel (caller callee : MethodId) : String :=
  ",".intercalate ((g.edges.filter fun e => e.caller = caller && e.callee = callee).map fun e =>
    s!"{e.kind.name}@{e.site.index}")

/-- The reachable methods, labelled with their signatures, and the calls between them in the DOT
language. -/
def dot (d : Declarations) : String :=
  Dot.render (g.reachable.map fun m => quoted (d.methodText m))
    (g.callPairs.filterMap fun (m, n) => do
      let source ← g.reachable.idxOf? m
      let target ← g.reachable.idxOf? n
      return ⟨source, target, quoted (g.pairLabel m n)⟩)

end ObjectFlow.CallGraph
