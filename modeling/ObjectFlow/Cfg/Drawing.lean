import ObjectFlow.Cfg
import ObjectFlow.Dot
/-!
# Drawings of control-flow graphs
-/

namespace ObjectFlow.Cfg

/-- The graph in the DOT language. Of nodes with one name the edges belong to the last. -/
def dot (g : Cfg) : String :=
  Dot.render (g.nodes.map Node.label) (g.edges.filterMap fun e => do
    let source ← Dot.lastNumber? g.nodes e.source
    let target ← Dot.lastNumber? g.nodes e.target
    return ⟨source, target, e.kind.label⟩)

end ObjectFlow.Cfg
