import ObjectFlow.CallGraph.Basic
import ObjectFlow.Proofs.Search

/-!
# Reachability in call graphs

`Leads g m n`: calls of `g` lead from `m` to `n`. The search of a call graph from one of its methods
lists the methods that calls lead to (`mem_reachableFrom`).
-/

namespace ObjectFlow.CallGraph

open Relation (ReflTransGen)

variable {g g' : CallGraph} {m n root : MethodId} {e : CallEdge}

theorem mem_calls : n ∈ g.calls m ↔ ∃ e ∈ g.edges, e.caller = m ∧ e.callee = n := by
  simp only [calls, List.mem_map, List.mem_filter, decide_eq_true_eq, and_assoc]

/-- Calls lead from the first method to the second, through any number of others. -/
def Leads (g : CallGraph) : MethodId → MethodId → Prop := ReflTransGen fun m n => n ∈ g.calls m

theorem Leads.call (h : g.Leads root e.caller) (he : e ∈ g.edges) : g.Leads root e.callee :=
  ReflTransGen.tail h (mem_calls.2 ⟨e, he, rfl, rfl⟩)

theorem Leads.mono (h : g.Leads m n) (hg : ∀ e ∈ g.edges, e ∈ g'.edges) : g'.Leads m n := by
  refine ReflTransGen.mono (fun k l hl => ?_) _ _ h
  obtain ⟨e, he, hcaller, hcallee⟩ := mem_calls.1 hl
  exact mem_calls.2 ⟨e, hg e he, hcaller, hcallee⟩

/-- What contains the root and the callees of its members contains all that calls lead to. -/
theorem Leads.closed {p : MethodId → Prop} (h : g.Leads root m) (hroot : p root)
    (hcall : ∀ e ∈ g.edges, p e.caller → p e.callee) : p m := by
  induction h with
  | refl => exact hroot
  | tail _ hl ih =>
    obtain ⟨e, he, rfl, rfl⟩ := mem_calls.1 hl
    exact hcall e he ih

/-- Calls do not lead out of a graph. -/
theorem encloses_methods (hroot : root ∈ g.methods) : Encloses g.calls root g.methods := by
  refine ⟨hroot, fun k _ l hl => List.mem_append_right _ ?_⟩
  obtain ⟨e, he, -, rfl⟩ := mem_calls.1 hl
  exact List.mem_flatMap.2 ⟨e, he, by simp⟩

/-- The search of a graph from one of its methods lists what calls lead to. -/
theorem mem_reachableFrom (hroot : root ∈ g.methods) :
    m ∈ g.reachableFrom root ↔ g.Leads root m := by
  rw [reachableFrom, if_pos hroot]
  exact mem_breadthFirst (encloses_methods hroot) (Nat.le_refl _)

end ObjectFlow.CallGraph
