import ObjectFlow.Proofs.CallGraph.Tables
import ObjectFlow.Proofs.Search.Distance

/-!
# Exploration of call graphs

`Explores l root found`: after the insertions `l`, the list `found` is what a search for everything
that calls lead to from the root has to find, the nearest first; nothing, if no insertion that
counts mentions the root. The search along the arcs of call tables does so, and the search along the
list of calls (`explores_ofInsertions`).
-/

namespace ObjectFlow.CallTables

open LabelledGraph LawfulLabelledGraph

variable {l : List Insertion} {m n root : MethodId}

namespace Insertion

/-- A call from one method to another was inserted. -/
def Calls (l : List Insertion) (m n : MethodId) : Prop :=
  ∃ e ∈ l.filterMap edge?, e.caller = m ∧ e.callee = n

/-- A method was marked as reachable, or it is the end of a call that was inserted. -/
def Mentions (l : List Insertion) (m : MethodId) : Prop :=
  m ∈ l.filterMap reachable? ∨ ∃ e ∈ l.filterMap edge?, m = e.caller ∨ m = e.callee

end Insertion

open Insertion (Calls Mentions)

/-- Everything that calls lead to from the root, the nearest first, if there is such a method. -/
structure Explores (l : List Insertion) (root : MethodId) (found : List MethodId) : Prop where
  eq_nil_iff : found = [] ↔ ¬Mentions l root
  nearestFirst : found ≠ [] → NearestFirst (Calls l) root found

/-- A breadth-first search along the calls, if it starts where there are any. -/
theorem explores_breadthFirst {next : MethodId → List MethodId} {methods : List MethodId}
    {p : Prop} [Decidable p] (hp : p ↔ root ∈ methods) (hmethods : ∀ m, m ∈ methods ↔ Mentions l m)
    (hnext : ∀ m n, n ∈ next m ↔ Calls l m n) :
    Explores l root (if p then breadthFirst next methods.length root else []) := by
  have hcalls : (fun m n => n ∈ next m) = Calls l := funext fun m => funext fun n =>
    propext (hnext m n)
  by_cases hroot : p
  · have hclosed : Encloses next root methods := by
      refine ⟨hp.1 hroot, fun m _ n hn => (hmethods n).2 ?_⟩
      obtain ⟨e, he, -, hcallee⟩ := (hnext m n).1 hn
      exact .inr ⟨e, he, .inr hcallee.symm⟩
    have hnearest := hcalls ▸ nearestFirst_breadthFirst hclosed (Nat.le_refl _)
    rw [if_pos hroot]
    refine ⟨iff_of_false (fun hnil => ?_) (not_not_intro ((hmethods root).1 (hp.1 hroot))),
      fun _ => hnearest⟩
    have hhead := hnearest.head?
    rw [hnil] at hhead
    cases hhead
  · rw [if_neg hroot]
    exact ⟨iff_of_true rfl fun h => hroot (hp.2 ((hmethods root).2 h)), fun h => absurd rfl h⟩

variable {G : Type} [LabelledGraph MethodId CallLabel G] [LawfulLabelledGraph G]

theorem mem_methods_ofInsertions :
    m ∈ (ofInsertions l : CallTables G).graph.methods ↔ Mentions l m := by
  obtain ⟨-, hreachable, hedges⟩ := firstOccurrences_ofInsertions (G := G) l
  simp only [mem_methods, hreachable.mem, hedges.mem, Mentions]

theorem mem_targets_ofInsertions :
    n ∈ targets (ofInsertions l : CallTables G).arcs m ↔ Calls l m n := by
  obtain ⟨-, -, hedges⟩ := firstOccurrences_ofInsertions (G := G) l
  simp only [(consistent_ofInsertions l).mem_targets, hedges.mem, Calls]

theorem mem_calls_ofInsertions :
    n ∈ (ofInsertions l : CallTables G).graph.calls m ↔ Calls l m n := by
  obtain ⟨-, -, hedges⟩ := firstOccurrences_ofInsertions (G := G) l
  simp only [CallGraph.mem_calls, graph, hedges.mem, Calls]

/-- After any insertions a search from any root finds the root, if it is marked or the end of a
call, and everything that calls lead to from it, the nearest first: along the arcs as along the
calls. -/
theorem explores_ofInsertions (l : List Insertion) (root : MethodId) :
    Explores l root ((ofInsertions l : CallTables G).reachableFrom root) ∧
      Explores l root ((ofInsertions l : CallTables G).graph.reachableFrom root) := by
  have h : (ofInsertions l : CallTables G).Consistent := consistent_ofInsertions l
  exact ⟨explores_breadthFirst (h.hasNode root) (fun _ => mem_methods_ofInsertions)
      fun _ _ => mem_targets_ofInsertions,
    explores_breadthFirst Iff.rfl (fun _ => mem_methods_ofInsertions)
      fun _ _ => mem_calls_ofInsertions⟩

/-- A cycle, a method that calls itself, two calls from one site and a method that calls lead to but
nothing marks; two methods at distance one come before the one behind the first of them. -/
theorem explores_ofInsertions_cycle :
    let l : List Insertion := [.reachable ⟨0⟩, .edge ⟨.static, ⟨⟨0⟩, 0⟩, ⟨1⟩⟩,
      .edge ⟨.static, ⟨⟨1⟩, 0⟩, ⟨3⟩⟩, .edge ⟨.virtual, ⟨⟨0⟩, 1⟩, ⟨1⟩⟩,
      .edge ⟨.virtual, ⟨⟨0⟩, 1⟩, ⟨2⟩⟩, .edge ⟨.static, ⟨⟨1⟩, 1⟩, ⟨1⟩⟩,
      .edge ⟨.static, ⟨⟨3⟩, 0⟩, ⟨0⟩⟩, .reachable ⟨4⟩]
    let t : CallTables (ArcList MethodId CallLabel) := ofInsertions l
    Explores l ⟨0⟩ (t.reachableFrom ⟨0⟩) ∧ t.reachableFrom ⟨0⟩ = [⟨0⟩, ⟨1⟩, ⟨2⟩, ⟨3⟩] ∧
      t.reachableFrom ⟨4⟩ = [⟨4⟩] ∧ t.reachableFrom ⟨5⟩ = [] :=
  ⟨(explores_ofInsertions _ ⟨0⟩).1, by decide +kernel, by decide +kernel, by decide +kernel⟩

end ObjectFlow.CallTables
