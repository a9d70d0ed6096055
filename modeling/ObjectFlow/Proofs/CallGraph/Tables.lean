import Mathlib.Data.Finset.Card
import ObjectFlow.CallGraph.Tables
import ObjectFlow.Proofs.CallGraph.Reachability
import ObjectFlow.Proofs.Listing

/-!
# Agreement of call tables

`CallTables.Consistent`: the sets, the tables and the labelled graph of call tables hold what the
lists of methods and edges hold. Every insertion keeps this (`Consistent.insert`) and does to the
lists what it does to a call graph without tables (`Consistent.graph_insert`), so the look-ups in the
tables give what those in the lists give (`Consistent.calleesOf_eq` and its siblings).

`Faithful l t`: `t` answers every look-up as the sequence `l` of insertions demands. The tables after
any sequence of insertions do so (`faithful_ofInsertions`).
-/

namespace ObjectFlow

open Std LabelledGraph LawfulLabelledGraph

namespace CallTables

/-- The kinds and sites of the calls from one method to another, in the order of the calls. -/
def labelsBetween (edges : List CallEdge) (caller callee : MethodId) : CallLabel :=
  (edges.filter fun e => e.caller = caller ∧ e.callee = callee).map fun e => (e.kind, e.site)

variable {edges : List CallEdge} {e : CallEdge} {m n : MethodId} {s : Site}

theorem labelsBetween_concat : labelsBetween (edges ++ [e]) m n =
    if m = e.caller ∧ n = e.callee then labelsBetween edges m n ++ [(e.kind, e.site)]
    else labelsBetween edges m n := by
  rw [labelsBetween, List.filter_append, List.map_append, ← labelsBetween]
  by_cases h : m = e.caller ∧ n = e.callee
  · obtain ⟨rfl, rfl⟩ := h
    simp
  · have hnot : ¬(e.caller = m ∧ e.callee = n) := fun hm => h ⟨hm.1.symm, hm.2.symm⟩
    simp [h, hnot]

theorem labelsBetween_eq_nil_iff :
    labelsBetween edges m n = [] ↔ ∀ e ∈ edges, ¬(e.caller = m ∧ e.callee = n) := by
  simp [labelsBetween]

section
variable {G : Type} [LabelledGraph MethodId CallLabel G] {t : CallTables G} {l : List Insertion}
  {i : Insertion}

/-- The sets, the tables and the labelled graph hold what the lists hold. -/
structure Consistent (t : CallTables G) : Prop where
  reachableSet : ∀ m, m ∈ t.reachableSet ↔ m ∈ t.reachable
  edgeSet : ∀ e, e ∈ t.edgeSet ↔ e ∈ t.edges
  calleeTable : ∀ s m, m ∈ t.calleeTable.getD s ∅ ↔ ∃ e ∈ t.edges, e.site = s ∧ e.callee = m
  callerTable : ∀ m s, s ∈ t.callerTable.getD m ∅ ↔ ∃ e ∈ t.edges, e.callee = m ∧ e.site = s
  hasNode : ∀ m, hasNode t.arcs m ↔ m ∈ t.graph.methods
  label? : ∀ m n, label? t.arcs m n =
    if labelsBetween t.edges m n = [] then none else some (labelsBetween t.edges m n)

/-! ## Insertions -/

theorem Consistent.addReachable_cases (h : t.Consistent) (m : MethodId) :
    m ∈ t.reachable ∧ t.addReachable m = (false, t) ∨
      m ∉ t.reachable ∧ t.addReachable m = (true, { t with
        reachable := t.reachable ++ [m]
        reachableSet := t.reachableSet.insert m
        arcs := addNode t.arcs m }) := by
  unfold addReachable
  split
  · rename_i hm
    exact .inl ⟨(h.reachableSet m).1 (ExtTreeSet.contains_iff_mem.1 hm), rfl⟩
  · rename_i hm
    refine .inr ⟨fun hmem => hm ?_, rfl⟩
    exact ExtTreeSet.contains_iff_mem.2 ((h.reachableSet m).2 hmem)

theorem Consistent.addEdge_cases (h : t.Consistent) (e : CallEdge) :
    e ∈ t.edges ∧ t.addEdge e = (false, t) ∨ e ∉ t.edges ∧ t.addEdge e = (true, { t with
      edges := t.edges ++ [e]
      edgeSet := t.edgeSet.insert e
      calleeTable := t.calleeTable.insert e.site ((t.calleeTable.getD e.site ∅).insert e.callee)
      callerTable := t.callerTable.insert e.callee ((t.callerTable.getD e.callee ∅).insert e.site)
      arcs := noteCall t.arcs e }) := by
  unfold addEdge
  split
  · rename_i he
    exact .inl ⟨(h.edgeSet e).1 (ExtTreeSet.contains_iff_mem.1 he), rfl⟩
  · rename_i he
    refine .inr ⟨fun hmem => he ?_, rfl⟩
    exact ExtTreeSet.contains_iff_mem.2 ((h.edgeSet e).2 hmem)

omit [LabelledGraph MethodId CallLabel G] in
theorem mem_methods : m ∈ t.graph.methods ↔
    m ∈ t.reachable ∨ ∃ e ∈ t.edges, m = e.caller ∨ m = e.callee := by
  simp [graph, CallGraph.methods]

variable [LawfulLabelledGraph G]

theorem label?_noteCall (arcs : G) : label? (noteCall arcs e) m n =
    if m = e.caller ∧ n = e.callee then
      some ((label? arcs m n).getD [] ++ [(e.kind, e.site)])
    else label? arcs m n := by
  unfold noteCall
  split
  · rename_i label hlabel
    rw [label?_modifyLabel]
    split
    · rename_i hmn
      obtain ⟨rfl, rfl⟩ := hmn
      simp [hlabel]
    · rfl
  · rename_i hnone
    rw [label?_addArc]
    split
    · rename_i hmn
      obtain ⟨rfl, rfl⟩ := hmn
      simp [hnone]
    · rfl

/-- The ends of a call that is noted become nodes, if they were not. -/
theorem Consistent.hasNode_noteCall (h : t.Consistent) :
    LabelledGraph.hasNode (noteCall t.arcs e) m ↔
      m = e.caller ∨ m = e.callee ∨ m ∈ t.graph.methods := by
  unfold noteCall
  split
  · rename_i label hlabel
    rw [hasNode_modifyLabel, h.hasNode]
    -- an arc is there, so its ends are nodes already
    have hne : labelsBetween t.edges e.caller e.callee ≠ [] := by
      intro hnil
      rw [h.label?, if_pos hnil] at hlabel
      cases hlabel
    obtain ⟨f, hf, hcaller, hcallee⟩ : ∃ f ∈ t.edges, f.caller = e.caller ∧ f.callee = e.callee := by
      simpa [labelsBetween_eq_nil_iff] using hne
    refine ⟨fun hm => .inr (.inr hm), ?_⟩
    rintro (rfl | rfl | hm)
    · exact mem_methods.2 (.inr ⟨f, hf, .inl hcaller.symm⟩)
    · exact mem_methods.2 (.inr ⟨f, hf, .inr hcallee.symm⟩)
    · exact hm
  · rw [hasNode_addArc, h.hasNode]

theorem consistent_empty : (∅ : CallTables G).Consistent where
  reachableSet _ := iff_of_false ExtTreeSet.not_mem_empty List.not_mem_nil
  edgeSet _ := iff_of_false ExtTreeSet.not_mem_empty List.not_mem_nil
  calleeTable _ _ := iff_of_false ExtTreeSet.not_mem_empty fun ⟨_, he, _⟩ => List.not_mem_nil he
  callerTable _ _ := iff_of_false ExtTreeSet.not_mem_empty fun ⟨_, he, _⟩ => List.not_mem_nil he
  hasNode m := iff_of_false (Bool.not_eq_true _ ▸ hasNode_empty (G := G) m) List.not_mem_nil
  label? m n := label?_empty m n

theorem Consistent.addReachable (h : t.Consistent) (m : MethodId) :
    (t.addReachable m).2.Consistent := by
  rcases h.addReachable_cases m with ⟨-, heq⟩ | ⟨-, heq⟩
  · rwa [heq]
  · rw [heq]
    refine { h with
      reachableSet := fun k => ?_
      hasNode := fun k => ?_
      label? := fun j k => (label?_addNode ..).trans (h.label? j k) }
    · rw [ExtTreeSet.mem_insert, Std.compare_eq_iff_eq, h.reachableSet, List.mem_append,
        List.mem_singleton, or_comm, eq_comm]
    · rw [hasNode_addNode, h.hasNode]
      simp only [mem_methods, List.mem_append, List.mem_singleton]
      rw [or_assoc, or_left_comm]

theorem Consistent.addEdge (h : t.Consistent) (e : CallEdge) : (t.addEdge e).2.Consistent := by
  rcases h.addEdge_cases e with ⟨-, heq⟩ | ⟨-, heq⟩
  · rwa [heq]
  · rw [heq]
    refine ⟨h.reachableSet, fun f => ?_, fun s m => ?_, fun m s => ?_, fun m => ?_, fun m n => ?_⟩
    · rw [ExtTreeSet.mem_insert, Std.compare_eq_iff_eq, h.edgeSet, List.mem_append,
        List.mem_singleton, or_comm, eq_comm]
    · rw [mem_getD_insert_insert, h.calleeTable]
      simp [or_and_right, exists_or, or_comm, eq_comm]
    · rw [mem_getD_insert_insert, h.callerTable]
      simp [or_and_right, exists_or, or_comm, eq_comm]
    · rw [h.hasNode_noteCall]
      simp only [mem_methods, List.mem_append, List.mem_singleton]
      grind
    · rw [label?_noteCall, labelsBetween_concat, h.label?]
      split
      · split <;> simp_all
      · rfl

theorem Consistent.insert (h : t.Consistent) (i : Insertion) : (t.insert i).Consistent := by
  cases i with
  | entry m => exact { h with }
  | reachable m => exact h.addReachable m
  | edge e => exact h.addEdge e

theorem consistent_ofInsertions (l : List Insertion) :
    (ofInsertions l : CallTables G).Consistent := by
  suffices h : ∀ t : CallTables G, t.Consistent → (l.foldl CallTables.insert t).Consistent from
    h ∅ consistent_empty
  induction l with
  | nil => exact fun _ h => h
  | cons i l ih => exact fun t h => ih _ (h.insert i)

/-! ## Views -/

/-- What an insertion does to a call graph without tables. -/
def Insertion.onGraph (g : CallGraph) : Insertion → CallGraph
  | .entry m => g.addEntry m
  | .reachable m => g.addReachable m
  | .edge e => g.addEdge e

omit [LawfulLabelledGraph G] in
theorem Consistent.graph_insert (h : t.Consistent) (i : Insertion) :
    (t.insert i).graph = i.onGraph t.graph := by
  cases i with
  | entry m => rfl
  | reachable m =>
    simp only [CallTables.insert, Insertion.onGraph, graph, CallGraph.addReachable, adjoin]
    rcases h.addReachable_cases m with ⟨hm, heq⟩ | ⟨hm, heq⟩ <;> simp [heq, hm]
  | edge e =>
    simp only [CallTables.insert, Insertion.onGraph, graph, CallGraph.addEdge, adjoin]
    rcases h.addEdge_cases e with ⟨he, heq⟩ | ⟨he, heq⟩ <;> simp [heq, he]

theorem graph_ofInsertions (l : List Insertion) :
    (ofInsertions l : CallTables G).graph = l.foldl Insertion.onGraph ∅ := by
  suffices h : ∀ t : CallTables G, t.Consistent →
      (l.foldl CallTables.insert t).graph = l.foldl Insertion.onGraph t.graph from
    h ∅ consistent_empty
  induction l with
  | nil => exact fun _ _ => rfl
  | cons i l ih =>
    intro t h
    rw [List.foldl_cons, List.foldl_cons, ih _ (h.insert i), h.graph_insert]

omit [LawfulLabelledGraph G] in
theorem Consistent.calleesOf_eq (h : t.Consistent) (s : Site) :
    t.calleesOf s = t.graph.callees s := by
  refine toList_eq_sorted fun m => ?_
  simp [h.calleeTable, CallGraph.edgesOutOf, graph, and_assoc]

omit [LawfulLabelledGraph G] in
theorem Consistent.callersOf_eq (h : t.Consistent) (m : MethodId) :
    t.callersOf m = t.graph.callers m := by
  refine toList_eq_sorted fun s => ?_
  simp [h.callerTable, CallGraph.edgesInto, graph, and_assoc]

/-- Arcs lead from callers to callees. -/
theorem Consistent.mem_targets (h : t.Consistent) :
    n ∈ targets t.arcs m ↔ ∃ e ∈ t.edges, e.caller = m ∧ e.callee = n := by
  rw [LawfulLabelledGraph.mem_targets, h.label?]
  split
  · rename_i hnil
    have hnone := labelsBetween_eq_nil_iff.1 hnil
    simpa using hnone
  · rename_i hne
    simpa [labelsBetween_eq_nil_iff] using hne

theorem Consistent.mem_calleeMethodsOf (h : t.Consistent) :
    n ∈ t.calleeMethodsOf m ↔ ∃ e ∈ t.edges, e.caller = m ∧ e.callee = n := by
  unfold calleeMethodsOf
  split
  · rw [← h.mem_targets, ExtTreeSet.mem_ofList, List.contains_iff_mem]
  · rename_i hnode
    refine iff_of_false ExtTreeSet.not_mem_empty fun ⟨e, he, hcaller, _⟩ => hnode ?_
    exact (h.hasNode m).2 (mem_methods.2 (.inr ⟨e, he, .inl hcaller.symm⟩))

theorem Consistent.calleeMethodsOf_eq (h : t.Consistent) (m : MethodId) :
    (t.calleeMethodsOf m).toList = t.graph.calleeMethods m := by
  refine toList_eq_sorted fun n => ?_
  rw [h.mem_calleeMethodsOf, CallGraph.mem_calls]
  rfl

/-! ## Sequences of insertions -/

namespace Insertion

def entry? : Insertion → Option MethodId
  | entry m => some m
  | _ => none

def reachable? : Insertion → Option MethodId
  | reachable m => some m
  | _ => none

def edge? : Insertion → Option CallEdge
  | edge e => some e
  | _ => none

theorem foldl_onGraph (l : List Insertion) (g : CallGraph) : l.foldl onGraph g =
    ⟨(l.filterMap entry?).foldl adjoin g.entries, (l.filterMap reachable?).foldl adjoin g.reachable,
      (l.filterMap edge?).foldl adjoin g.edges⟩ := by
  induction l generalizing g with
  | nil => rfl
  | cons i l ih => cases i <;> exact ih _

end Insertion

/-- The lists of the tables after a sequence of insertions. -/
theorem firstOccurrences_ofInsertions (l : List Insertion) :
    let t : CallTables G := ofInsertions l
    FirstOccurrences (l.filterMap Insertion.entry?) t.entries ∧
      FirstOccurrences (l.filterMap Insertion.reachable?) t.reachable ∧
      FirstOccurrences (l.filterMap Insertion.edge?) t.edges := by
  have hgraph := (graph_ofInsertions (G := G) l).trans (Insertion.foldl_onGraph l ∅)
  obtain ⟨hentries, hreachable, hedges⟩ := CallGraph.mk.inj hgraph
  exact ⟨hentries ▸ firstOccurrences_foldl_adjoin _, hreachable ▸ firstOccurrences_foldl_adjoin _,
    hedges ▸ firstOccurrences_foldl_adjoin _⟩

/-- The tables answer every look-up as a sequence of insertions demands, and the next insertion
changes what it adds to and nothing else. -/
structure Faithful (l : List Insertion) (t : CallTables G) : Prop where
  entries : FirstOccurrences (l.filterMap Insertion.entry?) t.entries
  reachable : FirstOccurrences (l.filterMap Insertion.reachable?) t.reachable
  reachableCount : t.reachableCount = (l.filterMap Insertion.reachable?).toFinset.card
  contains : ∀ m, t.contains m = true ↔ m ∈ l.filterMap Insertion.reachable?
  edges : FirstOccurrences (l.filterMap Insertion.edge?) t.edges
  edgeCount : t.edgeCount = (l.filterMap Insertion.edge?).toFinset.card
  ascending_callees : ∀ s, Ascending (t.calleesOf s)
  callees : ∀ s m, m ∈ t.calleesOf s ↔
    ∃ e ∈ l.filterMap Insertion.edge?, e.site = s ∧ e.callee = m
  ascending_callers : ∀ m, Ascending (t.callersOf m)
  callers : ∀ m s, s ∈ t.callersOf m ↔
    ∃ e ∈ l.filterMap Insertion.edge?, e.callee = m ∧ e.site = s
  edgesOutOf : ∀ s, t.edgesOutOf s = t.edges.filter (·.site = s)
  edgesInto : ∀ m, t.edgesInto m = t.edges.filter (·.callee = m)
  calleeMethods : ∀ m n, n ∈ t.calleeMethodsOf m ↔
    ∃ e ∈ l.filterMap Insertion.edge?, e.caller = m ∧ e.callee = n
  callsBetween : ∀ m n, t.callsBetween? m n =
    if labelsBetween t.edges m n = [] then none else some (labelsBetween t.edges m n)
  addEdge_new : ∀ e, (t.addEdge e).1 = true ↔ e ∉ l.filterMap Insertion.edge?
  addEdge_methods : ∀ e, (t.addEdge e).2.entries = t.entries ∧
    (t.addEdge e).2.reachable = t.reachable ∧ (t.addEdge e).2.contains = t.contains
  addReachable_new : ∀ m, (t.addReachable m).1 = true ↔ m ∉ l.filterMap Insertion.reachable?
  addReachable_edges : ∀ m, (t.addReachable m).2.edges = t.edges ∧
    (t.addReachable m).2.calleesOf = t.calleesOf ∧ (t.addReachable m).2.callersOf = t.callersOf ∧
    (t.addReachable m).2.calleeMethodsOf = t.calleeMethodsOf ∧
    (t.addReachable m).2.callsBetween? = t.callsBetween?

omit [LawfulLabelledGraph G] in
theorem Consistent.addEdge_methods (h : t.Consistent) (e : CallEdge) :
    (t.addEdge e).2.entries = t.entries ∧ (t.addEdge e).2.reachable = t.reachable ∧
      (t.addEdge e).2.contains = t.contains := by
  rcases h.addEdge_cases e with ⟨-, heq⟩ | ⟨-, heq⟩ <;> rw [heq] <;> exact ⟨rfl, rfl, rfl⟩

theorem Consistent.addReachable_edges (h : t.Consistent) (m : MethodId) :
    (t.addReachable m).2.edges = t.edges ∧ (t.addReachable m).2.calleesOf = t.calleesOf ∧
      (t.addReachable m).2.callersOf = t.callersOf ∧
      (t.addReachable m).2.calleeMethodsOf = t.calleeMethodsOf ∧
      (t.addReachable m).2.callsBetween? = t.callsBetween? := by
  have hedges : (t.addReachable m).2.edges = t.edges := by
    rcases h.addReachable_cases m with ⟨-, heq⟩ | ⟨-, heq⟩ <;> rw [heq]
  have h' := h.addReachable m
  refine ⟨hedges, funext fun s => ?_, funext fun n => ?_, funext fun n => ?_,
    funext fun j => funext fun k => ?_⟩
  · rw [h'.calleesOf_eq, h.calleesOf_eq, CallGraph.callees, CallGraph.edgesOutOf, graph, hedges]
    rfl
  · rw [h'.callersOf_eq, h.callersOf_eq, CallGraph.callers, CallGraph.edgesInto, graph, hedges]
    rfl
  · exact ExtTreeSet.ext_mem fun k => by rw [h'.mem_calleeMethodsOf, h.mem_calleeMethodsOf, hedges]
  · exact (h'.label? j k).trans (hedges ▸ (h.label? j k).symm)

/-- After any insertions in any order the tables agree with each other and with what was inserted. -/
theorem faithful_ofInsertions (l : List Insertion) :
    Faithful l (ofInsertions l : CallTables G) := by
  have h : (ofInsertions l : CallTables G).Consistent := consistent_ofInsertions l
  obtain ⟨hentries, hfound, hfirst⟩ := firstOccurrences_ofInsertions (G := G) l
  generalize (ofInsertions l : CallTables G) = t at h hentries hfound hfirst
  exact {
    entries := hentries
    reachable := hfound
    reachableCount := hfound.length_eq
    contains := fun m => ExtTreeSet.contains_iff_mem.trans ((h.reachableSet m).trans (hfound.mem m))
    edges := hfirst
    edgeCount := hfirst.length_eq
    ascending_callees := fun s => ascending_toList _
    callees := fun s m => by
      simp only [← hfirst.mem]
      exact ExtTreeSet.mem_toList.trans (h.calleeTable s m)
    ascending_callers := fun m => ascending_toList _
    callers := fun m s => by
      simp only [← hfirst.mem]
      exact ExtTreeSet.mem_toList.trans (h.callerTable m s)
    edgesOutOf := fun _ => rfl
    edgesInto := fun _ => rfl
    calleeMethods := fun m n => by
      simp only [← hfirst.mem]
      exact h.mem_calleeMethodsOf
    callsBetween := h.label?
    addEdge_new := fun e => by
      rw [← hfirst.mem]
      rcases h.addEdge_cases e with ⟨he, heq⟩ | ⟨he, heq⟩ <;> simp [heq, he]
    addEdge_methods := h.addEdge_methods
    addReachable_new := fun m => by
      rw [← hfound.mem]
      rcases h.addReachable_cases m with ⟨hm, heq⟩ | ⟨hm, heq⟩ <;> simp [heq, hm]
    addReachable_edges := h.addReachable_edges }

end

/-- One site that calls in two ways, a call that is added twice, and a method that calls itself
without being marked. -/
theorem faithful_ofInsertions_twoKinds :
    let l : List Insertion := [.entry ⟨0⟩, .edge ⟨.virtual, ⟨⟨0⟩, 3⟩, ⟨2⟩⟩,
      .edge ⟨.virtual, ⟨⟨0⟩, 3⟩, ⟨1⟩⟩, .edge ⟨.virtual, ⟨⟨0⟩, 3⟩, ⟨2⟩⟩, .reachable ⟨0⟩,
      .edge ⟨.static, ⟨⟨0⟩, 3⟩, ⟨2⟩⟩, .edge ⟨.static, ⟨⟨1⟩, 0⟩, ⟨1⟩⟩]
    let t : CallTables (ArcList MethodId CallLabel) := ofInsertions l
    Faithful l t ∧ t.edgeCount = 4 ∧ t.calleesOf ⟨⟨0⟩, 3⟩ = [⟨1⟩, ⟨2⟩] ∧
      t.callersOf ⟨1⟩ = [⟨⟨0⟩, 3⟩, ⟨⟨1⟩, 0⟩] ∧
      t.callsBetween? ⟨0⟩ ⟨2⟩ = some [(.virtual, ⟨⟨0⟩, 3⟩), (.static, ⟨⟨0⟩, 3⟩)] ∧
      (t.calleeMethodsOf ⟨1⟩).toList = [⟨1⟩] ∧ t.reachable = [⟨0⟩] :=
  ⟨faithful_ofInsertions _, by decide, by decide, by decide, by decide, by decide, by decide⟩

end CallTables

end ObjectFlow
