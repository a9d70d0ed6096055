import ObjectFlow.Proofs.Dataflow.Agreement

/-!
# The boundary fact

Both solvers set the boundary fact at the node where the analysis starts and leave this node out of
the order in which they visit nodes. Sweeps never come to it. The work list does when another node
with an edge to it gets a new output (`boundary_overwritten`). Where no such edge exists, it keeps
the boundary fact too and agrees with the sweeps (`boundary_kept`).
-/

namespace ObjectFlow.Dataflow

open Std (TransOrd LawfulEqOrd)

variable {N F : Type} [Ord N] [TransOrd N]

/-- If the analysis starts at a node of the graph, the boundary fact holds before and after it. -/
def Solution.KeepsBoundary (r : Solution N F) (a : Analysis N F) (g : FlowGraph N) : Prop :=
  a.start g ∈ g.nodes →
    r.inFacts[a.start g]? = some a.boundary ∧ r.outFacts[a.start g]? = some a.boundary

instance [DecidableEq N] [DecidableEq F] (r : Solution N F) (a : Analysis N F) (g : FlowGraph N) :
    Decidable (r.KeepsBoundary a g) :=
  inferInstanceAs (Decidable (a.start g ∈ g.nodes →
    r.inFacts[a.start g]? = some a.boundary ∧ r.outFacts[a.start g]? = some a.boundary))

variable [LawfulEqOrd N] [DecidableEq N] [DecidableEq F] {a : Analysis N F} {g : FlowGraph N}

omit [LawfulEqOrd N] [DecidableEq N] [DecidableEq F] in
theorem State.Fits.keepsBoundary [Preorder F] {s : State N F} (h : s.Fits a g) :
    (s.solution a.direction).KeepsBoundary a g := by
  intro hstart
  obtain ⟨hin, hout⟩ := h.start hstart
  unfold State.solution
  split
  · exact ⟨hin, hout⟩
  · exact ⟨hout, hin⟩

/-- On every graph sweeps end and keep the boundary fact. If no edge leads to the start from another
node, so does the work list, with the same facts. -/
theorem boundary_kept [PartialOrder F] (a : Analysis N F) (g : FlowGraph N) (hj : a.Joins)
    (hm : ∀ n ∈ g.nodes, Monotone (a.transfer n))
    (hc : ¬ ∃ u : ℕ → F, StrictMono u ∧ ∀ i, a.Arises g (u i)) :
    (∃ r, (∃ k, ∀ fuel ≥ k, Sweep.run a g fuel = some r) ∧ r.KeepsBoundary a g) ∧
    (a.Unentered g → ∃ r r',
      (∃ k, ∀ fuel ≥ k, WorkList.run a g fuel = some r ∧ Sweep.run a g fuel = some r') ∧
      r.KeepsBoundary a g ∧ r'.KeepsBoundary a g ∧
      r.inFacts = r'.inFacts ∧ r.outFacts = r'.outFacts) := by
  have := Analysis.wellFounded_of_chains hc
  obtain ⟨k, t, ht⟩ := Sweep.exists_end hj hm
  have hsweep : Sweep.run a g k = some (t.solution a.direction) := congrArg (Option.map _) ht
  have hkept := (Sweep.least_of_end hj hm ht).1.keepsBoundary
  refine ⟨⟨_, ⟨k, fun fuel hfuel => Sweep.run_mono hfuel hsweep⟩, hkept⟩, fun hu => ?_⟩
  obtain ⟨m, s, hs⟩ := WorkList.exists_end hj hu
  have hlist : WorkList.run a g m = some (s.toState.solution a.direction) :=
    congrArg (Option.map _) hs
  have hlistEnds : Ends .workList a g _ := ⟨m, hlist⟩
  have hsweepEnds : Ends .sweep a g _ := ⟨k, hsweep⟩
  refine ⟨_, _, ⟨max m k, fun fuel hfuel => ⟨?_, ?_⟩⟩,
    (WorkList.least_of_end hj hu hm hs).1.keepsBoundary, hkept,
    hlistEnds.facts_eq hu hj hm hsweepEnds⟩
  · exact WorkList.run_mono (le_of_max_le_left hfuel) hlist
  · exact Sweep.run_mono (le_of_max_le_right hfuel) hsweep

/-! ## Edges to the start -/

/-- A mark that holds at the entry, and one that the second node adds. -/
def marks : GenKill ℕ ℕ where
  direction := .forward
  merge := .union
  boundary := .ofList [1]
  initial := ∅
  gen n := if n = 1 then .ofList [5] else ∅
  kill _ := ∅

/-- An entry that leads to itself and to a loop. -/
def selfEdge : FlowGraph ℕ := .ofEdges 0 2 [0, 1, 2] [(0, 0), (0, 1), (1, 2), (2, 1)]

/-- An edge from the start to itself does no harm. -/
theorem boundary_kept_selfEdge :
    (marks.analysis selfEdge.nodes).Joins ∧
    (∀ n ∈ selfEdge.nodes, Monotone ((marks.analysis selfEdge.nodes).transfer n)) ∧
    (¬ ∃ u : ℕ → SetFact ℕ, StrictMono u ∧
      ∀ i, (marks.analysis selfEdge.nodes).Arises selfEdge (u i)) ∧
    (marks.analysis selfEdge.nodes).Unentered selfEdge ∧ ∃ r r',
      (∃ k, ∀ fuel ≥ k, WorkList.run (marks.analysis selfEdge.nodes) selfEdge fuel = some r ∧
        Sweep.run (marks.analysis selfEdge.nodes) selfEdge fuel = some r') ∧
      r.KeepsBoundary (marks.analysis selfEdge.nodes) selfEdge ∧
      r'.KeepsBoundary (marks.analysis selfEdge.nodes) selfEdge ∧
      r.inFacts = r'.inFacts ∧ r.outFacts = r'.outFacts := by
  have hj : (marks.analysis selfEdge.nodes).Joins := GenKill.joins rfl
  have hm : ∀ n ∈ selfEdge.nodes, Monotone ((marks.analysis selfEdge.nodes).transfer n) :=
    fun n _ => GenKill.monotone_transfer
  have hc := (GenKill.ranked (k := marks) (g := selfEdge) rfl).chains
  have hu : (marks.analysis selfEdge.nodes).Unentered selfEdge :=
    ⟨fun m n => FlowGraph.turned_ofEdges, by decide⟩
  exact ⟨hj, hm, hc, hu, (boundary_kept (marks.analysis selfEdge.nodes) selfEdge hj hm hc).2 hu⟩

/-- Two nodes that lead to each other. -/
def backEdge : FlowGraph ℕ := .ofEdges 0 1 [0, 1] [(0, 1), (1, 0)]

/-- The boundary fact of a monotone analysis need not survive in the work list: the mark of the
second node comes back to the entry. -/
theorem boundary_overwritten :
    (∀ m n, m ∈ backEdge.preds n ↔ n ∈ backEdge.succs m) ∧
    (marks.analysis backEdge.nodes).Joins ∧
    (∀ n, Monotone ((marks.analysis backEdge.nodes).transfer n)) ∧
    (¬ ∃ u : ℕ → SetFact ℕ, StrictMono u ∧
      ∀ i, (marks.analysis backEdge.nodes).Arises backEdge (u i)) ∧
    ∃ r r', solve .workList (marks.analysis backEdge.nodes) backEdge = some r ∧
      solve .sweep (marks.analysis backEdge.nodes) backEdge = some r' ∧
      ¬ r.KeepsBoundary (marks.analysis backEdge.nodes) backEdge ∧
      r'.KeepsBoundary (marks.analysis backEdge.nodes) backEdge ∧
      r.inFacts[0]? = some (.ofList [1, 5]) ∧ r'.inFacts[0]? = some (.ofList [1]) := by
  have hranked := GenKill.ranked (k := marks) (g := backEdge) rfl
  obtain ⟨r, hr⟩ := Option.isSome_iff_exists.1
    (by decide +kernel : (solve .workList (marks.analysis backEdge.nodes) backEdge).isSome)
  obtain ⟨r', hr'⟩ := Option.isSome_iff_exists.1
    (by decide +kernel : (solve .sweep (marks.analysis backEdge.nodes) backEdge).isSome)
  have hlost : ∀ r ∈ solve .workList (marks.analysis backEdge.nodes) backEdge,
      ¬ r.KeepsBoundary (marks.analysis backEdge.nodes) backEdge ∧
        r.inFacts[0]? = some (.ofList [1, 5]) := by
    decide +kernel
  have hkept : ∀ r ∈ solve .sweep (marks.analysis backEdge.nodes) backEdge,
      r.KeepsBoundary (marks.analysis backEdge.nodes) backEdge ∧
        r.inFacts[0]? = some (.ofList [1]) := by
    decide +kernel
  exact ⟨fun m n => FlowGraph.turned_ofEdges, GenKill.joins rfl,
    fun n => GenKill.monotone_transfer, hranked.chains, r, r', hr, hr', (hlost r hr).1,
    (hkept r' hr').1, (hlost r hr).2, (hkept r' hr').2⟩

end ObjectFlow.Dataflow
