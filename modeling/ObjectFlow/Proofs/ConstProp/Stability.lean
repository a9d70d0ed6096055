import ObjectFlow.Dataflow.Fact
import ObjectFlow.Proofs.ConstProp.Transfer
import ObjectFlow.Proofs.Dataflow.Agreement

/-!
# The work list leaves nothing to do

Where the work list of constant propagation ends, another visit of any node would change nothing
(`workList_stable`), although transfer functions need not be monotone: outputs may fall, but what
has flowed into an input stays there, and the output of a node changes only after its input did.
-/

namespace ObjectFlow

open Dataflow

/-! ## Stable nodes -/

namespace Dataflow

variable {N F : Type} [Ord N] [Std.TransOrd N]

/-- The input of a node after the outputs of its sources have been met into it once more. -/
def Solution.again (r : Solution N F) (a : Analysis N F) (g : FlowGraph N) (n : N) (input : F) :
    F :=
  State.gather ⟨r.inputs a.direction, r.outputs a.direction, []⟩ a g n input

/-- The output of a node belongs to its input and the outputs of its sources lie below this, so
that another visit changes neither. -/
structure Solution.Stable [Preorder F] (r : Solution N F) (a : Analysis N F) (g : FlowGraph N)
    (n : N) (x : F) : Prop where
  input : (r.inputs a.direction)[n]? = some x
  output : (r.outputs a.direction)[n]? = some (a.transfer n x)
  sources : ∀ p ∈ a.sources g n, ∀ y, (r.outputs a.direction)[p]? = some y → y ≤ x
  again : r.again a g n x = x

variable {a : Analysis N F} {g : FlowGraph N} {s : State N F} {n : N}

/-- What flows into a settled node is in its input already. -/
theorem State.Settled.stable [PartialOrder F] (h : s.Settled a g n) (hj : a.Joins) :
    ∃ x, (s.solution a.direction).Stable a g n x := by
  obtain ⟨x, hx, hy, hle⟩ := h
  refine ⟨x, by simpa using hx, by simpa using hy, by simpa using hle, ?_⟩
  have hgather : s.gather a g n x = x :=
    le_antisymm (State.gather_le hj le_rfl hle) (State.le_gather hj)
  simpa [Solution.again, State.gather] using hgather

/-- The start is settled if its transfer function keeps the boundary fact. -/
theorem State.Fits.settled_start [Preorder F] (h : s.Fits a g) (hr : a.Rooted g)
    (hn : a.start g ∈ g.nodes) (hkeep : a.transfer (a.start g) a.boundary = a.boundary) :
    s.Settled a g (a.start g) := by
  obtain ⟨hin, hout⟩ := h.start hn
  refine ⟨a.boundary, hin, by rw [hkeep, hout], fun p hp => ?_⟩
  simp [hr.start] at hp

end Dataflow

/-! ## Nodes of bodies -/

namespace Cfg

variable {b : Body} {m n : Node}

theorem entry_mem_nodes : Node.entry ∈ (ofBody b).nodes := by simp [ofBody]

theorem mem_nodes_of_mem_preds (h : m ∈ (ofBody b).preds n) : m ∈ (ofBody b).nodes := by
  obtain ⟨e, he, -, rfl⟩ := mem_preds.1 h
  obtain ⟨-, ⟨hs, -⟩ | ⟨s, hs, hsource, -⟩⟩ := edge_cases he
  · rw [hs]
    exact entry_mem_nodes
  · simp only [hsource, ofBody, List.mem_append, List.mem_cons, List.mem_map]
    exact .inl (.inr ⟨s, hs, rfl⟩)

end Cfg

namespace ConstProp

/-- The work list ends on every body, whatever this divides by. The entry keeps the boundary fact;
every output belongs to the input of its node and lies below the inputs of the successors, so that
meeting the outputs of the predecessors into an input and running the transfer function once more
reports no change at any node. -/
theorem workList_stable (holdsInt : VarId → Bool) (b : Body) :
    ∃ r, solve .workList (analysis holdsInt b) (Cfg.ofBody b).flow = some r ∧
      (∃ k, ∀ fuel ≥ k, WorkList.run (analysis holdsInt b) (Cfg.ofBody b).flow fuel = some r) ∧
      r.inFacts[Cfg.Node.entry]? = some (boundary holdsInt b) ∧
      r.outFacts[Cfg.Node.entry]? = some (boundary holdsInt b) ∧
      ∀ n ∈ (Cfg.ofBody b).nodes, ∃ input output again : Fact,
        r.inFacts[n]? = some input ∧ r.outFacts[n]? = some output ∧
        output = transfer holdsInt b n input ∧
        (∀ p ∈ (Cfg.ofBody b).preds n, ∃ f, r.outFacts[p]? = some f ∧
          ∀ v, f.get v ≤ input.get v) ∧
        again = r.again (analysis holdsInt b) (Cfg.ofBody b).flow n input ∧ again = input ∧
        (reporting (fun _ => transfer holdsInt b n again) output).1 = false := by
  have hj := joins holdsInt b
  have hr := Cfg.rooted (b := b) (analysis holdsInt b)
  obtain ⟨r, hsolve⟩ := exists_workList holdsInt b
  obtain ⟨s, rfl, hf, hset⟩ := (ends_of_solve hsolve).settled hr hj
  obtain ⟨hin, hout⟩ := hf.start Cfg.entry_mem_nodes
  refine ⟨_, hsolve, ⟨_, fun fuel hfuel => WorkList.run_mono hfuel hsolve⟩, hin, hout,
    fun n hn => ?_⟩
  have hsettled : s.Settled (analysis holdsInt b) (Cfg.ofBody b).flow n := by
    by_cases hne : n = .entry
    · subst hne
      exact hf.settled_start hr hn rfl
    · exact hset n hn hne
  obtain ⟨input, hstable⟩ := hsettled.stable hj
  refine ⟨input, _, _, hstable.input, hstable.output, rfl, fun p hp => ?_, rfl, hstable.again, ?_⟩
  · obtain ⟨f, hpf⟩ := (hf.outputs p).2 (Cfg.mem_nodes_of_mem_preds hp)
    exact ⟨f, hpf, hstable.sources p hp f hpf⟩
  · rw [hstable.again]
    simp [reporting, analysis]

end ConstProp

end ObjectFlow
