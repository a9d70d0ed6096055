import ObjectFlow.Proofs.Dataflow.Agreement

/-!
# Live variables

Both solvers end on every body (`exists_solve`). What is live before a node follows from what is live
after it (`mem_transfer`), and the solution obeys this at all nodes (`exists_settled`).
-/

namespace ObjectFlow.Liveness

open Dataflow

variable {b : Body} {s : Stmt} {n : Cfg.Node} {l : SetFact VarId}

/-- The variables that are live before a statement are those that it reads and, but for the one that
it assigns, those that are live after it. -/
theorem mem_transfer {v : VarId} (hs : b.at? n = some s) :
    v ∈ (analysis b).transfer n l ↔ (v ∈ l ∧ v ∉ s.instr.def?) ∨ v ∈ s.instr.uses := by
  refine GenKill.mem_transfer.trans ?_
  simp [genKill, uses, defs, hs, Std.ExtTreeSet.mem_ofList]

/-- Where nothing is executed, the same variables are live before and after. -/
theorem transfer_of_none (hn : b.at? n = none) : (analysis b).transfer n l = l := by
  refine le_antisymm (fun v hv => ?_) fun v hv => ?_
  · simpa [genKill, uses, defs, hn] using GenKill.mem_transfer.1 hv
  · refine GenKill.mem_transfer.2 (.inl ⟨hv, ?_⟩)
    simp [genKill, defs, hn]

theorem exists_solve (kind : SolverKind) (b : Body) :
    ∃ r, solve kind (analysis b) (Cfg.ofBody b).flow = some r := by
  have h := framework_liveness b
  exact Dataflow.exists_solve h.rooted h.joins h.mono (ranked_liveness b) kind

/-- Where a solver ends, all nodes are settled, the exit included: nothing is live there. -/
theorem exists_settled {kind : SolverKind} {r : Solution Cfg.Node (SetFact VarId)}
    (hr : Ends kind (analysis b) (Cfg.ofBody b).flow r) :
    ∃ st : State Cfg.Node (SetFact VarId), r = st.solution .backward ∧
      st.Fits (analysis b) (Cfg.ofBody b).flow ∧
      ∀ n ∈ (Cfg.ofBody b).nodes, st.Settled (analysis b) (Cfg.ofBody b).flow n := by
  have h := framework_liveness b
  obtain ⟨st, rfl, hf, hs⟩ := hr.settled h.rooted h.joins
  refine ⟨st, rfl, hf, fun n hn => ?_⟩
  by_cases he : n = .exit
  · subst he
    obtain ⟨hin, hout⟩ := hf.start hn
    refine ⟨_, hin, ?_, fun m hm => ?_⟩
    · rw [transfer_of_none rfl]
      exact hout
    · have hnone : m ∈ (Cfg.ofBody b).succs .exit := hm
      rw [Cfg.succs_exit] at hnone
      cases hnone
  · exact hs n hn he

end ObjectFlow.Liveness
