import ObjectFlow.Cfg
import ObjectFlow.Proofs.Dataflow.Equations

/-!
# Edges of control-flow graphs

Predecessors and successors list the ends of the same edges. No edge leads to the entry of the graph
of a body and none from its exit, so an analysis of either direction starts at a root
(`Cfg.rooted`).
-/

namespace ObjectFlow

theorem Body.mem_stmts_of_at? {b : Body} {n : Cfg.Node} {s : Stmt} (h : b.at? n = some s) :
    s ∈ b.stmts := by
  cases n with
  | stmt i => exact List.mem_of_getElem? h
  | entry => cases h
  | exit => cases h

namespace Cfg

open Dataflow (Analysis)

variable {g : Cfg} {b : Body} {m n : Node} {e : Edge}

theorem mem_succs : n ∈ g.succs m ↔ ∃ e ∈ g.edges, e.source = m ∧ e.target = n := by
  simp only [succs, outEdges, List.mem_map, List.mem_filter, decide_eq_true_eq, and_assoc]

theorem mem_preds : m ∈ g.preds n ↔ ∃ e ∈ g.edges, e.target = n ∧ e.source = m := by
  simp only [preds, inEdges, List.mem_map, List.mem_filter, decide_eq_true_eq, and_assoc]

theorem mem_preds_iff : m ∈ g.preds n ↔ n ∈ g.succs m := by
  rw [mem_preds, mem_succs]
  exact exists_congr fun e => and_congr_right fun _ => and_comm

/-- An edge leads from the entry to the first node, or is one of the ways out of a statement. -/
theorem edge_cases (h : e ∈ (ofBody b).edges) : e.target ∈ (ofBody b).nodes ∧
    ((e.source = .entry ∧ e.target = first b.stmts.length) ∨
      ∃ s ∈ b.stmts, e.source = .stmt s.index ∧
        (e.kind, e.target) ∈ exits b.stmts.length s) := by
  simp only [ofBody, List.mem_filter, List.mem_cons, List.mem_flatMap, List.mem_map,
    decide_eq_true_eq] at h ⊢
  obtain ⟨rfl | ⟨s, hs, ⟨kind, target⟩, hx, rfl⟩, hn⟩ := h
  · exact ⟨hn, .inl ⟨rfl, rfl⟩⟩
  · exact ⟨hn, .inr ⟨s, hs, rfl, hx⟩⟩

theorem first_ne_entry {length : ℕ} : first length ≠ .entry := by
  unfold first
  split <;> simp

theorem next_ne_entry {length i : ℕ} : next length i ≠ .entry := by
  unfold next
  split <;> simp

/-- No statement leads back to the entry. -/
theorem ne_entry_of_exits {length : ℕ} {s : Stmt} {kind : EdgeKind}
    (h : (kind, n) ∈ exits length s) : n ≠ .entry := by
  rintro rfl
  unfold exits at h
  split at h <;> simp [next_ne_entry.symm] at h

theorem preds_entry : (ofBody b).preds .entry = [] := by
  rw [List.eq_nil_iff_forall_not_mem]
  intro m hm
  obtain ⟨e, he, ht, -⟩ := mem_preds.1 hm
  obtain ⟨-, ⟨-, hf⟩ | ⟨s, -, -, hx⟩⟩ := edge_cases he
  · exact first_ne_entry (hf.symm.trans ht)
  · exact ne_entry_of_exits hx ht

theorem succs_exit : (ofBody b).succs .exit = [] := by
  rw [List.eq_nil_iff_forall_not_mem]
  intro m hm
  obtain ⟨e, he, hs, -⟩ := mem_succs.1 hm
  obtain ⟨-, ⟨hf, -⟩ | ⟨s, -, hx, -⟩⟩ := edge_cases he
  · exact Node.noConfusion (hf.symm.trans hs)
  · exact Node.noConfusion (hx.symm.trans hs)

/-- Analyses of both directions start at a root of the graph. -/
theorem rooted {F : Type} (a : Analysis Node F) : a.Rooted (ofBody b).flow where
  turned _ _ := mem_preds_iff
  start := by
    unfold Analysis.sources Analysis.start
    cases a.direction with
    | forward => exact preds_entry
    | backward => exact succs_exit

end Cfg

end ObjectFlow
