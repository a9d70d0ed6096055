import Mathlib.Order.Bounds.Defs
import ObjectFlow.Proofs.CallGraph.Discovery
import ObjectFlow.Proofs.CallGraph.Reachability

/-!
# Call graphs from the class hierarchy

The graph that the class hierarchy of a valid program gives for an entry contains the methods that
possible calls lead to (`Valid.mem_reachable_callGraph`), and the possible calls of these methods
(`Valid.mem_edges_callGraph`). A search of the finished graph finds its methods in the order of
their discovery (`Valid.reachableFrom_callGraph`).
-/

namespace ObjectFlow.Program

open Relation (ReflTransGen)

variable {p : Program} {entry m : MethodId} {e : CallEdge}

/-- The methods of the graph are those that possible calls lead to. -/
theorem mem_reachable_callGraph : m ∈ (p.callGraph entry).reachable ↔
    ReflTransGen (fun m n => n ∈ (p.callEdges m).map CallEdge.callee) entry m := by
  obtain ⟨n, hn⟩ := Discovery.exists_search_callGraph p entry
  exact Search.mem_seen_of_iterate hn

theorem Valid.mem_edges_callGraph (hp : p.Valid) : e ∈ (p.callGraph entry).edges ↔
    e.caller ∈ (p.callGraph entry).reachable ∧ e ∈ p.callEdges e.caller := by
  rw [(Discovery.invariant_callGraph hp entry).edges, List.mem_flatMap]
  constructor
  · rintro ⟨m, hm, he⟩
    obtain rfl := caller_of_mem_callEdges he
    exact ⟨hm, he⟩
  · exact fun h => ⟨e.caller, h.1, h.2⟩

/-- They are also those that the calls of the graph lead to. -/
theorem Valid.leads_callGraph (hp : p.Valid) :
    (p.callGraph entry).Leads entry m ↔ m ∈ (p.callGraph entry).reachable := by
  constructor
  · intro h
    refine h.closed (p := (· ∈ (p.callGraph entry).reachable)) (mem_reachable_callGraph.2 .refl) ?_
    intro e hedge hcaller
    obtain ⟨-, hposs⟩ := hp.mem_edges_callGraph.1 hedge
    exact mem_reachable_callGraph.2
      ((mem_reachable_callGraph.1 hcaller).tail (List.mem_map_of_mem hposs))
  · intro h
    replace h := mem_reachable_callGraph.1 h
    induction h with
    | refl => exact .refl
    | tail hpath hn ih =>
      obtain ⟨e, hposs, rfl⟩ := List.mem_map.1 hn
      obtain rfl := caller_of_mem_callEdges hposs
      exact ih.call (hp.mem_edges_callGraph.2 ⟨mem_reachable_callGraph.2 hpath, hposs⟩)

/-- The calls of a reachable method in the graph are its possible calls. -/
theorem Valid.calls_callGraph (hp : p.Valid) (hm : m ∈ (p.callGraph entry).reachable) :
    (p.callGraph entry).calls m = (p.callEdges m).map CallEdge.callee := by
  have hinv := Discovery.invariant_callGraph hp entry
  rw [CallGraph.calls, hinv.edges, filter_flatMap_callEdges hinv.nodup hm]

/-- A search of the finished graph finds its methods in the order of their discovery. -/
theorem Valid.reachableFrom_callGraph (hp : p.Valid) (entry : MethodId) :
    (p.callGraph entry).reachableFrom entry = (p.callGraph entry).reachable := by
  have hentry : entry ∈ (p.callGraph entry).methods :=
    List.mem_append_left _ (mem_reachable_callGraph.2 .refl)
  obtain ⟨n, hn⟩ := Discovery.exists_search_callGraph p entry
  have hcalls : ∀ m, ReflTransGen (fun m n => n ∈ (p.callEdges m).map CallEdge.callee) entry m →
      (p.callGraph entry).calls m = (p.callEdges m).map CallEdge.callee :=
    fun m hm => hp.calls_callGraph (mem_reachable_callGraph.2 hm)
  rw [← Search.iterate_step_congr hcalls] at hn
  rw [CallGraph.reachableFrom, if_pos hentry,
    breadthFirst_eq (CallGraph.encloses_methods hentry) (Nat.le_refl _) hn]

/-- The set contains all that the call sites of its members may call. -/
def ClosedUnderCalls (p : Program) (R : Set MethodId) : Prop :=
  ∀ m ∈ R, ∀ site ∈ p.callSites m, ∀ callee ∈ p.resolve site, callee ∈ R

/-- The reachable methods are the least set with the entry that is closed under calls. -/
theorem isLeast_reachable_callGraph (p : Program) (entry : MethodId) :
    IsLeast {R | entry ∈ R ∧ p.ClosedUnderCalls R} {m | m ∈ (p.callGraph entry).reachable} := by
  refine ⟨⟨mem_reachable_callGraph.2 .refl, fun m hm site hs callee hc => ?_⟩, fun R hR m hm => ?_⟩
  · have hcallee := mem_callees.2 ⟨site, hs, hc⟩
    exact mem_reachable_callGraph.2 ((mem_reachable_callGraph.1 hm).tail hcallee)
  · have hpath := mem_reachable_callGraph.1 hm
    induction hpath with
    | refl => exact hR.1
    | tail _ hn ih =>
      obtain ⟨site, hs, hc⟩ := mem_callees.1 hn
      exact hR.2 _ (ih (mem_reachable_callGraph.2 ‹_›)) site hs _ hc

theorem Valid.nodup_edges_callGraph (hp : p.Valid) (entry : MethodId) :
    (p.callGraph entry).edges.Nodup := by
  have hinv := Discovery.invariant_callGraph hp entry
  rw [hinv.edges]
  refine List.nodup_flatMap.2 ⟨fun _ _ => hp.nodup_callEdges, hinv.nodup.imp fun hne e he he' => ?_⟩
  exact hne ((caller_of_mem_callEdges he).symm.trans (caller_of_mem_callEdges he'))

/-- All of them are methods of the program, if the entry is one. -/
theorem Valid.hasMethod_of_reachable (hp : p.Valid) (he : p.HasMethod entry)
    (hm : m ∈ (p.callGraph entry).reachable) : p.HasMethod m := by
  have hclosed : p.ClosedUnderCalls {m | p.HasMethod m} := by
    intro k _ site _ callee hc
    obtain ⟨call, -, htarget⟩ := mem_resolve.1 hc
    exact hp.hasMethod_of_mem_targets htarget
  exact (isLeast_reachable_callGraph p entry).2 ⟨he, hclosed⟩ hm

/-- Discovery ends with the least set of methods that contains the entry and is closed under calls,
and with the possible calls of these methods; a search of the finished graph repeats its order. -/
theorem discovery_finds_least {d : Declarations} (hd : d.Built) (h : d.build = .ok p)
    (he : p.HasMethod entry) :
    (∃ k, ∀ fuel ≥ k,
      iterate (Discovery.step p) fuel (.start entry) = some ⟨p.callGraph entry, []⟩) ∧
    IsLeast {R | entry ∈ R ∧ p.ClosedUnderCalls R} {m | m ∈ (p.callGraph entry).reachable} ∧
    (p.callGraph entry).reachable.Nodup ∧
    (∀ m ∈ (p.callGraph entry).reachable, p.HasMethod m) ∧
    (∀ e, e ∈ (p.callGraph entry).edges ↔
      e.caller ∈ (p.callGraph entry).reachable ∧ e.site ∈ p.callSites e.caller ∧
        (p.callAt? e.site).map Invoke.kind = some e.kind ∧ e.callee ∈ p.resolve e.site) ∧
    (p.callGraph entry).edges.Nodup ∧
    (∀ e ∈ (p.callGraph entry).edges, e.callee ∈ (p.callGraph entry).reachable) ∧
    (p.callGraph entry).reachableFrom entry = (p.callGraph entry).reachable := by
  have hp := valid_of_build hd h
  have hleast := isLeast_reachable_callGraph p entry
  have hedges : ∀ e, e ∈ (p.callGraph entry).edges ↔
      e.caller ∈ (p.callGraph entry).reachable ∧ e.site ∈ p.callSites e.caller ∧
        (p.callAt? e.site).map Invoke.kind = some e.kind ∧ e.callee ∈ p.resolve e.site := by
    intro e
    rw [hp.mem_edges_callGraph, mem_callEdges_iff_resolve]
  refine ⟨⟨_, fun fuel hf => iterate_mono hf (Discovery.exists_discovery p entry)⟩, hleast,
    (Discovery.invariant_callGraph hp entry).nodup, fun m => hp.hasMethod_of_reachable he, hedges,
    hp.nodup_edges_callGraph entry, fun e hedge => ?_, hp.reachableFrom_callGraph entry⟩
  obtain ⟨hcaller, hsite, -, hcallee⟩ := (hedges e).1 hedge
  exact hleast.1.2 _ hcaller _ hsite _ hcallee

/-- Two methods call each other, and one of them waits twice. -/
theorem discovery_finds_least_cycle : ∃ (d : Declarations) (p : Program), d.Built ∧
    d.build = .ok p ∧ p.HasMethod ⟨0⟩ ∧
      IsLeast {R | ⟨0⟩ ∈ R ∧ p.ClosedUnderCalls R} {m | m ∈ (p.callGraph ⟨0⟩).reachable} ∧
      (p.callGraph ⟨0⟩).reachableFrom ⟨0⟩ = (p.callGraph ⟨0⟩).reachable ∧
      (p.callGraph ⟨0⟩).reachable = [⟨0⟩, ⟨2⟩, ⟨1⟩] := by
  have h1 := Declarations.Built.empty.addClass "A" none [] (by simp) (by simp)
    (Declarations.addClass_first "A")
  have h2 := h1.addMethod ⟨0⟩ "main" [] .void true (by decide) (by decide) rfl
  have h3 := h2.addMethod ⟨0⟩ "f" [] .void true (by decide) (by decide) rfl
  have h4 := h3.addMethod ⟨0⟩ "g" [] .void true (by decide) (by decide) rfl
  have h5 := h4.addStmt ⟨0⟩ (.invoke none ⟨.static, ⟨⟨0⟩, ⟨"void g()"⟩⟩, none, []⟩)
    (by decide) (by decide) rfl
  have h6 := h5.addStmt ⟨0⟩ (.invoke none ⟨.static, ⟨⟨0⟩, ⟨"void f()"⟩⟩, none, []⟩)
    (by decide) (by decide) rfl
  have h7 := h6.addStmt ⟨1⟩ (.invoke none ⟨.static, ⟨⟨0⟩, ⟨"void g()"⟩⟩, none, []⟩)
    (by decide) (by decide) rfl
  have h8 := h7.addStmt ⟨2⟩ (.invoke none ⟨.static, ⟨⟨0⟩, ⟨"void f()"⟩⟩, none, []⟩)
    (by decide) (by decide) rfl
  obtain ⟨-, hleast, -, -, -, -, -, horder⟩ := discovery_finds_least h8 rfl
    (show Declarations.HasMethod _ ⟨0⟩ by decide)
  exact ⟨_, _, h8, rfl, by decide, hleast, horder, by decide +kernel⟩

end ObjectFlow.Program
