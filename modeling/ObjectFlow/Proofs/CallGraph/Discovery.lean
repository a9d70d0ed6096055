import ObjectFlow.Proofs.CallGraph.PossibleCalls
import ObjectFlow.Proofs.Search

/-!
# Discovery of possible calls

A discovery lets a method wait as often as it is called before its turn comes, and drops it when it
has become reachable meanwhile. Without the methods that will be dropped (`Discovery.search`) it is
a breadth-first search along possible calls, except that it takes some steps more
(`Discovery.step_search`). Every step uses up a possible call or a waiting method, so the fuel of
`callGraph` suffices (`exists_discovery`).
-/

namespace ObjectFlow

open Relation (ReflTransGen)

variable {p : Program} {entry m : MethodId}

namespace Discovery

variable {s t : Discovery}

/-! ## One step -/

/-- Adding calls collects them, and lets those of their callees wait that are not reachable. -/
theorem foldl_addCall (es : List CallEdge) : es.foldl addCall s =
    ⟨{ s.graph with edges := es.foldl adjoin s.graph.edges },
      s.queue ++ (es.map CallEdge.callee).filter (· ∉ s.graph.reachable)⟩ := by
  induction es generalizing s with
  | nil => simp
  | cons e es ih =>
    rw [List.foldl_cons, ih]
    by_cases he : e.callee ∈ s.graph.reachable <;>
      simp [addCall, CallGraph.addEdge, he]

/-- The method that waits longest is dropped if it is reachable. If not, it becomes reachable with
its calls. -/
theorem step_cases (h : step p s = some t) : ∃ m queue, s.queue = m :: queue ∧
    (m ∈ s.graph.reachable ∧ t = { s with queue } ∨
      m ∉ s.graph.reachable ∧
        t.graph.entries = s.graph.entries ∧
        t.graph.reachable = s.graph.reachable ++ [m] ∧
        t.graph.edges = (p.callEdges m).foldl adjoin s.graph.edges ∧
        t.queue = queue ++ ((p.callEdges m).map CallEdge.callee).filter
          (· ∉ s.graph.reachable ++ [m])) := by
  unfold step at h
  split at h
  · cases h
  · rename_i m queue hq
    refine ⟨m, queue, hq, ?_⟩
    split at h
    · rename_i hm
      exact .inl ⟨hm, (Option.some.inj h).symm⟩
    · rename_i hm
      have hadd : adjoin s.graph.reachable m = s.graph.reachable ++ [m] := if_neg hm
      rw [foldl_addCall, Option.some.injEq] at h
      subst h
      refine .inr ⟨hm, rfl, hadd, rfl, ?_⟩
      simp only [CallGraph.addReachable, hadd]

theorem queue_of_step_eq_none (h : step p s = none) : s.queue = [] := by
  unfold step at h
  split at h
  · assumption
  · split at h <;> cases h

/-! ## The search in it -/

/-- The discovery without the methods that will be dropped. -/
def search (s : Discovery) : Search MethodId where
  seen := s.graph.reachable ++ fresh s.graph.reachable s.queue
  todo := fresh s.graph.reachable s.queue

theorem search_start : (start entry).search = ⟨[entry], [entry]⟩ := rfl

theorem search_of_queue (h : s.queue = []) : s.search = ⟨s.graph.reachable, []⟩ := by
  simp [search, h, fresh]

/-- To drop a method does nothing to the search, to reach one is a step of it. -/
theorem step_search (h : step p s = some t) : t.search = s.search ∨
    Search.step (fun m => (p.callEdges m).map CallEdge.callee) s.search = some t.search := by
  obtain ⟨m, queue, hq, ⟨hm, rfl⟩ | ⟨hm, -, hreach, -, hqueue⟩⟩ := step_cases h
  · simp [search, hq, fresh, hm]
  · refine .inr ?_
    have hseen : ∀ k, k ∈ m :: s.graph.reachable ↔ k ∈ s.graph.reachable ++ [m] := by
      simp [or_comm]
    -- whether callees that are reachable wait or not makes no difference to what is new
    have hfilter : ∀ {l l' : List MethodId}, fresh (s.graph.reachable ++ [m] ++ l)
        (l'.filter (· ∉ s.graph.reachable ++ [m])) = fresh (s.graph.reachable ++ [m] ++ l) l' := by
      intro l l'
      refine fresh_filter fun k hk => ?_
      simpa using fun h => hk (List.mem_append_left l h)
    simp only [search, Search.step, hq, fresh, hm, if_false, fresh_congr hseen, hreach, hqueue,
      fresh_append, hfilter]
    simp

/-! ## Termination -/

/-- The possible calls of methods that are not reachable yet. -/
def unseen (p : Program) (s : Discovery) : List CallEdge :=
  p.possibleCalls.filter (·.caller ∉ s.graph.reachable)

/-- A method that becomes reachable takes its calls away. -/
theorem length_unseen_add (hm : m ∉ s.graph.reachable)
    (ht : t.graph.reachable = s.graph.reachable ++ [m]) :
    (t.unseen p).length + (p.callEdges m).length ≤ (s.unseen p).length := by
  have hothers : (s.unseen p).filter (fun e => !decide (e.caller = m)) = t.unseen p := by
    simp only [unseen, List.filter_filter, ht]
    exact List.filter_congr fun e _ => by simp [and_comm]
  have hcalls : (p.callEdges m).Sublist ((s.unseen p).filter (·.caller = m)) := by
    have h := Program.callEdges_sublist (p := p) (m := m).filter (·.caller ∉ s.graph.reachable)
    have h' := h.filter (·.caller = m)
    rwa [List.filter_filter, List.filter_eq_self.2] at h'
    intro e he
    simp [Program.caller_of_mem_callEdges he, hm]
  have hsplit := List.length_eq_length_filter_add (l := s.unseen p) (·.caller = m)
  have hle := hcalls.length_le
  rw [hothers] at hsplit
  omega

/-- Discovery ends: each step drops a waiting method, or trades one and its calls for callees that
wait. -/
theorem exists_discovery (p : Program) (entry : MethodId) :
    iterate (step p) (p.possibleCalls.length + 2) (start entry)
      = some ⟨p.callGraph entry, []⟩ := by
  have hfall : ∀ s t, True → step p s = some t →
      t.queue.length + (t.unseen p).length < s.queue.length + (s.unseen p).length := by
    intro s t _ h
    obtain ⟨m, queue, hq, ⟨-, rfl⟩ | ⟨hm, -, hreach, -, hqueue⟩⟩ := step_cases h
    · simp [hq, unseen]
    · have hcalls := length_unseen_add (p := p) hm hreach
      have hwait := List.length_filter_le (· ∉ s.graph.reachable ++ [m])
        ((p.callEdges m).map CallEdge.callee)
      rw [List.length_map] at hwait
      rw [hq, hqueue, List.length_append, List.length_cons]
      omega
  have hstart : (start entry).queue.length + ((start entry).unseen p).length
      < p.possibleCalls.length + 2 := by
    have := List.length_filter_le (·.caller ∉ (start entry).graph.reachable) p.possibleCalls
    simp only [start, unseen, List.length_singleton] at this ⊢
    omega
  obtain ⟨t, ht⟩ :=
    exists_iterate (p := fun _ => True) (fun _ _ _ _ => trivial) hfall trivial hstart
  have hqueue := queue_of_step_eq_none (step_eq_none_of_iterate ht)
  rw [ht, Program.callGraph, ht, ← hqueue]

/-! ## What has been found -/

/-- The entry stands alone, no method is reachable twice, and the calls of the reachable methods
follow each other in the order of these. -/
structure Invariant (p : Program) (entry : MethodId) (s : Discovery) : Prop where
  entries : s.graph.entries = [entry]
  nodup : s.graph.reachable.Nodup
  edges : s.graph.edges = s.graph.reachable.flatMap p.callEdges

theorem invariant_start : Invariant p entry (start entry) :=
  ⟨rfl, List.nodup_nil, rfl⟩

theorem Invariant.step (h : Invariant p entry s) (hp : p.Valid)
    (hs : Discovery.step p s = some t) : Invariant p entry t := by
  obtain ⟨m, queue, -, ⟨-, rfl⟩ | ⟨hm, hentries, hreach, hedges, -⟩⟩ := step_cases hs
  · exact ⟨h.entries, h.nodup, h.edges⟩
  · refine ⟨hentries.trans h.entries, ?_, ?_⟩
    · rw [hreach]
      refine List.nodup_append.2 ⟨h.nodup, List.nodup_singleton m, fun k hk l hl hkl => ?_⟩
      exact hm (List.mem_singleton.1 hl ▸ hkl ▸ hk)
    · have hnew : ∀ e ∈ p.callEdges m, e ∉ s.graph.edges := by
        intro e he hold
        rw [h.edges] at hold
        obtain ⟨k, hk, hek⟩ := List.mem_flatMap.1 hold
        rw [Program.caller_of_mem_callEdges he |>.symm, Program.caller_of_mem_callEdges hek] at hm
        exact hm hk
      rw [hedges, foldl_adjoin hp.nodup_callEdges hnew, hreach, List.flatMap_append, h.edges]
      simp

theorem invariant_callGraph (hp : p.Valid) (entry : MethodId) :
    Invariant p entry ⟨p.callGraph entry, []⟩ :=
  iterate_invariant (fun _ _ h hs => h.step hp hs) invariant_start (exists_discovery p entry)

/-- A breadth-first search along possible calls finds the same methods in the same order. -/
theorem exists_search_callGraph (p : Program) (entry : MethodId) :
    ∃ n, iterate (Search.step fun m => (p.callEdges m).map CallEdge.callee) n ⟨[entry], [entry]⟩
      = some ⟨(p.callGraph entry).reachable, []⟩ := by
  have h := iterate_map (f := search) (fun _ _ => step_search) (fun s hs => by
    rw [search_of_queue (queue_of_step_eq_none hs)]
    rfl) (exists_discovery p entry)
  rw [search_start, search_of_queue rfl] at h
  exact ⟨_, h⟩

end Discovery

end ObjectFlow
