import ObjectFlow.CallGraph.FromHierarchy
import ObjectFlow.Proofs.Program.Sites

/-!
# Possible calls

In a valid program the possible calls of a method (`Program.callEdges`) are those from the calls in
its body to their possible targets (`Valid.mem_callEdges`), each once (`Valid.nodup_callEdges`).
-/

namespace ObjectFlow.Program

variable {p : Program} {m : MethodId} {site : Site} {e : CallEdge}

/-- The call sites of a method are the sites in it at which there is a call. -/
theorem Valid.mem_callSites (hp : p.Valid) :
    site ∈ p.callSites m ↔ site.method = m ∧ ∃ call, p.callAt? site = some call := by
  have hcall : p.callAt? site = (p.instrAt? site).bind Instr.invoke? := by
    simp only [Declarations.callAt?, Declarations.instrAt?, Option.bind_map, Function.comp_def]
  rw [hcall]
  simp only [Declarations.callSites, List.mem_map, List.mem_filter, Option.isSome_iff_exists,
    Option.bind_eq_some_iff]
  constructor
  · rintro ⟨⟨_, i⟩, ⟨hs, call, hc⟩, rfl⟩
    exact ⟨Declarations.site_method hs, call, i, hp.wellFormed.instrAt? hs, hc⟩
  · rintro ⟨rfl, call, i, hi, hc⟩
    exact ⟨(site, i), ⟨hp.wellFormed.instrAt?_iff.1 hi, call, hc⟩, rfl⟩

/-- Static and special calls have one target, the others one for each class below the declared. -/
theorem mem_targets {call : Invoke} : m ∈ p.targets call ↔
    ((call.kind = .static ∨ call.kind = .special) ∧ p.calleeOn? none call = some m) ∨
      ((call.kind = .virtual ∨ call.kind = .interface) ∧
        ∃ c ∈ p.subtypes call.target.cls, p.calleeOn? (some c) call = some m) := by
  unfold targets
  cases call.kind <;> simp

/-- The target on a receiver is a possible one, unless it comes from a class that does not stand
below the declared one. -/
theorem mem_targets_of_calleeOn? {call : Invoke} {receiver : Option ClassId}
    (h : p.calleeOn? receiver call = some m)
    (hbelow : call.kind = .virtual ∨ call.kind = .interface → ∀ c, receiver = some c →
      c ∈ p.subtypes call.target.cls) : m ∈ p.targets call := by
  rw [mem_targets]
  cases hk : call.kind with
  | static =>
    refine .inl ⟨.inl rfl, ?_⟩
    simpa only [calleeOn?, hk] using h
  | special =>
    refine .inl ⟨.inr rfl, ?_⟩
    simpa only [calleeOn?, hk] using h
  | virtual =>
    cases receiver with
    | none => simp [calleeOn?, hk] at h
    | some c => exact .inr ⟨.inl rfl, c, hbelow (.inl hk) c rfl, h⟩
  | interface =>
    cases receiver with
    | none => simp [calleeOn?, hk] at h
    | some c => exact .inr ⟨.inr rfl, c, hbelow (.inr hk) c rfl, h⟩

theorem mem_edgesAt : e ∈ p.edgesAt site ↔ e.site = site ∧
    ∃ call, p.callAt? site = some call ∧ e.kind = call.kind ∧ e.callee ∈ p.targets call := by
  unfold edgesAt
  cases p.callAt? site with
  | none => simp
  | some call =>
    simp only [List.mem_map, mem_sorted, Option.some.injEq, exists_eq_left']
    constructor
    · rintro ⟨callee, hm, rfl⟩
      exact ⟨rfl, rfl, hm⟩
    · rintro ⟨rfl, hk, hm⟩
      exact ⟨e.callee, hm, by rw [← hk]⟩

theorem Valid.mem_callEdges (hp : p.Valid) : e ∈ p.callEdges m ↔ e.caller = m ∧
    ∃ call, p.callAt? e.site = some call ∧ e.kind = call.kind ∧ e.callee ∈ p.targets call := by
  simp only [callEdges, List.mem_flatMap, mem_edgesAt]
  constructor
  · rintro ⟨site, hs, rfl, he⟩
    exact ⟨(hp.mem_callSites.1 hs).1, he⟩
  · rintro ⟨hm, call, hc, he⟩
    exact ⟨e.site, hp.mem_callSites.2 ⟨hm, call, hc⟩, rfl, call, hc, he⟩

theorem mem_resolve :
    m ∈ p.resolve site ↔ ∃ call, p.callAt? site = some call ∧ m ∈ p.targets call := by
  unfold resolve
  cases p.callAt? site <;> simp [mem_sorted]

/-- The possible calls of a method are of the kinds of its call sites, to what these resolve to. -/
theorem mem_callEdges_iff_resolve : e ∈ p.callEdges m ↔ e.site ∈ p.callSites m ∧
    (p.callAt? e.site).map Invoke.kind = some e.kind ∧ e.callee ∈ p.resolve e.site := by
  simp only [callEdges, List.mem_flatMap, mem_edgesAt, mem_resolve, Option.map_eq_some_iff]
  constructor
  · rintro ⟨site, hs, rfl, call, hc, hk, hm⟩
    exact ⟨hs, ⟨call, hc, hk.symm⟩, call, hc, hm⟩
  · rintro ⟨hs, ⟨call, hc, hk⟩, call', hc', hm⟩
    obtain rfl := Option.some.inj (hc.symm.trans hc')
    exact ⟨e.site, hs, rfl, call, hc, hk.symm, hm⟩

/-- The possible callees of a method are what its call sites resolve to. -/
theorem mem_callees {n : MethodId} : n ∈ (p.callEdges m).map CallEdge.callee ↔
    ∃ s ∈ p.callSites m, n ∈ p.resolve s := by
  simp only [List.mem_map, mem_callEdges_iff_resolve]
  constructor
  · rintro ⟨e, ⟨hs, -, hm⟩, rfl⟩
    exact ⟨e.site, hs, hm⟩
  · rintro ⟨s, hs, hm⟩
    obtain ⟨call, hc, -⟩ := mem_resolve.1 hm
    exact ⟨⟨call.kind, s, n⟩, ⟨hs, by rw [hc]; rfl, hm⟩, rfl⟩

/-- The calls of a method come from there. -/
theorem caller_of_mem_callEdges (h : e ∈ p.callEdges m) : e.caller = m := by
  obtain ⟨site, hs, he⟩ := List.mem_flatMap.1 h
  obtain ⟨y, hy, rfl⟩ := List.mem_map.1 hs
  rw [CallEdge.caller, (mem_edgesAt.1 he).1]
  exact Declarations.site_method (List.mem_filter.1 hy).1

/-- The calls of a method stand together among those of the program. -/
theorem callEdges_sublist : (p.callEdges m).Sublist p.possibleCalls := by
  by_cases hm : p.HasMethod m
  · rw [possibleCalls, List.flatMap_def]
    exact List.sublist_flatten_of_mem (List.mem_map_of_mem (Declarations.mem_methodIds.2 hm))
  · have hnone : p.body? m = none := by
      rw [Option.eq_none_iff_forall_ne_some]
      exact fun b hb => hm (Declarations.body?_lt hb)
    simp [callEdges, Declarations.callSites, Declarations.stmtsOf, hnone]

/-- Among the calls of several methods none is of a further one. -/
theorem filter_flatMap_callEdges_of_notMem {methods : List MethodId} (h : m ∉ methods) :
    (methods.flatMap p.callEdges).filter (·.caller = m) = [] := by
  refine List.filter_eq_nil_iff.2 fun e he => ?_
  obtain ⟨k, hk, hek⟩ := List.mem_flatMap.1 he
  have hne : k ≠ m := fun heq => h (heq ▸ hk)
  simpa [caller_of_mem_callEdges hek] using hne

/-- Those of one among them are its calls. -/
theorem filter_flatMap_callEdges {methods : List MethodId} (h : methods.Nodup) (hm : m ∈ methods) :
    (methods.flatMap p.callEdges).filter (·.caller = m) = p.callEdges m := by
  obtain ⟨before, after, rfl⟩ := List.append_of_mem hm
  obtain ⟨hrest, -⟩ := List.nodup_cons.1 (List.nodup_middle.1 h)
  obtain ⟨hbefore, hafter⟩ := not_or.1 (mt List.mem_append.2 hrest)
  have hown : (p.callEdges m).filter (·.caller = m) = p.callEdges m :=
    List.filter_eq_self.2 fun e he => by simp [caller_of_mem_callEdges he]
  rw [List.flatMap_append, List.flatMap_cons, List.filter_append, List.filter_append, hown,
    filter_flatMap_callEdges_of_notMem hbefore, filter_flatMap_callEdges_of_notMem hafter]
  simp

theorem Valid.hasMethod_of_mem_targets (hp : p.Valid) {call : Invoke} (h : m ∈ p.targets call) :
    p.HasMethod m := by
  rcases mem_targets.1 h with ⟨-, hm⟩ | ⟨-, c, -, hm⟩
  · exact hp.calleeOn? hm
  · exact hp.calleeOn? hm

theorem Valid.nodup_callSites (hp : p.Valid) : (p.callSites m).Nodup := by
  refine (List.nodup_map_iff_inj_on ((hp.wellFormed.nodup_stmtsOf m).filter _)).2 ?_
  intro y hy z hz hsite
  have hi := hp.wellFormed.instrAt? (List.mem_filter.1 hy).1
  have hj := hp.wellFormed.instrAt? (List.mem_filter.1 hz).1
  rw [hsite, hj, Option.some.injEq] at hi
  exact Prod.ext hsite hi.symm

theorem nodup_edgesAt : (p.edgesAt site).Nodup := by
  unfold edgesAt
  split
  · exact (nodup_toList _).map fun c c' h => by simpa using h
  · exact List.nodup_nil

theorem Valid.nodup_callEdges (hp : p.Valid) : (p.callEdges m).Nodup := by
  refine List.nodup_flatMap.2 ⟨fun _ _ => nodup_edgesAt, hp.nodup_callSites.imp ?_⟩
  intro site site' hne e he he'
  exact hne ((mem_edgesAt.1 he).1.symm.trans (mem_edgesAt.1 he').1)

end ObjectFlow.Program
